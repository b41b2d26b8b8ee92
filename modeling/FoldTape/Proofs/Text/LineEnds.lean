import FoldTape.Text.Newline
import Mathlib.Data.List.Basic
import Mathlib.Data.List.Induction

/-!
# Line ends of a growing text

What one more character does to a text whose line ends are turned into line feeds: it is added, as a
line feed if it is a carriage return, unless it is the second half of a line end. A text can
therefore be cut at any character that belongs to no line end.

Main statements:

- `unifyLineEnds_concat`: one more character;
- `unifyLineEnds_append_cons`: cutting a text at a character that belongs to no line end;
- `SameLines`: when two texts have as many lines, with the same characters added to both.
-/

namespace FoldTape

/-! ## §1 One more character -/

/-- A character as it is read if it does not end a line end: a carriage return becomes a line
feed. -/
def unifiedChar (c : Char) : Char := if c = '\r' then '\n' else c

/-- One more character, if `before` is the one that the text comes after. -/
private theorem unifyLineEndsFrom_concat (before : Char) (done s : List Char) (c : Char) :
    unifyLineEndsFrom (before = '\r') done (s ++ [c]) =
      if c = '\n' ∧ s.getLastD before = '\r' then unifyLineEndsFrom (before = '\r') done s
      else unifyLineEndsFrom (before = '\r') done s ++ [unifiedChar c] := by
  induction s generalizing before done with
  | nil =>
    by_cases hsecond : c = '\n' ∧ before = '\r'
    · simp [unifyLineEndsFrom, hsecond]
    · simp only [List.nil_append, unifyLineEndsFrom, decide_eq_true_eq, if_neg hsecond,
        List.getLastD_nil, unifiedChar]
      split <;> rw [List.reverse_cons]
  | cons d s ih =>
    -- Whatever becomes of `d`, reading goes on after it.
    have hnext : ∃ done', ∀ rest, unifyLineEndsFrom (before = '\r') done (d :: rest) =
        unifyLineEndsFrom (d = '\r') done' rest := by
      by_cases hreturn : d = '\r'
      · exact ⟨'\n' :: done, fun rest => by simp [unifyLineEndsFrom, hreturn]⟩
      · by_cases hfeed : d = '\n' ∧ before = '\r'
        · exact ⟨done, fun rest => by simp [unifyLineEndsFrom, hfeed]⟩
        · exact ⟨d :: done, fun rest => by simp [unifyLineEndsFrom, hreturn, hfeed]⟩
    obtain ⟨done', hnext⟩ := hnext
    rw [List.cons_append, hnext, hnext, ih, List.getLastD_cons]

/-- **One more character** is added, unless it is a line feed after a carriage return. -/
theorem unifyLineEnds_concat (s : List Char) (c : Char) :
    unifyLineEnds (s ++ [c]) =
      if c = '\n' ∧ s.getLast? = some '\r' then unifyLineEnds s
      else unifyLineEnds s ++ [unifiedChar c] := by
  -- A text begins as it does after a line feed.
  have hconcat := unifyLineEndsFrom_concat '\n' [] s c
  have hlast : s.getLastD '\n' = '\r' ↔ s.getLast? = some '\r' := by
    rw [List.getLastD_eq_getLast?]
    cases s.getLast? with
    | none => simp
    | some x => simp
  simp only [hlast] at hconcat
  exact hconcat

/-! ## §2 Characters within lines -/

/-- A character that belongs to no line end. -/
def WithinLine (c : Char) : Prop := c ≠ '\r' ∧ c ≠ '\n'

variable {c : Char} {s t u : List Char}

/-- A character that belongs to no line end is added as it is. -/
theorem WithinLine.unifyLineEnds_concat (hc : WithinLine c) (s : List Char) :
    unifyLineEnds (s ++ [c]) = unifyLineEnds s ++ [c] := by
  rw [FoldTape.unifyLineEnds_concat, if_neg (fun h => hc.2 h.1), unifiedChar, if_neg hc.1]

theorem unifyLineEnds_append (hu : ∀ c ∈ u, WithinLine c) (s : List Char) :
    unifyLineEnds (s ++ u) = unifyLineEnds s ++ u := by
  induction u using List.reverseRecOn with
  | nil => simp
  | append_singleton u c ih =>
    rw [← List.append_assoc, (hu c (by simp)).unifyLineEnds_concat,
      ih fun d hd => hu d (List.mem_append_left _ hd), List.append_assoc]

/-- **A text can be cut** at a character that belongs to no line end. -/
theorem unifyLineEnds_append_cons (hc : WithinLine c) (s t : List Char) :
    unifyLineEnds (s ++ c :: t) = unifyLineEnds s ++ c :: unifyLineEnds t := by
  induction t using List.reverseRecOn with
  | nil => exact hc.unifyLineEnds_concat s
  | append_singleton t d ih =>
    have hassoc : s ++ c :: (t ++ [d]) = s ++ c :: t ++ [d] := by simp
    -- What `d` comes after is the end of `t` or `c`, and `c` is no carriage return.
    have hlast : (s ++ c :: t).getLast? = some '\r' ↔ t.getLast? = some '\r' := by
      rw [List.getLast?_append_of_ne_nil _ (List.cons_ne_nil c t), List.getLast?_cons]
      cases t.getLast? with
      | none => simp [hc.1]
      | some x => simp
    rw [hassoc, unifyLineEnds_concat, unifyLineEnds_concat t d, ih]
    simp only [hlast]
    split
    · rfl
    · simp

/-! ## §3 Numbers of lines -/

/-- Two texts have as many line ends, also with the same characters added to both. -/
structure SameLines (s t : List Char) : Prop where
  count : (unifyLineEnds s).count '\n' = (unifyLineEnds t).count '\n'
  last : s.getLast? = some '\r' ↔ t.getLast? = some '\r'

theorem SameLines.refl (s : List Char) : SameLines s s := ⟨rfl, Iff.rfl⟩

theorem SameLines.concat (h : SameLines s t) (c : Char) : SameLines (s ++ [c]) (t ++ [c]) where
  count := by
    rw [unifyLineEnds_concat, unifyLineEnds_concat]
    simp only [h.last]
    split
    · exact h.count
    · rw [List.count_append, List.count_append, h.count]
  last := by rw [List.getLast?_concat, List.getLast?_concat]

theorem getLast?_append_ne_return (hu : ∀ c ∈ u, WithinLine c) (hne : u ≠ []) (s : List Char) :
    (s ++ u).getLast? ≠ some '\r' := by
  rw [List.getLast?_append_of_ne_nil s hne]
  intro hlast
  exact (hu _ (List.mem_of_getLast? hlast)).1 rfl

/-- Within a line it does not matter how many characters there are, if there are any. -/
theorem SameLines.append (h : SameLines s t) {u v : List Char} (hu : ∀ c ∈ u, WithinLine c)
    (hv : ∀ c ∈ v, WithinLine c) (hne : u ≠ []) (hne' : v ≠ []) : SameLines (s ++ u) (t ++ v) where
  count := by
    rw [unifyLineEnds_append hu, unifyLineEnds_append hv, List.count_append, List.count_append,
      h.count, List.count_eq_zero.mpr fun hmem => (hu _ hmem).2 rfl,
      List.count_eq_zero.mpr fun hmem => (hv _ hmem).2 rfl]
  last := iff_of_false (getLast?_append_ne_return hu hne s) (getLast?_append_ne_return hv hne' t)

end FoldTape
