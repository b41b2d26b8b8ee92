import FoldTape.Text.Lines
import Mathlib.Algebra.Ring.Nat
import Mathlib.Data.List.Basic
import Mathlib.Data.List.Induction

/-!
# The lines of a text, cut at a position

A text up to a position is some lines that have ended, each with its line feed, and the beginning
of one that has not. What comes after the position goes on with that line. Numbers of lines, their
lengths and the distance from the last line feed are read off from this.

Main statements:

- `exists_linesUpTo`: every text can be seen in this way;
- `LinesUpTo.splitLines_append`: the lines of a text that goes on;
- `splitLines_joinLines`: lines that are joined can be split again.
-/

namespace FoldTape

/-! ## §1 Splitting and joining -/

theorem splitLines_eq_splitOn (text : List Char) : splitLines text = text.splitOn '\n' := by
  induction text with
  | nil => rw [splitLines_nil, List.splitOn_nil]
  | cons c text ih =>
    rw [List.splitOn_cons_eq_if_modifyHead, ← ih]
    by_cases hc : c = '\n'
    · subst hc
      rfl
    · obtain ⟨line, lines, h⟩ := List.exists_cons_of_ne_nil (splitLines_ne_nil text)
      rw [splitLines_cons hc h, h, if_neg (by simpa using hc), List.modifyHead_cons]

/-- No line feed is left in a line. -/
theorem newline_notMem_of_mem_splitLines {text line : List Char} (h : line ∈ splitLines text) :
    '\n' ∉ line := by
  induction text generalizing line with
  | nil =>
    rw [splitLines_nil, List.mem_singleton] at h
    rw [h]
    exact List.not_mem_nil
  | cons c text ih =>
    by_cases hc : c = '\n'
    · subst hc
      rw [splitLines_newline] at h
      rcases List.mem_cons.mp h with rfl | h
      · exact List.not_mem_nil
      · exact ih h
    · obtain ⟨first, lines, hsplit⟩ := List.exists_cons_of_ne_nil (splitLines_ne_nil text)
      rw [splitLines_cons hc hsplit] at h
      rw [hsplit] at ih
      rcases List.mem_cons.mp h with rfl | h
      · rw [List.mem_cons, not_or]
        exact ⟨Ne.symm hc, ih List.mem_cons_self⟩
      · exact ih (List.mem_cons_of_mem _ h)

/-- **Splitting restores the lines** of a text that has been joined from one line at least. -/
theorem splitLines_joinLines {lines : List (List Char)} (hlines : ∀ line ∈ lines, '\n' ∉ line)
    (hne : lines ≠ []) : splitLines (joinLines lines) = lines := by
  rw [splitLines_eq_splitOn]
  exact List.splitOn_intercalate '\n' hlines hne

/-! ## §2 Up to a position -/

/-- A text is some lines that have ended and the beginning of one that has not. -/
structure LinesUpTo (text : List Char) (ended : List (List Char)) (last : List Char) : Prop where
  text_eq : text = ended.flatMap (· ++ ['\n']) ++ last
  notMem_ended : ∀ line ∈ ended, '\n' ∉ line
  notMem_last : '\n' ∉ last

/-- Every text is of this form. -/
theorem exists_linesUpTo (text : List Char) : ∃ ended last, LinesUpTo text ended last := by
  induction text using List.reverseRecOn with
  | nil => exact ⟨[], [], rfl, by simp, List.not_mem_nil⟩
  | append_singleton text c ih =>
    obtain ⟨ended, last, rfl, hended, hlast⟩ := ih
    by_cases hc : c = '\n'
    · -- The line ends, and the next one begins.
      subst hc
      refine ⟨ended ++ [last], [], by simp, ?_, List.not_mem_nil⟩
      intro line hline
      rcases List.mem_append.mp hline with hline | hline
      · exact hended line hline
      · exact List.mem_singleton.mp hline ▸ hlast
    · refine ⟨ended, last ++ [c], by rw [List.append_assoc], hended, ?_⟩
      rw [List.mem_append, List.mem_singleton, not_or]
      exact ⟨hlast, Ne.symm hc⟩

namespace LinesUpTo

variable {text last : List Char} {ended : List (List Char)}

/-- Without a line feed the last line gets longer. -/
theorem append (h : LinesUpTo text ended last) {more : List Char} (hmore : '\n' ∉ more) :
    LinesUpTo (text ++ more) ended (last ++ more) where
  text_eq := by rw [h.text_eq, List.append_assoc]
  notMem_ended := h.notMem_ended
  notMem_last := by
    rw [List.mem_append, not_or]
    exact ⟨h.notMem_last, hmore⟩

/-- Every line that has ended takes its characters and a line feed. -/
theorem length_eq (h : LinesUpTo text ended last) :
    text.length = (ended.map fun line => line.length + 1).sum + last.length := by
  rw [h.text_eq, List.length_append, List.length_flatMap]
  simp only [List.length_append, List.length_singleton]

/-- There is one line feed for every line that has ended. -/
theorem count_newline (h : LinesUpTo text ended last) : text.count '\n' = ended.length := by
  obtain ⟨rfl, hended, hlast⟩ := h
  rw [List.count_append, List.count_eq_zero.mpr hlast, Nat.add_zero]
  clear hlast
  induction ended with
  | nil => rfl
  | cons line ended ih =>
    rw [List.flatMap_cons, List.count_append, List.count_append,
      List.count_eq_zero.mpr (hended line List.mem_cons_self), List.count_singleton_self,
      ih fun line hline => hended line (List.mem_cons_of_mem _ hline), List.length_cons]
    omega

/-- Read from its end, a text is its last line up to the line feed before it. -/
theorem takeWhile_reverse (h : LinesUpTo text ended last) :
    text.reverse.takeWhile (· ≠ '\n') = last.reverse := by
  obtain ⟨rfl, -, hlast⟩ := h
  have hline : ∀ c ∈ last.reverse, decide (c ≠ '\n') = true := by
    intro c hc
    rw [decide_eq_true_eq]
    rintro rfl
    exact hlast (List.mem_reverse.mp hc)
  rw [List.reverse_append, List.takeWhile_append_of_pos hline]
  -- Before the last line there is a line feed, or nothing.
  rcases List.eq_nil_or_concat' ended with rfl | ⟨before, line, rfl⟩
  · simp
  · simp

/-- **A text that goes on** has the lines that have ended, and the lines of all the rest. -/
theorem splitLines_append (h : LinesUpTo text ended last) (more : List Char) :
    splitLines (text ++ more) = ended ++ splitLines (last ++ more) := by
  obtain ⟨rfl, hended, -⟩ := h
  induction ended with
  | nil => rfl
  | cons line ended ih =>
    have hrest := ih fun line hline => hended line (List.mem_cons_of_mem _ hline)
    rw [splitLines_eq_splitOn] at hrest ⊢
    simp only [List.flatMap_cons, List.append_assoc, List.cons_append, List.nil_append] at hrest ⊢
    rw [List.splitOn_append_cons_self_of_not_mem (hended line List.mem_cons_self), hrest]

end LinesUpTo

/-- The first line of a text begins as the text does, up to a line feed. -/
theorem exists_splitLines_append {first : List Char} (h : '\n' ∉ first) (more : List Char) :
    ∃ rest lines, splitLines (first ++ more) = (first ++ rest) :: lines := by
  induction first with
  | nil => exact List.exists_cons_of_ne_nil (splitLines_ne_nil more)
  | cons c first ih =>
    rw [List.mem_cons, not_or] at h
    obtain ⟨rest, lines, hsplit⟩ := ih h.2
    exact ⟨rest, lines, splitLines_cons (Ne.symm h.1) hsplit⟩

end FoldTape
