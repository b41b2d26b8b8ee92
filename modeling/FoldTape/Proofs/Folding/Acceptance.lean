import FoldTape.Proofs.Folding.Invariant
import FoldTape.Run
import Mathlib.Combinatorics.Enumerative.DyckWord
import Mathlib.Order.Bounds.Defs

/-!
# Which sources are accepted, and which bracket is to blame

A source is accepted exactly if its brackets are a Dyck word. If they are not, the report blames
the first closing bracket that has no partner, and if there is none, the last opening bracket
without partner.
-/

namespace FoldTape

/-! ## §1 The brackets of a text -/

/-- The step that a bracket is. -/
def bracketStep? : Char → Option DyckStep
  | '[' => some .U
  | ']' => some .D
  | _ => none

/-- The brackets of a text, and nothing else. -/
def bracketSteps (text : List Char) : List DyckStep := text.filterMap bracketStep?

theorem bracketStep?_eq_none {c : Char} (hc : c ≠ '[' ∧ c ≠ ']') : bracketStep? c = none := by
  unfold bracketStep?
  split
  · exact absurd rfl hc.1
  · exact absurd rfl hc.2
  · rfl

theorem bracketCount_eq_steps (s : List Char) :
    bracketCount s = (bracketSteps s).count .U - (bracketSteps s).count .D := by
  induction s with
  | nil => rfl
  | cons c s ih =>
    rcases bracket_cases c with rfl | rfl | hc
    · have hcons : bracketSteps ('[' :: s) = .U :: bracketSteps s := rfl
      rw [bracketCount_cons_open, ih, hcons, List.count_cons_self, List.count_cons_of_ne (by simp)]
      omega
    · have hcons : bracketSteps (']' :: s) = .D :: bracketSteps s := rfl
      rw [bracketCount_cons_close, ih, hcons, List.count_cons_self, List.count_cons_of_ne (by simp)]
      omega
    · have hcons : bracketSteps (c :: s) = bracketSteps s := by
        rw [bracketSteps, List.filterMap_cons_none (bracketStep?_eq_none hc)]
        rfl
      rw [bracketCount_cons_other hc, ih, hcons]

/-- **Balanced texts** are those whose brackets are a Dyck word. -/
theorem exists_dyckWord_iff {s : List Char} :
    (∃ w : DyckWord, w.toList = bracketSteps s) ↔ bracketCount s = 0 ∧ StaysOpen 0 s := by
  constructor
  · rintro ⟨w, hw⟩
    have hequal := w.count_U_eq_count_D
    rw [hw] at hequal
    refine ⟨?_, ?_⟩
    · rw [bracketCount_eq_steps]
      omega
    · intro n
      -- The brackets of a beginning are a beginning of the brackets.
      have hprefix : bracketSteps (s.take n) <+: bracketSteps s :=
        (List.take_prefix n s).filterMap bracketStep?
      have hle := w.count_D_le_count_U (bracketSteps (s.take n)).length
      rw [hw, ← List.prefix_iff_eq_take.mp hprefix] at hle
      rw [bracketCount_eq_steps]
      omega
  · rintro ⟨hzero, hopen⟩
    rw [bracketCount_eq_steps] at hzero
    refine ⟨⟨bracketSteps s, by omega, ?_⟩, rfl⟩
    intro i
    -- A beginning of the brackets is what some beginning of the text leaves of them.
    obtain ⟨u, v, rfl, hu, -⟩ :=
      List.filterMap_eq_append_iff.mp (List.take_append_drop i (bracketSteps s)).symm
    have hcount := hopen u.length
    rw [List.take_left, bracketCount_eq_steps, bracketSteps, hu] at hcount
    omega

/-! ## §2 Blame -/

/-- Up to and including a position, a text has more closing than opening brackets. -/
def OverclosedAt (s : List Char) (p : Nat) : Prop :=
  p < s.length ∧ (s.take (p + 1)).count '[' < (s.take (p + 1)).count ']'

/-- At a position there is an opening bracket without partner. -/
def UnmatchedAt (s : List Char) (p : Nat) : Prop :=
  s[p]? = some '[' ∧ closingPartner? s p = none

theorem StaysOpen.not_overclosedAt {s : List Char} (h : StaysOpen 0 s) (p : Nat) :
    ¬ OverclosedAt s p := by
  rintro ⟨-, hcount⟩
  have hnonneg := h (p + 1)
  rw [bracketCount] at hnonneg
  omega

/-- A closing bracket after a balanced text is the first one without partner. -/
theorem isLeast_overclosedAt {u v : List Char} (hopen : StaysOpen 0 u)
    (hzero : bracketCount u = 0) :
    IsLeast {p | OverclosedAt (u ++ ']' :: v) p} u.length := by
  refine ⟨⟨by simp, ?_⟩, ?_⟩
  · have htake : (u ++ ']' :: v).take (u.length + 1) = u ++ [']'] := by
      rw [List.take_length_add_append]
      rfl
    have hcount : bracketCount (u ++ [']']) < 0 := by
      rw [bracketCount_append, hzero]
      decide
    rw [htake]
    rw [bracketCount] at hcount
    omega
  · -- A position before it is in a text that stays open.
    rintro p ⟨hp, hcount⟩
    by_contra hlt
    have htake : (u ++ ']' :: v).take (p + 1) = u.take (p + 1) :=
      List.take_append_of_le_length (by omega)
    have hnonneg := hopen (p + 1)
    rw [htake] at hcount
    rw [bracketCount] at hnonneg
    omega

/-- The innermost open loop is the last one without partner. -/
theorem Builder.Describes.isGreatest_unmatchedAt {s : List Char} {b : Builder} {l : OpenLoop}
    {rest : List OpenLoop} (h : b.Describes s) (hopened : b.opened = l :: rest) :
    IsGreatest {p | UnmatchedAt s p} l.position := by
  have hl : l.Waits s b.code 0 := h.waits 0 l (by rw [hopened]; rfl)
  refine ⟨⟨hl.bracket, hl.unmatched⟩, ?_⟩
  rintro p ⟨hbracket, hunmatched⟩
  -- Another bracket without partner belongs to a loop further out.
  obtain ⟨l', hl', rfl⟩ := h.complete p hbracket hunmatched
  have hnested := h.nested
  rw [hopened] at hl' hnested
  rcases List.mem_cons.mp hl' with rfl | hl'
  · exact Nat.le_refl _
  · exact Nat.le_of_lt ((List.pairwise_cons.mp hnested).1 l' hl').1

/-! ## §3 Acceptance -/

/-- **Acceptance and blame.** A source is accepted exactly if its brackets are a Dyck word.
Otherwise the report is about the first position up to which more loops are closed than opened,
and if there is no such position, about the last opening bracket without partner. -/
theorem compileText_accepts_or_blames (source : List Char) :
    ((∃ p, compileText source = .ok p) ↔ ∃ w : DyckWord, w.toList = bracketSteps source) ∧
    ((∃ q, OverclosedAt source q) →
      ∃ q, IsLeast {q | OverclosedAt source q} q ∧ compileText source =
        .error (Diagnostic.build "unmatched closing bracket".toList source q)) ∧
    ((¬ ∃ w : DyckWord, w.toList = bracketSteps source) → (¬ ∃ q, OverclosedAt source q) →
      ∃ q, IsGreatest {q | UnmatchedAt source q} q ∧ compileText source =
        .error (Diagnostic.build "unmatched opening bracket".toList source q)) := by
  rw [exists_dyckWord_iff, compileText]
  rcases compile_cases source with
    ⟨b, hb, hopen, hopened, hcompile⟩ | ⟨b, l, rest, hb, hopen, hopened, hcompile⟩ |
    ⟨u, v, rfl, hopen, hzero, hcompile⟩
  · -- The source is accepted: nothing is left open and nothing is closed too early.
    have hdepth := hb.depth
    rw [hopened] at hdepth
    rw [hcompile]
    refine ⟨⟨fun _ => ⟨hdepth, hopen⟩, fun _ => ⟨b.code, rfl⟩⟩, ?_, ?_⟩
    · rintro ⟨q, hq⟩
      exact absurd hq (hopen.not_overclosedAt q)
    · intro hdyck
      exact absurd ⟨hdepth, hopen⟩ hdyck
  · -- A loop is left open.
    have hdepth := hb.depth
    rw [hopened, List.length_cons] at hdepth
    rw [hcompile]
    refine ⟨⟨?_, ?_⟩, ?_, ?_⟩
    · rintro ⟨p, hp⟩
      cases hp
    · rintro ⟨hzero, -⟩
      omega
    · rintro ⟨q, hq⟩
      exact absurd hq (hopen.not_overclosedAt q)
    · intro _ _
      exact ⟨l.position, hb.isGreatest_unmatchedAt hopened, rfl⟩
  · -- A bracket closes a loop that is not there.
    have hleast : IsLeast _ _ := isLeast_overclosedAt (v := v) hopen hzero
    rw [hcompile]
    refine ⟨⟨?_, ?_⟩, ?_, ?_⟩
    · rintro ⟨p, hp⟩
      cases hp
    · rintro ⟨-, hall⟩
      exact absurd hleast.1 (hall.not_overclosedAt _)
    · intro _
      exact ⟨u.length, hleast, rfl⟩
    · intro _ hnone
      exact absurd ⟨_, hleast.1⟩ hnone

/-- The first of two closing brackets is blamed, and the last of two opening brackets. -/
theorem compileText_accepts_or_blames_twice :
    (∃ q, IsLeast {q | OverclosedAt [']', ']'] q} q ∧ compileText [']', ']'] =
      .error (Diagnostic.build "unmatched closing bracket".toList [']', ']'] q)) ∧
    (∃ q, IsGreatest {q | UnmatchedAt ['[', '['] q} q ∧ compileText ['[', '['] =
      .error (Diagnostic.build "unmatched opening bracket".toList ['[', '['] q)) := by
  refine ⟨(compileText_accepts_or_blames _).2.1 ⟨0, by decide, by decide⟩,
    (compileText_accepts_or_blames _).2.2 ?_ ?_⟩
  · rw [exists_dyckWord_iff]
    rintro ⟨hzero, -⟩
    exact absurd hzero (by decide)
  · rintro ⟨q, hq⟩
    have hopen : StaysOpen 0 ['[', '['] := by simp [StaysOpen.nil]
    exact hopen.not_overclosedAt q hq

end FoldTape
