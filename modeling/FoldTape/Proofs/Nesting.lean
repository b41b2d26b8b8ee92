import FoldTape.Render

/-!
# Nested loops

A well-formed program is built of runs and whole loops. Said without building it: every run has
at least one repetition, every jump is one of the two ends of a loop, and of two loops one is
inside the other or they are apart. Both come to the same.

Main statements:

- `Matched.cons_run`, `Matched.cons_loop`: a run, or a whole loop, in front of other instructions;
- `Matched.restrict`: a part of a program that holds its loops as a whole;
- `Matched.nested`, `Nested.matched`: from the one description to the other;
- `Program.wellFormed_iff`: a program as a whole.
-/

namespace FoldTape

/-! ## §1 Matched jumps -/

/-- The instructions at `a` and `b` are the two ends of a loop: each jumps to just past the
other. -/
structure LoopEnds (l : List Instruction) (a b : Nat) : Prop where
  lt : a < b
  enters : l[a]? = some ⟨.jumpIfZero, b + 1⟩
  repeats : l[b]? = some ⟨.jumpIfNonzero, a + 1⟩

/-- From the address `lo` on and before `hi`, runs have at least one repetition, each jump is an
end of a loop that is there as a whole, and loops do not overlap. -/
structure Matched (l : List Instruction) (lo hi : Nat) : Prop where
  runs : ∀ (a : Nat) (i : Instruction), lo ≤ a → a < hi → l[a]? = some i →
    i.operator.isJump = false → 1 ≤ i.operand
  opens : ∀ (a : Nat) (n : Int), lo ≤ a → a < hi → l[a]? = some ⟨.jumpIfZero, n⟩ →
    ∃ b, b < hi ∧ LoopEnds l a b
  closes : ∀ (b : Nat) (n : Int), lo ≤ b → b < hi → l[b]? = some ⟨.jumpIfNonzero, n⟩ →
    ∃ a, lo ≤ a ∧ LoopEnds l a b
  apart : ∀ a b a' b', lo ≤ a → b < hi → LoopEnds l a b → LoopEnds l a' b' →
    a < a' → a' < b → b' < b

variable {l : List Instruction} {lo hi a b c : Nat}

namespace LoopEnds

/-- The first jump of a loop leads to just past the second one. -/
theorem target_of_enters (h : LoopEnds l a b) {n : Int} (ha : l[a]? = some ⟨.jumpIfZero, n⟩) :
    n = b + 1 := by
  have henters := h.enters
  rw [ha, Option.some.injEq, Instruction.mk.injEq] at henters
  exact henters.2

/-- The second jump of a loop leads to just past the first one. -/
theorem target_of_repeats (h : LoopEnds l a b) {n : Int}
    (hb : l[b]? = some ⟨.jumpIfNonzero, n⟩) : n = a + 1 := by
  have hrepeats := h.repeats
  rw [hb, Option.some.injEq, Instruction.mk.injEq] at hrepeats
  exact hrepeats.2

/-- The first jump of a loop tells where the second one is. -/
theorem right_unique (h : LoopEnds l a b) (h' : LoopEnds l a c) : b = c := by
  have htarget := h'.target_of_enters h.enters
  omega

theorem left_unique (h : LoopEnds l a c) (h' : LoopEnds l b c) : a = b := by
  have htarget := h'.target_of_repeats h.repeats
  omega

/-- No instruction is the end of one loop and the beginning of another. -/
theorem ne_of_ends {a' b' : Nat} (h : LoopEnds l a b) (h' : LoopEnds l a' b') : b ≠ a' := by
  rintro rfl
  have henters := h'.enters
  rw [h.repeats, Option.some.injEq, Instruction.mk.injEq] at henters
  cases henters.1

theorem lt_length (h : LoopEnds l a b) : b < l.length :=
  (List.getElem?_eq_some_iff.mp h.repeats).1

/-- A run is no end of a loop. -/
theorem ne_of_run {i : Instruction} (h : LoopEnds l a b) (hc : l[c]? = some i)
    (hi : i.operator.isJump = false) : a ≠ c ∧ b ≠ c := by
  constructor
  · rintro rfl
    rw [h.enters, Option.some.injEq] at hc
    rw [← hc] at hi
    cases hi
  · rintro rfl
    rw [h.repeats, Option.some.injEq] at hc
    rw [← hc] at hi
    cases hi

end LoopEnds

/-! ## §2 A run or a loop in front -/

namespace Matched

theorem empty (l : List Instruction) (lo : Nat) : Matched l lo lo where
  runs _ _ hle hlt := absurd hlt (Nat.not_lt.mpr hle)
  opens _ _ hle hlt := absurd hlt (Nat.not_lt.mpr hle)
  closes _ _ hle hlt := absurd hlt (Nat.not_lt.mpr hle)
  apart _ _ _ _ hle hlt h := absurd (Nat.lt_of_le_of_lt hle h.lt) (Nat.lt_asymm hlt)

section Whole

variable {p : Program} {n : Int}

/-- In a program as a whole, a jump past a loop stands at the beginning of one. -/
theorem exists_end (h : Matched p.toList 0 p.size) (ha : p[a]? = some ⟨.jumpIfZero, n⟩) :
    ∃ b, LoopEnds p.toList a b := by
  have hlt : a < p.size := (Array.getElem?_eq_some_iff.mp ha).1
  rw [← Array.getElem?_toList] at ha
  obtain ⟨b, -, hloop⟩ := h.opens a n (Nat.zero_le a) hlt ha
  exact ⟨b, hloop⟩

/-- A jump back stands at the end of a loop. -/
theorem exists_beginning (h : Matched p.toList 0 p.size)
    (hb : p[b]? = some ⟨.jumpIfNonzero, n⟩) : ∃ a, LoopEnds p.toList a b := by
  have hlt : b < p.size := (Array.getElem?_eq_some_iff.mp hb).1
  rw [← Array.getElem?_toList] at hb
  obtain ⟨a, -, hloop⟩ := h.closes b n (Nat.zero_le b) hlt hb
  exact ⟨a, hloop⟩

end Whole

/-- The partner of a jump between `lo` and `hi` is there as well. -/
theorem right_lt (h : Matched l lo hi) (hab : LoopEnds l a b) (hle : lo ≤ a) (hlt : a < hi) :
    b < hi := by
  obtain ⟨c, hc, hac⟩ := h.opens a _ hle hlt hab.enters
  rwa [hab.right_unique hac]

/-- A part that holds its loops as a whole has matched jumps as well. -/
theorem restrict (h : Matched l lo hi) {lo' hi' : Nat} (hlo : lo ≤ lo') (hhi : hi' ≤ hi)
    (hright : ∀ {a b}, LoopEnds l a b → lo' ≤ a → a < hi' → b < hi')
    (hleft : ∀ {a b}, LoopEnds l a b → lo' ≤ b → b < hi' → lo ≤ a → lo' ≤ a) :
    Matched l lo' hi' where
  runs a i hle hlt := h.runs a i (Nat.le_trans hlo hle) (Nat.lt_of_lt_of_le hlt hhi)
  opens := by
    intro a n hle hlt ha
    obtain ⟨b, -, hab⟩ := h.opens a n (Nat.le_trans hlo hle) (Nat.lt_of_lt_of_le hlt hhi) ha
    exact ⟨b, hright hab hle hlt, hab⟩
  closes := by
    intro b n hle hlt hb
    obtain ⟨a, ha, hab⟩ := h.closes b n (Nat.le_trans hlo hle) (Nat.lt_of_lt_of_le hlt hhi) hb
    exact ⟨a, hleft hab hle hlt ha, hab⟩
  apart a b a' b' hle hlt :=
    h.apart a b a' b' (Nat.le_trans hlo hle) (Nat.lt_of_lt_of_le hlt hhi)

/-- Behind a run. -/
theorem tail_of_run {i : Instruction} (h : Matched l lo hi) (hlo : l[lo]? = some i)
    (hi' : i.operator.isJump = false) : Matched l (lo + 1) hi := by
  refine h.restrict (Nat.le_succ lo) (Nat.le_refl hi) ?_ ?_
  · intro a b hab hle hlt
    exact h.right_lt hab (Nat.le_of_succ_le hle) hlt
  · intro a b hab _ _ hle
    exact Nat.lt_of_le_of_ne hle (hab.ne_of_run hlo hi').1.symm

/-- **A run in front** of instructions with matched jumps. -/
theorem cons_run {i : Instruction} (h : Matched l (lo + 1) hi) (hlo : l[lo]? = some i)
    (hi' : i.operator.isJump = false) (hpositive : 1 ≤ i.operand) : Matched l lo hi := by
  -- A jump is not at `lo`.
  have hjump : ∀ {a j}, lo ≤ a → l[a]? = some j → j.operator.isJump = true → lo + 1 ≤ a := by
    intro a j hle ha hj
    refine Nat.lt_of_le_of_ne hle ?_
    rintro rfl
    rw [hlo, Option.some.injEq] at ha
    rw [ha, hj] at hi'
    cases hi'
  constructor
  case runs =>
    intro a j hle hlt ha hj
    rcases Nat.eq_or_lt_of_le hle with rfl | hgt
    · rw [hlo, Option.some.injEq] at ha
      exact ha ▸ hpositive
    · exact h.runs a j hgt hlt ha hj
  case opens => exact fun a n hle hlt ha => h.opens a n (hjump hle ha rfl) hlt ha
  case closes =>
    intro b n hle hlt hb
    obtain ⟨a, ha, hab⟩ := h.closes b n (hjump hle hb rfl) hlt hb
    exact ⟨a, Nat.le_of_succ_le ha, hab⟩
  case apart =>
    intro a b a' b' hle hlt hab
    exact h.apart a b a' b' (hjump hle hab.enters rfl) hlt hab

section Loop

variable {e : Nat}

/-- A loop that begins inside of the first one ends there. -/
theorem lt_of_inside (h : Matched l lo hi) (hloop : LoopEnds l lo e) (he : e < hi)
    (hab : LoopEnds l a b) (hle : lo + 1 ≤ a) (hlt : a < e) : b < e :=
  h.apart lo e a b (Nat.le_refl lo) he hloop hab hle hlt

/-- The body of a loop. -/
theorem body_of_loop (h : Matched l lo hi) (hloop : LoopEnds l lo e) (he : e < hi) :
    Matched l (lo + 1) e := by
  refine h.restrict (Nat.le_succ lo) (Nat.le_of_lt he) (h.lt_of_inside hloop he) ?_
  intro a b hab _ hlt hle
  -- The loop that begins at `lo` ends at `e`, not before it.
  refine Nat.lt_of_le_of_ne hle ?_
  rintro rfl
  exact absurd (hloop.right_unique hab) (Nat.ne_of_gt hlt)

/-- Behind a loop. -/
theorem rest_of_loop (h : Matched l lo hi) (hloop : LoopEnds l lo e) (he : e < hi) :
    Matched l (e + 1) hi := by
  have hlt := hloop.lt
  refine h.restrict (by omega) (Nat.le_refl hi) ?_ ?_
  · intro a b hab hle hlt'
    exact h.right_lt hab (by omega) hlt'
  · intro a b hab hle _ hlo
    have hne := hloop.ne_of_ends hab
    rcases Nat.eq_or_lt_of_le hlo with rfl | hgt
    · have hend := hloop.right_unique hab
      omega
    · have hinside := h.lt_of_inside hloop he hab hgt
      omega

/-- **A whole loop in front** of instructions with matched jumps. -/
theorem cons_loop (hbody : Matched l (lo + 1) e) (hrest : Matched l (e + 1) hi)
    (hloop : LoopEnds l lo e) (he : e < hi) : Matched l lo hi := by
  -- An address is that of one end of the loop, in its body, or behind it.
  have hcases : ∀ {a}, lo ≤ a → a = lo ∨ lo + 1 ≤ a ∧ a < e ∨ a = e ∨ e + 1 ≤ a := by
    intro a ha
    omega
  have hlt := hloop.lt
  constructor
  case runs =>
    intro a i hle hlt ha hi'
    obtain ⟨hlo, he'⟩ := hloop.ne_of_run ha hi'
    rcases hcases hle with rfl | ⟨hin, hout⟩ | rfl | hbehind
    · exact absurd rfl hlo
    · exact hbody.runs a i hin hout ha hi'
    · exact absurd rfl he'
    · exact hrest.runs a i hbehind hlt ha hi'
  case opens =>
    intro a n hle hlt ha
    rcases hcases hle with rfl | ⟨hin, hout⟩ | rfl | hbehind
    · exact ⟨e, he, hloop⟩
    · obtain ⟨b, hb, hab⟩ := hbody.opens a n hin hout ha
      exact ⟨b, Nat.lt_trans hb he, hab⟩
    · rw [hloop.repeats, Option.some.injEq, Instruction.mk.injEq] at ha
      cases ha.1
    · exact hrest.opens a n hbehind hlt ha
  case closes =>
    intro b n hle hlt hb
    rcases hcases hle with rfl | ⟨hin, hout⟩ | rfl | hbehind
    · rw [hloop.enters, Option.some.injEq, Instruction.mk.injEq] at hb
      cases hb.1
    · obtain ⟨a, ha, hab⟩ := hbody.closes b n hin hout hb
      exact ⟨a, Nat.le_of_succ_le ha, hab⟩
    · exact ⟨lo, Nat.le_refl lo, hloop⟩
    · obtain ⟨a, ha, hab⟩ := hrest.closes b n hbehind hlt hb
      exact ⟨a, by omega, hab⟩
  case apart =>
    intro a b a' b' hle hlt hab hab' haa' ha'b
    rcases hcases hle with rfl | ⟨hin, hout⟩ | rfl | hbehind
    · obtain rfl := hloop.right_unique hab
      exact hbody.right_lt hab' haa' ha'b
    · exact hbody.apart a b a' b' hin (hbody.right_lt hab hin hout) hab hab' haa' ha'b
    · exact absurd rfl (hloop.ne_of_ends hab)
    · exact hrest.apart a b a' b' hbehind hlt hab hab' haa' ha'b

end Loop

end Matched

/-! ## §3 From one description to the other -/

/-- The instruction at an address, and those that follow on it. -/
theorem cons_prefix_drop_iff {i : Instruction} {m : List Instruction} :
    i :: m <+: l.drop a ↔ l[a]? = some i ∧ m <+: l.drop (a + 1) := by
  cases hdrop : l.drop a with
  | nil =>
    have hle := List.drop_eq_nil_iff.mp hdrop
    simp [List.getElem?_eq_none hle]
  | cons j rest =>
    have hj : l[a]? = some j := by
      rw [← List.head?_drop, hdrop, List.head?_cons]
    rw [hj, ← List.drop_drop, hdrop, List.cons_prefix_cons, Option.some.injEq, eq_comm]
    rfl

/-- Instructions that follow on others. -/
theorem prefix_drop_of_append {u v : List Instruction} (h : u ++ v <+: l.drop a) :
    v <+: l.drop (a + u.length) := by
  obtain ⟨t, ht⟩ := h
  rw [← List.drop_drop, ← ht, List.append_assoc, List.drop_left]
  exact List.prefix_append v t

/-- **Runs and whole loops have matched jumps**, wherever in a program they stand. -/
theorem Nested.matched {m : List Instruction} (h : Nested lo m) (hm : m <+: l.drop lo) :
    Matched l lo (lo + m.length) := by
  -- Addresses are those in `l`; what has been built so far stands in it from `lo` on.
  induction h with
  | nil lo => exact .empty l lo
  | @run lo i rest hi hpositive _ ih =>
    obtain ⟨hlo, hrest⟩ := cons_prefix_drop_iff.mp hm
    have hmatched := (ih hrest).cons_run hlo hi hpositive
    rwa [Nat.add_right_comm] at hmatched
  | @loop lo body rest _ _ ihbody ihrest =>
    obtain ⟨hopen, hm⟩ := cons_prefix_drop_iff.mp hm
    obtain ⟨hclose, hrest⟩ := cons_prefix_drop_iff.mp (prefix_drop_of_append hm)
    have hloop : LoopEnds l lo (lo + 1 + body.length) := by
      refine ⟨by omega, ?_, hclose⟩
      rw [hopen, Option.some.injEq, Instruction.mk.injEq]
      exact ⟨rfl, by omega⟩
    have hbehind : lo + body.length + 2 = lo + 1 + body.length + 1 := by omega
    rw [hbehind] at ihrest
    have hbody := ihbody ((List.prefix_append _ _).trans hm)
    have hmatched := hbody.cons_loop (ihrest hrest) hloop (by omega)
    rw [List.length_cons, List.length_append, List.length_cons]
    have hlength : lo + 1 + body.length + 1 + rest.length =
        lo + (body.length + (rest.length + 1) + 1) := by omega
    rwa [hlength] at hmatched

theorem getElem?_of_prefix_drop {m : List Instruction} (hm : m <+: l.drop a)
    (hb : b < m.length) : m[b]? = l[a + b]? := by
  rw [List.getElem?_eq_getElem hb, ← List.prefix_iff_getElem?.mp hm b hb, List.getElem?_drop]

/-- A list from which an instruction at an address is known comes apart there. -/
private theorem exists_append_of_getElem? {x : Instruction} {m : List Instruction}
    (h : m[a]? = some x) : ∃ u v, m = u ++ x :: v ∧ u.length = a := by
  obtain ⟨hlt, rfl⟩ := List.getElem?_eq_some_iff.mp h
  refine ⟨m.take a, m.drop (a + 1), ?_, List.length_take_of_le (Nat.le_of_lt hlt)⟩
  rw [← List.drop_eq_getElem_cons hlt, List.take_append_drop]

/-- A loop in front comes apart into its body and what is behind it. -/
theorem LoopEnds.exists_body {n : Int} {rest : List Instruction} {e : Nat}
    (hloop : LoopEnds l lo e) (hm : ⟨.jumpIfZero, n⟩ :: rest <+: l.drop lo)
    (he : e < lo + (rest.length + 1)) :
    ∃ body behind, rest = body ++ ⟨.jumpIfNonzero, lo + 1⟩ :: behind ∧
      e = lo + 1 + body.length ∧ n = lo + body.length + 2 := by
  obtain ⟨hlo, hrest⟩ := cons_prefix_drop_iff.mp hm
  obtain ⟨k, rfl⟩ := Nat.exists_eq_add_of_lt hloop.lt
  have hclose : rest[k]? = some ⟨.jumpIfNonzero, lo + 1⟩ := by
    rw [getElem?_of_prefix_drop hrest (by omega), Nat.add_right_comm]
    exact hloop.repeats
  obtain ⟨body, behind, rfl, rfl⟩ := exists_append_of_getElem? hclose
  have htarget := hloop.target_of_enters hlo
  exact ⟨body, behind, rfl, Nat.add_right_comm _ _ _, by omega⟩

/-- **Matched jumps can be built of runs and whole loops.** -/
theorem Matched.nested {m : List Instruction} (hm : m <+: l.drop lo)
    (h : Matched l lo (lo + m.length)) : Nested lo m := by
  -- The first instruction is a run, or it begins a loop; what is left is shorter.
  induction hlength : m.length using Nat.strongRecOn generalizing lo m with
  | ind n ih =>
    subst hlength
    cases m with
    | nil => exact .nil lo
    | cons i rest =>
      obtain ⟨hlo, hrest⟩ := cons_prefix_drop_iff.mp hm
      rw [List.length_cons] at h ih
      cases hi : i.operator.isJump with
      | false =>
        have hmatched := h.tail_of_run hlo hi
        rw [← Nat.add_assoc, Nat.add_right_comm] at hmatched
        have hpositive := h.runs lo i (Nat.le_refl lo) (by omega) hlo hi
        exact .run hi hpositive (ih _ (Nat.lt_succ_self _) hrest hmatched rfl)
      | true =>
        obtain ⟨op, n⟩ := i
        cases op with
        | jumpIfNonzero =>
          -- Its loop would have begun before the first instruction.
          obtain ⟨a, ha, hab⟩ := h.closes lo n (Nat.le_refl lo) (by omega) hlo
          exact absurd hab.lt (Nat.not_lt.mpr ha)
        | jumpIfZero =>
          obtain ⟨e, he, hloop⟩ := h.opens lo n (Nat.le_refl lo) (by omega) hlo
          have hbody := h.body_of_loop hloop he
          have hbehind := h.rest_of_loop hloop he
          obtain ⟨body, behind, rfl, rfl, rfl⟩ := hloop.exists_body hm he
          have hbodyPrefix := (List.prefix_append _ _).trans hrest
          have hbehindPrefix := (cons_prefix_drop_iff.mp (prefix_drop_of_append hrest)).2
          rw [List.length_append, List.length_cons] at hbehind ih
          have hstart : lo + 1 + body.length + 1 = lo + body.length + 2 := by omega
          have hend : lo + (body.length + (behind.length + 1) + 1) =
              lo + body.length + 2 + behind.length := by omega
          rw [hstart] at hbehind hbehindPrefix
          rw [hend] at hbehind
          exact .loop (ih _ (by omega) hbodyPrefix hbody rfl)
            (ih _ (by omega) hbehindPrefix hbehind rfl)
        | _ => cases hi

/-- **A program is well formed** exactly if its jumps are matched, and its runs have at least one
repetition. -/
theorem Program.wellFormed_iff (p : Program) : p.WellFormed ↔ Matched p.toList 0 p.size := by
  have hall : p.toList <+: p.toList.drop 0 := List.prefix_rfl
  have hsize : p.size = 0 + p.toList.length := by
    rw [Nat.zero_add, Array.length_toList]
  rw [hsize]
  exact ⟨fun h => h.matched hall, fun h => h.nested hall⟩

end FoldTape
