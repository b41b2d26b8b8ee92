import FoldTape.Proofs.Folding.Concatenation

/-!
# Runs that become one

A comment in the middle of a run makes two instructions of it. Without the comment they are one, so
everything behind it stands one address earlier, and every jump that leads there leads one address
less far. No jump leads between the two instructions, since jumps lead just past jumps.

## Architecture

- **§1 Addresses**: where an instruction stands once two neighbours are one.
- **§2 Programs**: `Joined`, two runs of one program are one run of the other, which is well formed
  as well.
- **§3 Texts**: what a comment less makes of a program (`compile_without_comment`).
-/

namespace FoldTape

/-! ## §1 Addresses -/

/-- The address of an instruction once the ones at `a` and `a + 1` are one. -/
def joinedAddress (a x : Nat) : Nat := if x ≤ a then x else x - 1

variable {a x y : Nat}

@[simp] theorem joinedAddress_zero : joinedAddress a 0 = 0 := if_pos (Nat.zero_le a)

@[simp] theorem joinedAddress_self : joinedAddress a a = a := if_pos (Nat.le_refl a)

theorem joinedAddress_succ (hx : x ≠ a) : joinedAddress a (x + 1) = joinedAddress a x + 1 := by
  unfold joinedAddress
  split <;> split <;> omega

/-- Addresses stay in order, but the second of the two instructions does not stand behind the
first one any more. -/
theorem joinedAddress_lt_iff (hy : y ≠ a + 1) :
    joinedAddress a x < joinedAddress a y ↔ x < y := by
  unfold joinedAddress
  split <;> split <;> omega

/-- Every address is that of an instruction that has been there before. -/
theorem exists_joinedAddress (a y : Nat) : ∃ x, x ≠ a + 1 ∧ joinedAddress a x = y := by
  by_cases hy : y ≤ a
  · exact ⟨y, by omega, if_pos hy⟩
  · refine ⟨y + 1, by omega, ?_⟩
    rw [joinedAddress, if_neg (by omega)]
    rfl

/-! ## §2 Programs -/

variable {op : Operator} {j k : Int} {p q : Program} {i : Instruction}

/-- The runs at `a` and `a + 1` of the first program are one run of the second, and the others stand
where they then stand, with jump targets to match. -/
structure Joined (a : Nat) (op : Operator) (j k : Int) (p q : Program) : Prop where
  run : op.isJump = false
  positive : 1 ≤ j ∧ 1 ≤ k
  first : p[a]? = some ⟨op, j⟩
  second : p[a + 1]? = some ⟨op, k⟩
  both : q[a]? = some ⟨op, j + k⟩
  other : ∀ x, x ≠ a → x ≠ a + 1 →
    q[joinedAddress a x]? = p[x]?.map (Instruction.retarget (joinedAddress a))

namespace Joined

/-- A jump is neither of the two runs. -/
theorem ne_of_jump (h : Joined a op j k p q) (hi : p[x]? = some i)
    (hjump : i.operator.isJump = true) : x ≠ a ∧ x ≠ a + 1 := by
  constructor
  · rintro rfl
    rw [h.first, Option.some.injEq] at hi
    rw [← hi, h.run] at hjump
    cases hjump
  · rintro rfl
    rw [h.second, Option.some.injEq] at hi
    rw [← hi, h.run] at hjump
    cases hjump

/-- The ends of a loop are neither of the two runs. -/
theorem ne_of_loopEnds (h : Joined a op j k p q) (hxy : LoopEnds p.toList x y) :
    (x ≠ a ∧ x ≠ a + 1) ∧ y ≠ a ∧ y ≠ a + 1 := by
  have henters := hxy.enters
  have hrepeats := hxy.repeats
  rw [Array.getElem?_toList] at henters hrepeats
  exact ⟨h.ne_of_jump henters rfl, h.ne_of_jump hrepeats rfl⟩

/-- No jump leads to the second of the two runs. -/
theorem target_ne (h : Joined a op j k p q) (hp : p.WellFormed) (hi : p[x]? = some i)
    (hjump : i.operator.isJump = true) : i.operand.toNat ≠ a + 1 := by
  have hmatched := p.wellFormed_iff.mp hp
  obtain ⟨op', n⟩ := i
  cases op' with
  | jumpIfZero =>
    obtain ⟨y, hxy⟩ := hmatched.exists_end hi
    have hne := (h.ne_of_loopEnds hxy).2.1
    have htarget := hxy.target_of_enters (by rw [Array.getElem?_toList]; exact hi)
    show n.toNat ≠ a + 1
    omega
  | jumpIfNonzero =>
    obtain ⟨y, hyx⟩ := hmatched.exists_beginning hi
    have hne := (h.ne_of_loopEnds hyx).1.1
    have htarget := hyx.target_of_repeats (by rw [Array.getElem?_toList]; exact hi)
    show n.toNat ≠ a + 1
    omega
  | _ => cases hjump

/-- **A loop is still a loop.** -/
theorem loopEnds (h : Joined a op j k p q) (hxy : LoopEnds p.toList x y) :
    LoopEnds q.toList (joinedAddress a x) (joinedAddress a y) := by
  obtain ⟨⟨hxa, hxa'⟩, hya, hya'⟩ := h.ne_of_loopEnds hxy
  have henters := h.other x hxa hxa'
  have hrepeats := h.other y hya hya'
  rw [← p.getElem?_toList, ← q.getElem?_toList] at henters hrepeats
  rw [hxy.enters] at henters
  rw [hxy.repeats] at hrepeats
  have hopen : joinedAddress a ((y : Int) + 1).toNat = joinedAddress a y + 1 :=
    joinedAddress_succ hya
  have hclose : joinedAddress a ((x : Int) + 1).toNat = joinedAddress a x + 1 :=
    joinedAddress_succ hxa
  refine ⟨(joinedAddress_lt_iff hya').mpr hxy.lt, ?_, ?_⟩
  · rw [henters]
    simp only [Option.map_some, Instruction.mapTarget, Operator.isJump, if_true, hopen,
      Nat.cast_add, Nat.cast_one]
  · rw [hrepeats]
    simp only [Option.map_some, Instruction.mapTarget, Operator.isJump, if_true, hclose,
      Nat.cast_add, Nat.cast_one]

/-- Where an instruction of the second program comes from, if it is not the run that has been
joined. -/
theorem exists_other (h : Joined a op j k p q) (hi : q[y]? = some i) (hy : y ≠ a) :
    ∃ x i', joinedAddress a x = y ∧ p[x]? = some i' ∧
      i = i'.retarget (joinedAddress a) := by
  obtain ⟨x, hx, rfl⟩ := exists_joinedAddress a y
  have hxa : x ≠ a := by
    rintro rfl
    exact hy joinedAddress_self
  rw [h.other x hxa hx, Option.map_eq_some_iff] at hi
  obtain ⟨i', hi', rfl⟩ := hi
  exact ⟨x, i', rfl, hi', rfl⟩

/-- Where a jump of the second program comes from. -/
theorem exists_jump (h : Joined a op j k p q) (hi : q[y]? = some i)
    (hjump : i.operator.isJump = true) :
    ∃ x n, joinedAddress a x = y ∧ p.toList[x]? = some ⟨i.operator, n⟩ := by
  have hy : y ≠ a := by
    rintro rfl
    rw [h.both, Option.some.injEq] at hi
    rw [← hi, h.run] at hjump
    cases hjump
  obtain ⟨x, ⟨op', n⟩, hxy, hx, rfl⟩ := h.exists_other hi hy
  rw [Instruction.operator_mapTarget]
  exact ⟨x, n, hxy, (Array.getElem?_toList ..).trans hx⟩

/-- **Every loop of the second program is one of the first.** -/
theorem exists_loopEnds (h : Joined a op j k p q) (hp : p.WellFormed) {x' y' : Nat}
    (hxy' : LoopEnds q.toList x' y') :
    ∃ x y, LoopEnds p.toList x y ∧ x' = joinedAddress a x ∧ y' = joinedAddress a y := by
  have henters := hxy'.enters
  rw [Array.getElem?_toList] at henters
  obtain ⟨x, n, rfl, hx⟩ := h.exists_jump henters rfl
  have hlt : x < p.size := lt_length_of_getElem? hx
  obtain ⟨y, -, hxy⟩ := (p.wellFormed_iff.mp hp).opens x n (Nat.zero_le x) hlt hx
  -- The first jump of a loop tells where the second one is.
  exact ⟨x, y, hxy, rfl, hxy'.right_unique (h.loopEnds hxy)⟩

/-- **The second program is well formed** if the first one is. -/
theorem wellFormed (h : Joined a op j k p q) (hp : p.WellFormed) : q.WellFormed := by
  have hmatched := p.wellFormed_iff.mp hp
  rw [Program.wellFormed_iff]
  constructor
  case runs =>
    intro y i _ _ hi hrun
    rw [Array.getElem?_toList] at hi
    by_cases hy : y = a
    · subst hy
      rw [h.both, Option.some.injEq] at hi
      have hpositive := h.positive
      rw [← hi]
      show 1 ≤ j + k
      omega
    · obtain ⟨x, i', -, hx, rfl⟩ := h.exists_other hi hy
      rw [Instruction.operator_mapTarget] at hrun
      rw [Instruction.retarget, Instruction.mapTarget_run hrun]
      exact hmatched.runs x i' (Nat.zero_le x) (lt_size_of_getElem? hx)
        ((Array.getElem?_toList ..).trans hx) hrun
  case opens =>
    intro y n _ _ hy
    rw [Array.getElem?_toList] at hy
    obtain ⟨x, n', rfl, hx⟩ := h.exists_jump hy rfl
    have hlt : x < p.size := lt_length_of_getElem? hx
    obtain ⟨b, -, hxb⟩ := hmatched.opens x n' (Nat.zero_le x) hlt hx
    exact ⟨_, (h.loopEnds hxb).lt_length, h.loopEnds hxb⟩
  case closes =>
    intro y n _ _ hy
    rw [Array.getElem?_toList] at hy
    obtain ⟨x, n', rfl, hx⟩ := h.exists_jump hy rfl
    have hlt : x < p.size := lt_length_of_getElem? hx
    obtain ⟨b, -, hbx⟩ := hmatched.closes x n' (Nat.zero_le x) hlt hx
    exact ⟨_, Nat.zero_le _, h.loopEnds hbx⟩
  case apart =>
    intro x' y' u' v' _ _ hxy' huv' hx'u' hu'y'
    obtain ⟨x, y, hxy, rfl, rfl⟩ := h.exists_loopEnds hp hxy'
    obtain ⟨u, v, huv, rfl, rfl⟩ := h.exists_loopEnds hp huv'
    obtain ⟨-, -, hya⟩ := h.ne_of_loopEnds hxy
    obtain ⟨⟨-, hua⟩, -⟩ := h.ne_of_loopEnds huv
    rw [joinedAddress_lt_iff hua] at hx'u'
    rw [joinedAddress_lt_iff hya] at hu'y'
    rw [joinedAddress_lt_iff hya]
    exact hmatched.apart x y u v (Nat.zero_le x) hxy.lt_length hxy huv hx'u' hu'y'

/-- The program in which two neighbouring runs have become one. -/
theorem of_toList {before after : List Instruction} (hop : op.isJump = false) (hj : 1 ≤ j)
    (hk : 1 ≤ k) (hp : p.toList = before ++ ⟨op, j⟩ :: ⟨op, k⟩ :: after) :
    Joined before.length op j k p
      ((before ++ ⟨op, j + k⟩ :: after).map
        (Instruction.retarget (joinedAddress before.length))).toArray where
  run := hop
  positive := ⟨hj, hk⟩
  first := by
    rw [← Array.getElem?_toList, hp]
    simp
  second := by
    rw [← Array.getElem?_toList, hp]
    simp
  both := by
    rw [List.getElem?_toArray, List.getElem?_map]
    simp [Instruction.mapTarget_run (i := ⟨op, j + k⟩) hop]
  other := by
    intro x hx hx'
    rw [List.getElem?_toArray, List.getElem?_map, ← Array.getElem?_toList, hp]
    congr 1
    unfold joinedAddress
    split
    · rw [List.getElem?_append_left (by omega), List.getElem?_append_left (by omega)]
    · -- Behind the two runs
      obtain ⟨n, rfl⟩ : ∃ n, x = before.length + (n + 2) := ⟨x - before.length - 2, by omega⟩
      rw [List.getElem?_append_right (by omega), List.getElem?_append_right (by omega),
        (by omega : before.length + (n + 2) - 1 - before.length = n + 1),
        (by omega : before.length + (n + 2) - before.length = n + 2)]
      rfl

end Joined

/-! ## §3 Texts -/

variable {s t : List Char} {c : Char}

/-- **A comment less**: the program is the same, or two of its runs have become one. -/
theorem compile_without_comment (h : compile (s ++ c :: t) = .ok p)
    (hc : Operator.ofSymbol? c = none) :
    compile (s ++ t) = .ok p ∨
      ∃ a op j k q, compile (s ++ t) = .ok q ∧ Joined a op j k p q := by
  have hblocks : blocks (s ++ c :: t) = blocks s ++ blocks t := by
    rw [← List.singleton_append, ← List.append_assoc, blocks_append_apart, blocks_concat_comment hc]
    exact fun op => not_goesOn_concat fun op _ => comment_ne_symbol hc op
  by_cases hgoes : ∃ op, GoesOn op s t
  · -- The parts of the run on both sides of the comment are two instructions.
    obtain ⟨op, hgoes⟩ := hgoes
    obtain ⟨bs, cs, j, k, hs, ht, htogether⟩ := blocks_append_joined hgoes
    have hrenders := renders_of_compile h
    rw [hblocks, hs, ht, List.append_assoc, List.map_eq_append_iff] at hrenders
    obtain ⟨before, rest, hp, hbefore, hrest⟩ := hrenders
    rw [List.singleton_append, List.map_eq_cons_iff] at hrest
    obtain ⟨i, rest, rfl, hi, hrest⟩ := hrest
    rw [List.map_eq_cons_iff] at hrest
    obtain ⟨i', after, rfl, hi', hafter⟩ := hrest
    obtain rfl := eq_of_render_run hgoes.run hi
    obtain rfl := eq_of_render_run hgoes.run hi'
    have hjoined := Joined.of_toList hgoes.run (by omega) (by omega) hp
    refine .inr ⟨_, op, _, _, _, compile_of_renders ?_ ?_, hjoined⟩
    · exact hjoined.wellFormed (wellFormed_of_compile h)
    · have hsum : ((j + 1 : Nat) : Int) + (k + 1 : Nat) = (j + 1 + (k + 1) : Nat) := by omega
      have hretarget : (Instruction.render ∘ Instruction.retarget (joinedAddress before.length)) =
          Instruction.render := funext fun i => Instruction.render_mapTarget
      rw [List.map_map, hretarget, List.map_append, List.map_cons, hbefore, hafter, hsum,
        render_run hgoes.run, htogether]
  · have hapart : ∀ op, ¬ GoesOn op s t := fun op hop => hgoes ⟨op, hop⟩
    exact .inl (compile_of_blocks_eq (hblocks.trans (blocks_append_apart hapart).symm) h)

end FoldTape
