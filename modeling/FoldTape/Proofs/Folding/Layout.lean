import FoldTape.Proofs.Folding.Invariant
import FoldTape.Proofs.Packing

/-!
# What a source is compiled to

One instruction for every block of the source, in the order of the source: a run becomes its
operator with the length of the run, and the two brackets of a loop become jumps, each to just
past the other.
-/

namespace FoldTape

/-! ## §1 Instructions and blocks -/

/-- A block has at least one character. -/
theorem ne_nil_of_mem_blocks {s block : List Char} (h : block ∈ blocks s) : block ≠ [] := by
  rintro rfl
  have hhead := (List.mem_filter.mp h).2
  simp at hhead

namespace Builder.Describes

variable {s : List Char} {b : Builder}

/-- The block at an address is what the instruction there is written as. -/
theorem getElem?_blocks (h : b.Describes s) (a : Nat) :
    (blocks s)[a]? = b.code[a]?.map Instruction.render := by
  rw [← h.renders, List.getElem?_map, Array.getElem?_toList]

/-- **A run** becomes its operator with the length of the run. -/
theorem getElem?_of_run (h : b.Describes s) {op : Operator} (hop : op.isJump = false) {a k : Nat}
    (hblock : (blocks s)[a]? = some (List.replicate k op.symbol)) :
    b.code[a]? = some ⟨op, k⟩ := by
  have hmem : List.replicate k op.symbol ∈ blocks s := List.mem_of_getElem? hblock
  obtain ⟨k, rfl⟩ : ∃ m, k = m + 1 := by
    cases k with
    | zero => exact absurd rfl (ne_nil_of_mem_blocks hmem)
    | succ m => exact ⟨m, rfl⟩
  rw [h.getElem?_blocks, Option.map_eq_some_iff] at hblock
  obtain ⟨i, hi, hrender⟩ := hblock
  rw [hi, eq_of_render_run hop hrender]

/-- **A loop**: partners are known to the builder. -/
theorem loopAt (h : b.Describes s) {i j : Nat} (hi : s[i]? = some '[')
    (hj : closingPartner? s i = some j) : LoopAt s b.code i j := by
  obtain ⟨i', hloop⟩ := h.closed j (getElem?_of_closingPartner? hj)
  -- The loop that ends at `j` begins at `i`, since partners are unique.
  obtain rfl := closingPartner?_inj hi hloop.opening hj hloop.partner
  exact hloop

/-- When no loop is open, every opening bracket has its partner. -/
theorem exists_closingPartner? (h : b.Describes s) (hopened : b.opened = []) {i : Nat}
    (hi : s[i]? = some '[') : ∃ j, closingPartner? s i = some j := by
  cases hpartner : closingPartner? s i with
  | some j => exact ⟨j, rfl⟩
  | none =>
    obtain ⟨l, hl, -⟩ := h.complete i hi hpartner
    rw [hopened] at hl
    cases hl

/-- When no loop is open, every jump belongs to a loop. -/
theorem exists_loopAt_of_jump (h : b.Describes s) (hopened : b.opened = []) {a : Nat}
    {op : Operator} (hop : op.isJump = true) (hblock : (blocks s)[a]? = some [op.symbol]) :
    ∃ i j, LoopAt s b.code i j ∧ (a = blockAddress s i ∨ a = blockAddress s j) := by
  obtain ⟨q, hq, rfl⟩ := exists_position_of_singleton hblock
  rcases isJump_iff.mp hop with hsymbol | hsymbol
  · rw [hsymbol] at hq
    obtain ⟨j, hj⟩ := h.exists_closingPartner? hopened hq
    exact ⟨q, j, h.loopAt hq hj, .inl rfl⟩
  · rw [hsymbol] at hq
    obtain ⟨i, hloop⟩ := h.closed q hq
    exact ⟨i, q, hloop, .inr rfl⟩

/-- No operand is negative or greater than the length of the source. -/
theorem operand_bounds (h : b.Describes s) (hopened : b.opened = []) {a : Nat} {i : Instruction}
    (hi : b.code[a]? = some i) : 0 ≤ i.operand ∧ i.operand ≤ s.length := by
  have hblock := h.getElem?_blocks a
  rw [hi, Option.map_some] at hblock
  have hmem := List.mem_of_getElem? hblock
  obtain ⟨op, n⟩ := i
  show 0 ≤ n ∧ n ≤ (s.length : Int)
  cases hop : op.isJump with
  | false =>
    -- A run: its operand is the length of a block.
    have hrender : Instruction.render ⟨op, n⟩ = List.replicate n.toNat op.symbol := by
      simp [Instruction.render, hop]
    rw [hrender] at hmem
    have hlength := length_le_of_mem_blocks hmem
    have hpositive := List.length_pos_iff.mpr (ne_nil_of_mem_blocks hmem)
    rw [List.length_replicate] at hlength hpositive
    omega
  | true =>
    rw [render_jump hop] at hblock
    obtain ⟨j, k, hloop, haddress⟩ := h.exists_loopAt_of_jump hopened hop hblock
    -- The targets are just past instructions of the program.
    have henters := lt_size_of_getElem? hloop.enters
    have hrepeats := lt_size_of_getElem? hloop.repeats
    have hsize := h.size_eq
    have hle := length_blocks_le s
    rcases haddress with rfl | rfl
    · rw [hloop.enters, Option.some.injEq, Instruction.mk.injEq] at hi
      obtain ⟨-, rfl⟩ := hi
      exact ⟨by omega, by omega⟩
    · rw [hloop.repeats, Option.some.injEq, Instruction.mk.injEq] at hi
      obtain ⟨-, rfl⟩ := hi
      exact ⟨by omega, by omega⟩

end Builder.Describes

/-- The program that a source of less than 2⁶³ characters is compiled to can be packed. -/
theorem admissible_of_compile {source : List Char} {p : Program} (h : compile source = .ok p)
    (hlength : source.length < int64Bound) : p.Admissible := by
  obtain ⟨loops, hp⟩ := describes_of_compile h
  intro i hi
  obtain ⟨a, ha⟩ := Array.mem_iff_getElem?.mp hi
  obtain ⟨hnonneg, hle⟩ := hp.operand_bounds rfl ha
  exact ⟨hnonneg, by omega⟩

/-- A loop ends behind its beginning. -/
theorem LoopAt.lt {s : List Char} {code : Program} {i j : Nat} (h : LoopAt s code i j) : i < j := by
  obtain ⟨u, v, -, rfl, -⟩ := closingPartner?_eq_some h.partner
  omega

/-- The blocks of the two brackets of a loop are where their jumps are. -/
theorem LoopAt.getElem?_blocks {s : List Char} {b : Builder} {i j : Nat}
    (hloop : LoopAt s b.code i j) (h : b.Describes s) :
    (blocks s)[blockAddress s i]? = some ['['] ∧ (blocks s)[blockAddress s j]? = some [']'] := by
  rw [h.getElem?_blocks, h.getElem?_blocks, hloop.enters, hloop.repeats]
  exact ⟨rfl, rfl⟩

/-! ## §2 The program -/

/-- **The layout of a program.** The instructions are, in order, what the blocks of the source fold
into; a run of length `k` has the operand `k`; the jumps of partners, which stand where the blocks
of the brackets do, lead to just past each other; and every bracket has a partner. -/
theorem layout_of_compile {source : List Char} {p : Program} (h : compile source = .ok p) :
    p.toList.map Instruction.render = blocks source ∧
    (∀ (a k : Nat) (op : Operator), op.isJump = false →
      (blocks source)[a]? = some (List.replicate k op.symbol) → p[a]? = some ⟨op, k⟩) ∧
    (∀ i j : Nat, source[i]? = some '[' → closingPartner? source i = some j →
      ∃ a b : Nat, a = blockAddress source i ∧ b = blockAddress source j ∧
        (blocks source)[a]? = some ['['] ∧ (blocks source)[b]? = some [']'] ∧
        p[a]? = some ⟨.jumpIfZero, b + 1⟩ ∧ p[b]? = some ⟨.jumpIfNonzero, a + 1⟩) ∧
    (∀ (a : Nat) (op : Operator), op.isJump = true →
      (blocks source)[a]? = some [op.symbol] →
      ∃ i j, source[i]? = some '[' ∧ closingPartner? source i = some j ∧
        (a = blockAddress source i ∨ a = blockAddress source j)) := by
  obtain ⟨loops, hp⟩ := describes_of_compile h
  refine ⟨hp.renders, ?_, ?_, ?_⟩
  · intro a k op hop hblock
    exact hp.getElem?_of_run hop hblock
  · intro i j hi hj
    have hloop := hp.loopAt hi hj
    obtain ⟨hopen, hclose⟩ := hloop.getElem?_blocks hp
    exact ⟨_, _, rfl, rfl, hopen, hclose, hloop.enters, hloop.repeats⟩
  · intro a op hop hblock
    obtain ⟨i, j, hloop, haddress⟩ := hp.exists_loopAt_of_jump rfl hop hblock
    exact ⟨i, j, hloop.opening, hloop.partner, haddress⟩

/-- The layout of a program with a comment inside a loop. -/
theorem layout_of_compile_comment :
    compile ['+', '+', '[', '>', 'x', '>', ']'] =
      .ok #[⟨.increment, 2⟩, ⟨.jumpIfZero, 5⟩, ⟨.moveRight, 1⟩, ⟨.moveRight, 1⟩,
        ⟨.jumpIfNonzero, 2⟩] ∧
    blocks ['+', '+', '[', '>', 'x', '>', ']'] = [['+', '+'], ['['], ['>'], ['>'], [']']] := by
  have h : compile ['+', '+', '[', '>', 'x', '>', ']'] =
      .ok #[⟨.increment, 2⟩, ⟨.jumpIfZero, 5⟩, ⟨.moveRight, 1⟩, ⟨.moveRight, 1⟩,
        ⟨.jumpIfNonzero, 2⟩] := by rfl
  exact ⟨h, (layout_of_compile h).1.symm⟩

end FoldTape
