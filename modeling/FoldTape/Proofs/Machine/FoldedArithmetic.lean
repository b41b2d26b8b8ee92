import FoldTape.Proofs.Machine.Cells

/-!
# Folded arithmetic

The kernel adds a whole run of increments at once, in 64-bit arithmetic that wraps around, and
subtracts a whole run of decrements in the same way. Whatever the operand, and also where the sum
does not fit into 64 bits, the cell comes out as if it had been changed one by one.

## Architecture

- **§1 Remainders**: what is added and subtracted, as integers modulo 256.
- **§2 Instructions in a row**: `Kernel.performAll`, and when all they do is to store a value.
- **§3 Runs**: an operator of which only the sum of the operands matters (`Kernel.Changes`).
- **§4 Both operators**: `Kernel.folded_arithmetic_exact`.
-/

namespace FoldTape

/-! ## §1 Remainders -/

theorem toNat_addToCell (cell : UInt8) (n : Nat) :
    ((addToCell cell n).toNat : Int) = (cell.toNat + n) % 256 := by
  rw [addToCell, UInt8.toNat_ofNat']
  omega

theorem toNat_subtractFromCell (cell : UInt8) (n : Nat) :
    ((subtractFromCell cell n).toNat : Int) = (cell.toNat - n) % 256 := by
  rw [subtractFromCell, UInt8.toNat_ofNat']
  omega

/-- A number that is not negative is not changed by being taken as a natural number. -/
theorem natCast_toNatClampNeg {n : Int64} (hn : 0 ≤ n.toInt) :
    (n.toNatClampNeg : Int) = n.toInt := by
  rw [← Int64.toNat_toInt]
  exact Int.toNat_of_nonneg hn

/-- Subtracting undoes adding. -/
theorem subtractFromCell_addToCell (cell : UInt8) (n : Nat) :
    subtractFromCell (addToCell cell n) n = cell := by
  apply UInt8.toNat_inj.mp
  have hcell := cell.toNat_lt
  have hadded := toNat_addToCell cell n
  have hsubtracted := toNat_subtractFromCell (addToCell cell n) n
  omega

/-! ## §2 Instructions in a row -/

/-- The current cell. -/
abbrev Registers.cell (r : Registers) : UInt8 := r.tape.cell r.pointer

/-- The registers after some instructions that have done nothing but store a value in the current
cell. -/
def Registers.storing (instructions : Nat) (value : UInt8) (r : Registers) : Registers :=
  ⟨r.pc + instructions, r.pointer, r.steps + instructions, r.tape.store r.pointer value⟩

/-- What has been stored is there. -/
theorem Registers.cell_storing {r : Registers} (hr : r.pointer < r.tape.size) (instructions : Nat)
    (value : UInt8) : (r.storing instructions value).cell = value := by
  simp [storing, cell, Tape.store, Tape.cell, Array.getD_eq_getD_getElem?, hr]

theorem Registers.pointer_storing_lt {r : Registers} (hr : r.pointer < r.tape.size)
    (instructions : Nat) (value : UInt8) :
    (r.storing instructions value).pointer < (r.storing instructions value).tape.size := by
  simpa [storing, Tape.store] using hr

/-- Storing the value that is there changes nothing. -/
theorem Registers.storing_cell (r : Registers) (instructions : Nat) :
    r.storing instructions r.cell =
      { r with pc := r.pc + instructions, steps := r.steps + instructions } := by
  rw [storing, Tape.store_cell]

/-- A value that is stored later takes the place of the one before. -/
theorem Registers.storing_storing (r : Registers) (m n : Nat) (x y : UInt8) :
    (r.storing m x).storing n y = r.storing (m + n) y := by
  simp only [storing, Tape.store_store, Nat.add_assoc]

namespace Kernel

/-- Performs instructions one after the other, as far as the kernel does not stop. -/
def performAll : List (Operator × Int64) → Registers → EStateM.Result Stop Registers Unit
  | [], r => .ok () r
  | (op, n) :: rest, r =>
    match perform op n r with
    | .ok _ r => performAll rest r
    | .error stop r => .error stop r

/-- Instructions are performed in a row, and all that they do is to store a value in the current
cell. -/
def Stores (instructions : List (Operator × Int64)) (r : Registers) (value : UInt8) : Prop :=
  performAll instructions r = .ok () (r.storing instructions.length value)

variable {op : Operator} {n : Int64} {r : Registers} {rest : List (Operator × Int64)} {x y : UInt8}

/-- Without instructions the cell stays as it is. -/
theorem Stores.nil (r : Registers) : Stores [] r r.cell := by
  rw [Stores, performAll, Registers.storing_cell]
  rfl

/-- The first of the instructions may store anything. -/
theorem Stores.cons (hfirst : perform op n r = .ok () (r.storing 1 x))
    (hrest : Stores rest (r.storing 1 x) y) : Stores ((op, n) :: rest) r y := by
  rw [Stores] at hrest ⊢
  rw [performAll, hfirst]
  show performAll rest (r.storing 1 x) = _
  rw [hrest, Registers.storing_storing, List.length_cons, Nat.add_comm]

/-! ## §3 Runs -/

/-- The operator changes the current cell, and of two changes only the sum matters. -/
structure Changes (op : Operator) (change : UInt8 → Nat → UInt8) : Prop where
  performs : ∀ (n : Int64) (r : Registers), 0 ≤ n.toInt →
    perform op n r = .ok () (r.storing 1 (change r.cell n.toNatClampNeg))
  zero : ∀ cell, change cell 0 = cell
  add : ∀ cell m n, change (change cell m) n = change cell (m + n)

theorem changes_increment : Changes .increment addToCell where
  performs n r hn := by rw [← lowByte_wideCell_add _ _ hn]; rfl
  zero := addToCell_zero
  add := addToCell_add

theorem changes_decrement : Changes .decrement subtractFromCell where
  performs n r hn := by rw [← lowByte_wideCell_sub _ _ hn]; rfl
  zero := subtractFromCell_zero
  add := subtractFromCell_add

/-- What operands amount to together. -/
def amount : List Int64 → Nat
  | [] => 0
  | n :: operands => n.toNatClampNeg + amount operands

@[simp] theorem amount_nil : amount [] = 0 := rfl

@[simp] theorem amount_cons (n : Int64) (operands : List Int64) :
    amount (n :: operands) = n.toNatClampNeg + amount operands := rfl

@[simp] theorem amount_replicate_one (k : Nat) : amount (List.replicate k 1) = k := by
  induction k with
  | zero => rfl
  | succ k ih =>
    have hone : (1 : Int64).toNatClampNeg = 1 := by decide
    rw [List.replicate_succ, amount_cons, hone, ih, Nat.add_comm]

variable {change : UInt8 → Nat → UInt8}

/-- **Only the sum matters**: instructions of one operator in a row change the cell by the sum of
their operands. -/
theorem Changes.stores (h : Changes op change) (hr : r.pointer < r.tape.size)
    {operands : List Int64} (hoperands : ∀ n ∈ operands, 0 ≤ n.toInt) :
    Stores (operands.map (op, ·)) r (change r.cell (amount operands)) := by
  induction operands generalizing r with
  | nil =>
    rw [List.map_nil, amount_nil, h.zero]
    exact .nil r
  | cons n operands ih =>
    -- What the rest adds comes on top of what the first instruction has stored.
    have hrest := ih (r.pointer_storing_lt hr 1 (change r.cell n.toNatClampNeg)) fun m hm =>
      hoperands m (List.mem_cons_of_mem _ hm)
    rw [Registers.cell_storing hr, h.add] at hrest
    exact .cons (h.performs n r (hoperands n List.mem_cons_self)) hrest

/-- One instruction does what its operand says. -/
theorem Changes.stores_one (h : Changes op change) (hr : r.pointer < r.tape.size)
    (hn : 0 ≤ n.toInt) : Stores [(op, n)] r (change r.cell n.toNatClampNeg) := by
  have hstores := h.stores hr (List.forall_mem_singleton.mpr hn)
  simpa using hstores

/-- **One by one**: so does the operator, if it is repeated as often as the operand says. -/
theorem Changes.stores_replicate (h : Changes op change) (hr : r.pointer < r.tape.size) (k : Nat) :
    Stores (List.replicate k (op, 1)) r (change r.cell k) := by
  have hones : ∀ n ∈ List.replicate k (1 : Int64), 0 ≤ n.toInt := by
    intro n hn
    rw [List.eq_of_mem_replicate hn]
    decide
  have hstores := h.stores hr hones
  simpa using hstores

/-- **Two instructions are one**, if the sum of their operands fits into 64 bits. -/
theorem Changes.stores_sum (h : Changes op change) (hr : r.pointer < r.tape.size) {a b : Int64}
    (ha : 0 ≤ a.toInt) (hb : 0 ≤ b.toInt) (hab : a.toInt + b.toInt < int64Bound) :
    ∃ v, Stores [(op, a), (op, b)] r v ∧ Stores [(op, a + b)] r v := by
  unfold int64Bound at hab
  have hsum : (a + b).toInt = a.toInt + b.toInt := by
    rw [Int64.toInt_add]
    exact Int.bmod_eq_of_le (by omega) (by omega)
  have hamount : (a + b).toNatClampNeg = a.toNatClampNeg + b.toNatClampNeg := by
    have hcast := natCast_toNatClampNeg (n := a + b) (by omega)
    have hcast_a := natCast_toNatClampNeg ha
    have hcast_b := natCast_toNatClampNeg hb
    omega
  have hpair : ∀ n ∈ [a, b], 0 ≤ n.toInt :=
    List.forall_mem_cons.mpr ⟨ha, List.forall_mem_singleton.mpr hb⟩
  have htwo := h.stores hr hpair
  have hone := h.stores_one hr (n := a + b) (by omega)
  rw [hamount] at hone
  exact ⟨_, by simpa using htwo, hone⟩

/-! ## §4 Both operators -/

/-- An increment and a decrement by the same amount leave the tape as it was. -/
theorem performAll_increment_decrement (hr : r.pointer < r.tape.size) (hn : 0 ≤ n.toInt) :
    performAll [(.increment, n), (.decrement, n)] r =
      .ok () { r with pc := r.pc + 2, steps := r.steps + 2 } := by
  have hback := changes_decrement.stores_one
    (r.pointer_storing_lt hr 1 (addToCell r.cell n.toNatClampNeg)) hn
  rw [Registers.cell_storing hr, subtractFromCell_addToCell] at hback
  have hboth : Stores [(.increment, n), (.decrement, n)] r r.cell :=
    .cons (changes_increment.performs n r hn) hback
  rw [Stores, Registers.storing_cell] at hboth
  exact hboth

/-- **Folded arithmetic is exact.** Where the pointer is on the tape, and for every operand that is
a non-negative 64-bit number:

- an increment by `n` stores the sum of the cell and `n` modulo 256, and a decrement by `n` the
  difference, also where the sum does not fit into 64 bits;
- what is stored is what the mask leaves of the 64-bit result, as a byte, so nothing of it is lost;
- `n` increments by one store the same, and so do `n` decrements by one;
- two increments, or decrements, after one another store what one with the sum of the operands does,
  if that sum fits into 64 bits;
- a decrement by `n` undoes an increment by `n`. -/
theorem folded_arithmetic_exact (r : Registers) (hr : r.pointer < r.tape.size) :
    (∀ n : Int64, 0 ≤ n.toInt →
      ∃ v : UInt8, Stores [(.increment, n)] r v ∧
        (v.toNat : Int) = (r.cell.toNat + n.toInt) % 256 ∧
        (v.toNat : Int) = ((wideCell r.cell + n) &&& 255).toInt ∧
        Stores (List.replicate n.toInt.toNat (.increment, 1)) r v) ∧
    (∀ n : Int64, 0 ≤ n.toInt →
      ∃ v : UInt8, Stores [(.decrement, n)] r v ∧
        (v.toNat : Int) = (r.cell.toNat - n.toInt) % 256 ∧
        (v.toNat : Int) = ((wideCell r.cell - n) &&& 255).toInt ∧
        Stores (List.replicate n.toInt.toNat (.decrement, 1)) r v) ∧
    (∀ op, op = .increment ∨ op = .decrement → ∀ a b : Int64, 0 ≤ a.toInt → 0 ≤ b.toInt →
      a.toInt + b.toInt < int64Bound →
      ∃ v : UInt8, Stores [(op, a), (op, b)] r v ∧ Stores [(op, a + b)] r v) ∧
    (∀ n : Int64, 0 ≤ n.toInt →
      performAll [(.increment, n), (.decrement, n)] r =
        .ok () { r with pc := r.pc + 2, steps := r.steps + 2 }) := by
  refine ⟨?_, ?_, ?_, fun n hn => performAll_increment_decrement hr hn⟩
  · intro n hn
    refine ⟨_, changes_increment.stores_one hr hn, ?_, ?_, changes_increment.stores_replicate hr _⟩
    · rw [toNat_addToCell, natCast_toNatClampNeg hn]
    · rw [← lowByte_wideCell_add _ _ hn, toNat_lowByte_eq_toInt_and]
  · intro n hn
    refine ⟨_, changes_decrement.stores_one hr hn, ?_, ?_, changes_decrement.stores_replicate hr _⟩
    · rw [toNat_subtractFromCell, natCast_toNatClampNeg hn]
    · rw [← lowByte_wideCell_sub _ _ hn, toNat_lowByte_eq_toInt_and]
  · rintro op (rfl | rfl) a b ha hb hab
    · exact changes_increment.stores_sum hr ha hb hab
    · exact changes_decrement.stores_sum hr ha hb hab

/-- At the upper end of the range: `2⁶³ - 1` is added to the greatest cell, and the 64-bit sum wraps
around. -/
theorem folded_arithmetic_exact_wrapping :
    0 < #[(255 : UInt8)].size ∧ 0 ≤ (9223372036854775807 : Int64).toInt ∧
    Stores [(.increment, 9223372036854775807)] ⟨0, 0, 0, #[255]⟩ 254 ∧
    Stores [(.decrement, 9223372036854775807)] ⟨0, 0, 0, #[255]⟩ 0 ∧
    (∃ v, Stores [(.decrement, 9223372036854775806), (.decrement, 1)] ⟨0, 0, 0, #[255]⟩ v ∧
      Stores [(.decrement, 9223372036854775807)] ⟨0, 0, 0, #[255]⟩ v) ∧
    performAll [(.increment, 9223372036854775807), (.decrement, 9223372036854775807)]
      ⟨0, 0, 0, #[255]⟩ = .ok () ⟨2, 0, 2, #[255]⟩ := by
  have hr : 0 < #[(255 : UInt8)].size := by decide
  have hn : 0 ≤ (9223372036854775807 : Int64).toInt := by decide
  obtain ⟨hadd, hsubtract, htwo, hundo⟩ := folded_arithmetic_exact ⟨0, 0, 0, #[255]⟩ hr
  obtain ⟨v, hv, hsum, -⟩ := hadd _ hn
  obtain ⟨w, hw, hdifference, -⟩ := hsubtract _ hn
  obtain rfl : v = 254 := UInt8.toNat_inj.mp (Int.natCast_inj.mp hsum)
  obtain rfl : w = 0 := UInt8.toNat_inj.mp (Int.natCast_inj.mp hdifference)
  refine ⟨hr, hn, hv, hw, ?_, hundo _ hn⟩
  exact htwo .decrement (.inr rfl) 9223372036854775806 1 (by decide) (by decide) (by decide)

end Kernel

end FoldTape
