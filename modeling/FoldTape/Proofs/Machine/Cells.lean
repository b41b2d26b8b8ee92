import FoldTape.Machine.Kernel
import FoldTape.Machine.Step

/-!
# Cells in 64-bit arithmetic

The kernel adds an operand to a cell, or subtracts it, in 64-bit arithmetic that wraps around, and
keeps the low eight bits. The result is the sum or difference modulo 256, because 256 divides the
modulus at which the wide numbers wrap around.

Main statements:

- `lowByte_wideCell_add`: adding with the kernel is `addToCell`;
- `lowByte_wideCell_sub`: subtracting with the kernel is `subtractFromCell`;
- `addToCell_succ`, `subtractFromCell_succ`: an amount can be added or subtracted one by one;
- `addToCell_add`, `subtractFromCell_add`: or in any two parts.
-/

namespace FoldTape

/-! ## §1 Low bytes -/

/-- The mask leaves the remainder modulo 256, also of a negative number. -/
theorem toInt_and_255 (n : Int64) : (n &&& 255).toInt = n.toInt % 256 := by
  -- The mask is a remainder of the unsigned value, and that differs by a multiple of 256.
  have hlow : (n &&& 255).toBitVec.toNat = n.toBitVec.toNat % 256 := by
    rw [Int64.toBitVec_and, BitVec.toNat_and]
    exact Nat.and_two_pow_sub_one_eq_mod _ 8
  have hmasked : (n &&& 255).toInt = (n.toBitVec.toNat % 256 : Nat) := by
    rw [← Int64.toInt_toBitVec, BitVec.toInt_eq_toNat_of_lt (by omega), hlow]
  have hn : n.toInt = Int.bmod n.toBitVec.toNat (2 ^ 64) := by
    rw [← Int64.toInt_toBitVec, BitVec.toInt_eq_toNat_bmod]
  rw [hmasked, hn]
  simp only [Int.bmod]
  omega

/-- What the mask leaves is a byte, and taking it for one changes nothing. -/
theorem toNat_lowByte_eq_toInt_and (n : Int64) : ((lowByte n).toNat : Int) = (n &&& 255).toInt := by
  have hmask := toInt_and_255 n
  rw [lowByte, UInt8.toNat_ofNat', ← Int64.toNat_toInt]
  omega

/-- The low byte of a 64-bit number is the number modulo 256, also for negative numbers. -/
theorem toNat_lowByte (n : Int64) : ((lowByte n).toNat : Int) = n.toInt % 256 :=
  (toNat_lowByte_eq_toInt_and n).trans (toInt_and_255 n)

@[simp] theorem toInt_wideCell (cell : UInt8) : (wideCell cell).toInt = cell.toNat := by
  have := cell.toNat_lt
  rw [wideCell, Int64.toInt_ofNat_of_lt (by omega)]

/-! ## §2 Adding and subtracting -/

/-- **Adding is exact**: for a non-negative operand the kernel adds modulo 256, even where the
64-bit sum wraps around. -/
theorem lowByte_wideCell_add (cell : UInt8) (n : Int64) (hn : 0 ≤ n.toInt) :
    lowByte (wideCell cell + n) = addToCell cell n.toNatClampNeg := by
  apply UInt8.toNat_inj.mp
  apply Int.natCast_inj.mp
  rw [toNat_lowByte, addToCell, UInt8.toNat_ofNat', Int64.toInt_add, toInt_wideCell,
    ← Int64.toNat_toInt]
  simp only [Int.bmod]
  omega

/-- **Subtracting is exact**: for a non-negative operand the kernel subtracts modulo 256. -/
theorem lowByte_wideCell_sub (cell : UInt8) (n : Int64) (hn : 0 ≤ n.toInt) :
    lowByte (wideCell cell - n) = subtractFromCell cell n.toNatClampNeg := by
  apply UInt8.toNat_inj.mp
  apply Int.natCast_inj.mp
  rw [toNat_lowByte, subtractFromCell, UInt8.toNat_ofNat', Int64.toInt_sub, toInt_wideCell,
    ← Int64.toNat_toInt]
  simp only [Int.bmod]
  omega

/-! ## §3 In parts -/

@[simp] theorem addToCell_zero (cell : UInt8) : addToCell cell 0 = cell := by
  apply UInt8.toNat_inj.mp
  have := cell.toNat_lt
  rw [addToCell, UInt8.toNat_ofNat']
  omega

@[simp] theorem subtractFromCell_zero (cell : UInt8) : subtractFromCell cell 0 = cell := by
  apply UInt8.toNat_inj.mp
  have := cell.toNat_lt
  rw [subtractFromCell, UInt8.toNat_ofNat']
  omega

/-- Adding `n + 1` is adding one and then `n`. -/
theorem addToCell_succ (cell : UInt8) (n : Nat) :
    addToCell cell (n + 1) = addToCell (cell + 1) n := by
  apply UInt8.toNat_inj.mp
  rw [addToCell, addToCell, UInt8.toNat_ofNat', UInt8.toNat_ofNat', UInt8.toNat_add,
    UInt8.toNat_one]
  omega

/-- Subtracting `n + 1` is subtracting one and then `n`. -/
theorem subtractFromCell_succ (cell : UInt8) (n : Nat) :
    subtractFromCell cell (n + 1) = subtractFromCell (cell - 1) n := by
  apply UInt8.toNat_inj.mp
  have := cell.toNat_lt
  rw [subtractFromCell, subtractFromCell, UInt8.toNat_ofNat', UInt8.toNat_ofNat',
    UInt8.toNat_sub, UInt8.toNat_one]
  omega

/-- An amount can be added in two parts. -/
theorem addToCell_add (cell : UInt8) (m n : Nat) :
    addToCell (addToCell cell m) n = addToCell cell (m + n) := by
  apply UInt8.toNat_inj.mp
  simp only [addToCell, UInt8.toNat_ofNat']
  omega

/-- An amount can be subtracted in two parts. -/
theorem subtractFromCell_add (cell : UInt8) (m n : Nat) :
    subtractFromCell (subtractFromCell cell m) n = subtractFromCell cell (m + n) := by
  apply UInt8.toNat_inj.mp
  simp only [subtractFromCell, UInt8.toNat_ofNat']
  omega

/-! ## §4 Tapes -/

namespace Tape

variable (tape : Tape) (address : Nat)

@[simp] theorem store_cell : tape.store address (tape.cell address) = tape := by
  rw [store, cell, Array.getD_eq_getD_getElem?]
  by_cases h : address < tape.size
  · rw [Array.setIfInBounds, dif_pos h, Array.getElem?_eq_getElem h, Option.getD_some,
      Array.set_getElem_self]
  · rw [Array.setIfInBounds_eq_of_size_le (by omega)]

@[simp] theorem store_store (x y : UInt8) :
    (tape.store address x).store address y = tape.store address y := by
  simp [store]

/-- A cell that is changed twice might have been changed at once, wherever it is. -/
theorem store_change (f : UInt8 → UInt8) (x : UInt8) :
    (tape.store address x).store address (f ((tape.store address x).cell address)) =
      tape.store address (f x) := by
  by_cases h : address < tape.size
  · have hcell : (tape.store address x).cell address = x := by
      simp [store, cell, Array.getD_eq_getD_getElem?, h]
    rw [hcell, store_store]
  · have hout : ∀ y, tape.store address y = tape := by
      intro y
      exact Array.setIfInBounds_eq_of_size_le (by omega)
    rw [hout, hout, hout]

end Tape

end FoldTape
