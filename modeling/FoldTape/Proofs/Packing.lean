import FoldTape.Packed

/-!
# Packing, fetching and unpacking

A program whose operands are non-negative 64-bit numbers can be packed, and fetching from the
packed program is looking up the program itself. A packed program can be unpacked again, so packing
loses nothing.
-/

namespace FoldTape

/-! ## §1 Packing and fetching -/

/-- Every operand is a non-negative 64-bit number. -/
def Program.Admissible (p : Program) : Prop :=
  ∀ i ∈ p, 0 ≤ i.operand ∧ i.operand < int64Bound

instance (p : Program) : Decidable p.Admissible :=
  inferInstanceAs (Decidable (∀ i ∈ p, 0 ≤ i.operand ∧ i.operand < int64Bound))

theorem Program.Admissible.exists_pack {p : Program} (hp : p.Admissible) :
    ∃ code, p.pack? = some code := by
  apply Option.isSome_iff_exists.mp
  apply Program.pack?_isSome_iff.mpr
  intro i hi
  obtain ⟨hnonneg, hlt⟩ := hp i hi
  refine ⟨?_, hlt⟩
  unfold int64Bound
  omega

theorem Program.Admissible.of_getElem? {p : Program} (hp : p.Admissible) {a : Nat}
    {i : Instruction} (hi : p[a]? = some i) : 0 ≤ i.operand ∧ i.operand < int64Bound :=
  hp i (Array.mem_of_getElem? hi)

/-- A packed program holds at each address the operator and the operand of the program. -/
theorem Program.fetch?_pack {p : Program} {code : Packed} (h : p.pack? = some code) (a : Nat) :
    code.fetch? a = p[a]?.map fun i => (i.operator, Int64.ofInt i.operand) := by
  simp only [Program.pack?] at h
  split at h
  · cases h
    by_cases ha : a < p.size
    · simp [Packed.fetch?, ha]
    · simp [Packed.fetch?, ha]
  · cases h

/-! ## §2 Unpacking -/

/-- Operands that are not negative only have to be small enough. -/
theorem Program.pack?_isSome_iff_of_nonneg {p : Program} (hp : ∀ i ∈ p, 0 ≤ i.operand) :
    p.pack?.isSome ↔ ∀ i ∈ p, i.operand < int64Bound := by
  rw [pack?_isSome_iff]
  constructor
  · intro h i hi
    exact (h i hi).2
  · intro h i hi
    have hnonneg := hp i hi
    refine ⟨?_, h i hi⟩
    unfold int64Bound
    omega

/-- One operand that is too large is enough for a program not to be packed. -/
theorem Program.pack?_eq_none_of_le {p : Program} {i : Instruction} (hi : i ∈ p)
    (hle : int64Bound ≤ i.operand) : p.pack? = none := by
  rw [← Option.not_isSome_iff_eq_none, pack?_isSome_iff]
  intro h
  exact Int.not_lt.mpr hle (h i hi).2

/-- The operators of a packed program by their codes, as 32-bit numbers. -/
def Packed.codes (code : Packed) : Array Int32 :=
  code.operators.map fun op => Int32.ofNat op.code

/-- The instruction that a code and an operand stand for, if the code is that of an operator. -/
def Instruction.ofPair? (pair : Int32 × Int64) : Option Instruction :=
  (Operator.ofCode? pair.1.toInt).map fun operator => ⟨operator, pair.2.toInt⟩

/-- The program that codes and operands stand for, taken pair by pair. -/
def Program.ofArrays? (codes : Array Int32) (operands : Array Int64) : Option Program :=
  ((codes.toList.zip operands.toList).mapM Instruction.ofPair?).map List.toArray

/-- A code is small, so it is not changed by being put into 32 bits. -/
theorem Operator.ofCode?_toInt (op : Operator) :
    Operator.ofCode? (Int32.ofNat op.code).toInt = some op := by
  cases op <;> rfl

/-- Of a packed program both arrays are made instruction by instruction. -/
theorem Program.pack?_eq_some {p : Program} {code : Packed} (h : p.pack? = some code) :
    code.operators = p.map Instruction.operator ∧
      code.operands = p.map fun i => Int64.ofInt i.operand := by
  simp only [Program.pack?] at h
  split at h
  · cases h
    exact ⟨rfl, rfl⟩
  · cases h

/-- If each member of a list can be read back, then so can the list. -/
theorem mapM_map_eq_some {α β : Type} {read : β → Option α} {write : α → β} {l : List α}
    (h : ∀ a ∈ l, read (write a) = some a) : (l.map write).mapM read = some l := by
  induction l with
  | nil => rfl
  | cons a l ih =>
    have hrest := ih fun b hb => h b (List.mem_cons_of_mem _ hb)
    rw [List.map_cons, List.mapM_cons, h a List.mem_cons_self, hrest]
    rfl

/-- **Packing loses nothing**: what has been packed can be unpacked. -/
theorem Program.ofArrays?_of_pack {p : Program} {code : Packed} (h : p.pack? = some code) :
    ofArrays? code.codes code.operands = some p := by
  have hfits := pack?_isSome_iff.mp (Option.isSome_iff_exists.mpr ⟨code, h⟩)
  unfold int64Bound at hfits
  have hpair : ∀ i ∈ p.toList,
      Instruction.ofPair? (Int32.ofNat i.operator.code, Int64.ofInt i.operand) = some i := by
    intro i hi
    obtain ⟨hlower, hupper⟩ := hfits i (Array.mem_toList_iff.mp hi)
    rw [Instruction.ofPair?, Operator.ofCode?_toInt,
      Int64.toInt_ofInt_of_le (by omega) (by omega), Option.map_some]
  obtain ⟨hoperators, hoperands⟩ := pack?_eq_some h
  rw [ofArrays?, Packed.codes, hoperators, hoperands, Array.toList_map, Array.toList_map,
    Array.toList_map, List.map_map, List.zip_map']
  simp only [Function.comp_apply, mapM_map_eq_some hpair, Option.map_some]

end FoldTape
