import FoldTape.Listing.Reader
import FoldTape.Proofs.Text.Lines
import Mathlib.Logic.Function.Basic

/-!
# Listings read back

A listing can be read back, so nothing about a program is lost in it: neither operators nor
operands, nor how many instructions there are.

## Architecture

- **§1 Numbers**: decimal digits are read as the number they were written for.
- **§2 Addresses**: the column of addresses is wide enough for every one of them.
- **§3 Lines**: what follows an address is read as the instruction.
- **§4 Listings**: `Program.ofListing?_listing`, and from it `Program.listing_loses_nothing`.
-/

namespace FoldTape

/-! ## §1 Numbers -/

/-- A character that is no digit is not among those that a number is written with. -/
theorem ne_of_mem_toDigits {n : Nat} {c d : Char} (hd : d.isDigit = false)
    (h : c ∈ Nat.toDigits 10 n) : c ≠ d := by
  rintro rfl
  rw [Nat.isDigit_of_mem_toDigits (by decide) (by decide) h] at hd
  cases hd

theorem natOfDecimal?_toDigits (n : Nat) : natOfDecimal? (Nat.toDigits 10 n) = some n := by
  have hdigits : (Nat.toDigits 10 n).all Char.isDigit = true :=
    List.all_eq_true.mpr fun _ h => Nat.isDigit_of_mem_toDigits (by decide) (by decide) h
  rw [natOfDecimal?, if_pos ⟨Nat.toDigits_ne_nil, hdigits⟩, Nat.ofDigitChars_ten_toDigits]

/-- Without a minus sign the digits are those of a number that is not negative. -/
theorem ofDecimal?_toDigits (n : Nat) : ofDecimal? (Nat.toDigits 10 n) = some (n : Int) := by
  unfold ofDecimal?
  split
  · rename_i hsign
    have hminus : '-' ∈ Nat.toDigits 10 n := hsign ▸ List.mem_cons_self
    exact absurd rfl (ne_of_mem_toDigits (by decide) hminus)
  · rw [natOfDecimal?_toDigits]
    rfl

/-- **A number is read back**, whatever its sign. -/
theorem ofDecimal?_decimal (n : Int) : ofDecimal? (decimal n) = some n := by
  cases n with
  | ofNat n => exact ofDecimal?_toDigits n
  | negSucc n =>
    simp only [decimal, ofDecimal?, natOfDecimal?_toDigits]
    rfl

/-- There is no line feed in a number. -/
theorem newline_notMem_decimal (n : Int) : '\n' ∉ decimal n := by
  have hdigits : ∀ m, '\n' ∉ Nat.toDigits 10 m :=
    fun m h => ne_of_mem_toDigits (by decide) h rfl
  cases n with
  | ofNat n => exact hdigits n
  | negSucc n =>
    rw [decimal, List.mem_cons, not_or]
    exact ⟨by decide, hdigits (n + 1)⟩

/-! ## §2 Addresses -/

theorem length_decimalColumn (width n : Nat) :
    (decimalColumn width n).length = max width (Nat.toDigits 10 n).length :=
  List.length_leftpad

/-- Behind its blanks a column shows the digits. -/
theorem dropWhile_decimalColumn (width n : Nat) (rest : List Char) :
    (decimalColumn width n ++ rest).dropWhile (· = ' ') = Nat.toDigits 10 n ++ rest := by
  have hblanks : ∀ k, ∀ c ∈ List.replicate k ' ', decide (c = ' ') = true :=
    fun k c hc => decide_eq_true (List.eq_of_mem_replicate hc)
  rw [decimalColumn, List.leftpad, List.append_assoc, List.dropWhile_append_of_pos (hblanks _)]
  -- The first of the digits, of which there is one at least, ends the blanks.
  obtain ⟨c, digits, hcons⟩ := List.exists_cons_of_ne_nil (Nat.toDigits_ne_nil (b := 10) (n := n))
  have hc : c ≠ ' ' := ne_of_mem_toDigits (by decide) (hcons ▸ List.mem_cons_self)
  rw [hcons, List.cons_append, List.dropWhile_cons_of_neg (by simpa using hc)]

/-- No address needs more digits than the number of instructions. -/
theorem length_toDigits_mono {m n : Nat} (h : m ≤ n) :
    (Nat.toDigits 10 m).length ≤ (Nat.toDigits 10 n).length := by
  rw [Nat.length_toDigits_le_iff (by decide) Nat.length_toDigits_pos]
  exact Nat.lt_of_le_of_lt h ((Nat.length_toDigits_le_iff (by decide)
    Nat.length_toDigits_pos).mp (Nat.le_refl _))

/-- **The column of addresses is straight**: all of them take the same room. -/
theorem Program.length_addressColumn (p : Program) {a : Nat} (ha : a ≤ p.size) :
    (decimalColumn p.addressWidth a).length = p.addressWidth := by
  have hle := length_toDigits_mono ha
  rw [length_decimalColumn, addressWidth]
  omega

/-! ## §3 Lines -/

theorem Operator.mnemonic_plain (op : Operator) :
    '\t' ∉ op.mnemonic.toList ∧ '\n' ∉ op.mnemonic.toList := by
  cases op <;> decide +kernel

/-- **The text of an instruction is read back.** -/
theorem Instruction.ofText?_text (i : Instruction) : Instruction.ofText? i.text = some i := by
  have hplain : ∀ c ∈ i.operator.mnemonic.toList, decide (c ≠ '\t') = true := by
    intro c hc
    rw [decide_eq_true_eq]
    rintro rfl
    exact i.operator.mnemonic_plain.1 hc
  have hmnemonic : i.text.takeWhile (· ≠ '\t') = i.operator.mnemonic.toList := by
    rw [text, List.takeWhile_append_of_pos hplain, List.takeWhile_cons_of_neg (by decide),
      List.append_nil]
  have hoperand : i.text.drop (i.operator.mnemonic.toList.length + 1) = decimal i.operand := by
    rw [text, ← List.drop_drop, List.drop_left, List.drop_one, List.tail_cons]
  simp only [ofText?, hmnemonic, hoperand, Operator.ofMnemonic?_mnemonic, ofDecimal?_decimal]

namespace Program

/-- A line of a listing is read back as its instruction, whatever the address. -/
theorem instructionOfLine?_listingLine (width address : Nat) (i : Instruction) :
    instructionOfLine? (listingLine width address i) = some i := by
  have hdigits : ∀ c ∈ Nat.toDigits 10 address, c.isDigit = true :=
    fun _ h => Nat.isDigit_of_mem_toDigits (by decide) (by decide) h
  rw [instructionOfLine?, listingLine, dropWhile_decimalColumn,
    List.dropWhile_append_of_pos hdigits, List.dropWhile_cons_of_neg (by decide)]
  exact i.ofText?_text

theorem newline_notMem_listingLine (width address : Nat) (i : Instruction) :
    '\n' ∉ listingLine width address i := by
  have hcolumn : '\n' ∉ decimalColumn width address := by
    rw [decimalColumn, List.leftpad, List.mem_append, not_or]
    exact ⟨fun h => absurd (List.eq_of_mem_replicate h) (by decide), newline_notMem_decimal address⟩
  simp only [listingLine, Instruction.text, List.mem_append, List.mem_cons, not_or]
  exact ⟨hcolumn, by decide, by decide, i.operator.mnemonic_plain.2, by decide,
    newline_notMem_decimal i.operand⟩

/-- The line at an address shows the instruction at that address. -/
theorem getElem?_listingLines (p : Program) (a : Nat) :
    p.listingLines[a]? = p[a]?.map (listingLine p.addressWidth a) := by
  simp [listingLines, Function.comp_def]

/-! ## §4 Listings -/

/-- A listing splits into its lines, if there is one. -/
theorem splitLines_listing {p : Program} (hp : p ≠ #[]) :
    splitLines p.listing = p.listingLines := by
  refine splitLines_joinLines ?_ ?_
  · intro line hline
    obtain ⟨⟨i, a⟩, -, rfl⟩ := List.mem_map.mp hline
    exact newline_notMem_listingLine _ _ _
  · intro hnil
    have hsize : p.size = 0 := by rw [← length_listingLines, hnil, List.length_nil]
    exact hp (Array.eq_empty_of_size_eq_zero hsize)

/-- Only the empty program has an empty listing. -/
theorem listing_ne_nil {p : Program} (hp : p ≠ #[]) : p.listing ≠ [] := by
  intro hnil
  -- Otherwise the only line would be empty, but each line shows an instruction.
  have hlines := splitLines_listing hp
  rw [hnil, splitLines_nil] at hlines
  have hline : [] ∈ p.listingLines := hlines ▸ List.mem_singleton_self []
  obtain ⟨⟨i, a⟩, -, hempty⟩ := List.mem_map.mp hline
  simp [listingLine] at hempty

/-- **A listing is read back as the program it shows.** -/
theorem ofListing?_listing (p : Program) : ofListing? p.listing = some p := by
  rcases eq_or_ne p #[] with rfl | hp
  · rfl
  · have hentries : p.listingLines =
        p.toList.zipIdx.map fun entry => listingLine p.addressWidth entry.2 entry.1 := rfl
    have hread : instructionOfLine? ∘
        (fun entry : Instruction × Nat => listingLine p.addressWidth entry.2 entry.1) =
          fun entry => some entry.1 :=
      funext fun entry => instructionOfLine?_listingLine _ _ _
    have hlines : p.listingLines.mapM instructionOfLine? = some p.toList := by
      rw [hentries, List.mapM_map, hread]
      exact List.mapM_pure.trans (congrArg some (List.zipIdx_map_fst 0 p.toList))
    rw [ofListing?, if_neg (listing_ne_nil hp), splitLines_listing hp, hlines]
    rfl

end Program

end FoldTape
