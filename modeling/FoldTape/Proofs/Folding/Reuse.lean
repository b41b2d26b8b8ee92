import FoldTape.Proofs.Folding.Acceptance
import FoldTape.Proofs.Folding.Layout

/-!
# A compiler that is used again

A compiler keeps what it has built until it is used again, also after a source whose brackets do not
match. Nothing of it shows in what comes next: what a source comes to, and what it leaves, are those
of a compiler that has not been used.

## Architecture

- **§1 Loops that are left open**: `Builder.LeftOpen`, from the invariant of the pass.
- **§2 One source**: `Builder.Residue`, one constructor for each way in which compiling ends.
- **§3 Many sources**: `Compiler.compileAll_residue`.
-/

namespace FoldTape

namespace Builder

/-! ## §1 Loops that are left open -/

/-- The positions of the brackets of the open loops, outermost first. -/
def openPositions (b : Builder) : List Nat := b.opened.reverse.map OpenLoop.position

/-- The addresses of their instructions. -/
def openAddresses (b : Builder) : List Nat := b.opened.reverse.map OpenLoop.address

/-- What has been built from a source at the end of which loops are open. -/
structure LeftOpen (source : List Char) (b : Builder) : Prop where
  positions_increase : b.openPositions.Pairwise (· < ·)
  /-- The open loops are those of the opening brackets without partner. -/
  mem_positions : ∀ q, q ∈ b.openPositions ↔ UnmatchedAt source q
  addresses_increase : b.openAddresses.Pairwise (· < ·)
  /-- Their instructions are where the blocks of these brackets are. -/
  addresses_eq : b.openAddresses = b.openPositions.map (blockAddress source)
  placeholders : ∀ a ∈ b.openAddresses, b.code[a]? = some ⟨.jumpIfZero, 0⟩
  /-- Every other jump of this kind leads past the jump of the partner of its bracket, which leads
  back to just after it. -/
  closed : ∀ (a : Nat) (n : Int), b.code[a]? = some ⟨.jumpIfZero, n⟩ → a ∉ b.openAddresses →
    ∃ c : Nat, n = c + 1 ∧ a < c ∧ b.code[c]? = some ⟨.jumpIfNonzero, a + 1⟩ ∧
      ∃ i j, source[i]? = some '[' ∧ closingPartner? source i = some j ∧
        blockAddress source i = a ∧ blockAddress source j = c
  loops : b.loops = source.count ']'

variable {s : List Char} {b : Builder}

theorem mem_openPositions {q : Nat} : q ∈ b.openPositions ↔ ∃ l ∈ b.opened, l.position = q := by
  simp [openPositions]

theorem mem_openAddresses {a : Nat} : a ∈ b.openAddresses ↔ ∃ l ∈ b.opened, l.address = a := by
  simp [openAddresses]

/-- **The stack of open loops** at the end of a text tells which brackets have no partner. -/
theorem Describes.leftOpen (h : b.Describes s) : b.LeftOpen s where
  positions_increase := by
    rw [openPositions, List.pairwise_map, List.pairwise_reverse]
    exact h.nested.imp And.left
  mem_positions := by
    intro q
    rw [mem_openPositions]
    constructor
    · rintro ⟨l, hl, rfl⟩
      obtain ⟨k, hwaits⟩ := h.exists_waits hl
      exact ⟨hwaits.bracket, hwaits.unmatched⟩
    · rintro ⟨hbracket, hunmatched⟩
      exact h.complete q hbracket hunmatched
  addresses_increase := by
    rw [openAddresses, List.pairwise_map, List.pairwise_reverse]
    exact h.nested.imp And.right
  addresses_eq := by
    rw [openAddresses, openPositions, List.map_map]
    refine List.map_congr_left ?_
    intro l hl
    obtain ⟨k, hwaits⟩ := h.exists_waits (List.mem_reverse.mp hl)
    exact hwaits.address_eq
  placeholders := by
    intro a ha
    obtain ⟨l, hl, rfl⟩ := mem_openAddresses.mp ha
    obtain ⟨k, hwaits⟩ := h.exists_waits hl
    exact hwaits.placeholder
  closed := by
    intro a n ha hclosed
    -- The instruction comes from an opening bracket, and that bracket has a partner.
    have hblock : (blocks s)[a]? = some ['['] := by
      rw [h.getElem?_blocks, ha]
      rfl
    obtain ⟨i, hi, rfl⟩ := exists_position_of_singleton hblock
    cases hj : closingPartner? s i with
    | none =>
      obtain ⟨l, hl, rfl⟩ := h.complete i hi hj
      obtain ⟨k, hwaits⟩ := h.exists_waits hl
      exact absurd (mem_openAddresses.mpr ⟨l, hl, hwaits.address_eq⟩) hclosed
    | some j =>
      have hloop := h.loopAt hi hj
      have henters := hloop.enters
      rw [ha, Option.some.injEq, Instruction.mk.injEq] at henters
      exact ⟨_, henters.2, blockAddress_lt .jumpIfZero rfl hi hloop.lt, hloop.repeats, i, j, hi,
        hj, rfl, rfl⟩
  loops := h.loops

/-! ## §2 One source -/

/-- What compiling a source comes to, and what is left in the builder. -/
inductive Residue (source : List Char) : Except Unbalanced Program → Builder → Prop where
  /-- The source is accepted: the program has been built, and every loop has been closed. -/
  | accepted {p : Program} : Residue source (.ok p) ⟨p, [], source.count ']'⟩
  /-- A closing bracket is to blame: what comes before it is accepted and has been built. -/
  | overclosed {position : Nat} {p : Program} :
      source[position]? = some ']' → compile (source.take position) = .ok p →
      Residue source (.error ⟨.unmatchedClosing, position⟩)
        ⟨p, [], (source.take position).count ']'⟩
  /-- An opening bracket is to blame: it is the last one that has been left open. -/
  | leftOpen {position : Nat} {b : Builder} :
      b.LeftOpen source → b.openPositions.getLast? = some position →
      Residue source (.error ⟨.unmatchedOpening, position⟩) b

end Builder

namespace Compiler

/-- A compiler forgets all that it has built before it is used again. -/
theorem compile_eq_fresh (c : Compiler) (source : List Char) :
    c.compile source = fresh.compile source := rfl

/-- **What a source leaves**, in each of the three ways in which compiling it can end. -/
theorem compile_residue (c : Compiler) (source : List Char) :
    Builder.Residue source (c.compile source).1 (c.compile source).2.state := by
  rw [compile_eq_fresh]
  have hreset : fresh.reset.state = .empty := rfl
  rw [compile, hreset]
  cases hfeed : Builder.feedAll none 0 source .empty with
  | error position b =>
    obtain ⟨u, v, rfl, rfl, hu, hopened⟩ := Builder.feedAll_error hfeed
    have hb := Builder.describes_of_feedAll hu
    have htake : (u ++ ']' :: v).take u.length = u := List.take_left
    obtain ⟨code, opened, loops⟩ := b
    simp only at hopened
    subst hopened
    obtain rfl : loops = u.count ']' := hb.loops
    have hcompile : FoldTape.compile u = .ok code := by
      rw [FoldTape.compile, compile, hreset, hu]
    have hbracket : (u ++ ']' :: v)[u.length]? = some ']' := by simp
    have hresidue := Builder.Residue.overclosed hbracket (htake ▸ hcompile)
    rwa [htake] at hresidue
  | ok _ b =>
    have hb := Builder.describes_of_feedAll hfeed
    cases hopened : b.opened with
    | nil =>
      simp only [hopened]
      obtain ⟨code, opened, loops⟩ := b
      obtain rfl : opened = [] := hopened
      obtain rfl : loops = source.count ']' := hb.loops
      exact .accepted
    | cons l rest =>
      simp only [hopened]
      refine .leftOpen hb.leftOpen ?_
      simp [Builder.openPositions, hopened]

/-! ## §3 Many sources -/

/-- **Nothing is carried over from one source to the next.** Of sources that are compiled in turn
with one compiler, each comes to what it comes to by itself, with the same report if its brackets do
not match, and leaves what it leaves in a compiler that has not been used:

- after an accepted source, the program, no open loop, and the number of its closing brackets;
- after a closing bracket to blame, what has been built from the source before it, which is itself
  accepted;
- after an opening bracket to blame, the open loops with placeholders, and the targets of all loops
  that have been closed. -/
theorem compileAll_residue (c : Compiler) (sources : List (List Char)) :
    List.Forall₂ (fun source compiled =>
        compiled = fresh.compile source ∧
        compiled.1.mapError (Unbalanced.diagnostic · source) = compileText source ∧
        Builder.Residue source compiled.1 compiled.2.state)
      sources (c.compileAll sources) := by
  induction sources generalizing c with
  | nil => exact .nil
  | cons source sources ih =>
    refine .cons ⟨c.compile_eq_fresh source, ?_, c.compile_residue source⟩ (ih _)
    rw [compile_eq_fresh, compileText, FoldTape.compile]
    cases (fresh.compile source).1 <;> rfl

/-- After a source that leaves two loops open, the next one is compiled as if nothing had been. -/
example : fresh.compileAll [['[', '+', '[', ']', '['], ['.', ']']] =
    [(.error ⟨.unmatchedOpening, 4⟩,
        ⟨⟨#[⟨.jumpIfZero, 0⟩, ⟨.increment, 1⟩, ⟨.jumpIfZero, 4⟩, ⟨.jumpIfNonzero, 3⟩,
          ⟨.jumpIfZero, 0⟩], [⟨4, 4⟩, ⟨0, 0⟩], 1⟩⟩),
      (.error ⟨.unmatchedClosing, 1⟩, ⟨⟨#[⟨.output, 1⟩], [], 0⟩⟩)] := rfl

end Compiler

end FoldTape
