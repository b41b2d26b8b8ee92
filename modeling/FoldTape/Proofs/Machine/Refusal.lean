import FoldTape.Machine.Execution
import FoldTape.Port.Ports
import FoldTape.Proofs.Folding.Layout

/-!
# Programs that are refused

Packing either keeps all of a program or refuses it, and it refuses it as a whole: a single operand
that does not fit is enough, also in an instruction that would never be reached. A machine that is
given such a program has been reset by then, and does nothing else. What a source is compiled to is
never refused, since neither its operands nor its addresses exceed the length of the source.

Main statements:

- `Builder.Describes.size_le`: a compiled program is no longer than its source;
- `Machine.execute_of_pack?_eq_none`: what is left of a machine that refuses a program;
- `Machine.packs_or_refuses`: the two ways for packing to come out, and which it is.
-/

namespace FoldTape

/-! ## §1 Compiled programs -/

/-- A compiled program has no more instructions than its source has characters. -/
theorem Builder.Describes.size_le {source : List Char} {b : Builder} (h : b.Describes source) :
    b.code.size ≤ source.length := by
  rw [h.size_eq]
  exact length_blocks_le source

/-- **A source bounds what it is compiled to**: the number of instructions and each operand. -/
theorem bounds_of_compile {source : List Char} {p : Program} (h : compile source = .ok p) :
    p.size ≤ source.length ∧ ∀ i ∈ p, 0 ≤ i.operand ∧ i.operand ≤ source.length := by
  obtain ⟨loops, hp⟩ := describes_of_compile h
  refine ⟨hp.size_le, ?_⟩
  intro i hi
  obtain ⟨a, ha⟩ := Array.mem_iff_getElem?.mp hi
  exact hp.operand_bounds rfl ha

/-! ## §2 Machines -/

namespace Machine

variable {δ : Type} [Device δ]

/-- **A program that cannot be packed is refused**: the machine is reset, and the kernel is not
called. -/
theorem execute_of_pack?_eq_none {p : Program} (h : p.pack? = none) (fuel : Nat) (m : Machine δ) :
    m.execute fuel p = some ⟨some .operandTooLarge, m.reset, []⟩ := by
  simp only [execute, h]

/-- **Packing loses nothing, or it fails before anything runs.**

- A program without negative operands can be packed exactly if no operand exceeds `2⁶³ - 1`. The two
  arrays are as long as the program, and taken together they are the program.
- A program with a greater operand, wherever it stands, is refused by every machine, whatever state
  that is in. The kernel is not called; the registers and the tape are cleared, and the device, with
  all that has been written and read, and the settings stay as they are.
- A compiled program has no more instructions, and no greater operand, than its source has
  characters. So it can be packed, unless the source has `2⁶³` characters or more. -/
theorem packs_or_refuses :
    (∀ p : Program, (∀ i ∈ p, 0 ≤ i.operand) →
      (p.pack?.isSome ↔ ∀ i ∈ p, i.operand < int64Bound) ∧
      ∀ code, p.pack? = some code →
        code.codes.size = p.size ∧ code.operands.size = p.size ∧
          Program.ofArrays? code.codes code.operands = some p) ∧
    (∀ p : Program, (∃ i ∈ p, int64Bound ≤ i.operand) → ∀ (fuel : Nat) (m : Machine δ),
      ∃ report, m.execute fuel p = some report ∧
        report.fault? = some .operandTooLarge ∧ report.bursts = [] ∧
        report.machine.state.registers =
          ⟨0, 0, 0, Array.replicate m.settings.tapeSize 0⟩ ∧
        report.machine.state.device = m.state.device ∧
        report.machine.settings = m.settings) ∧
    (∀ (source : List Char) (p : Program), compile source = .ok p →
      p.size ≤ source.length ∧ (∀ i ∈ p, i.operand ≤ source.length) ∧
        (source.length < int64Bound → p.pack?.isSome)) := by
  refine ⟨?_, ?_, ?_⟩
  · intro p hp
    refine ⟨Program.pack?_isSome_iff_of_nonneg hp, ?_⟩
    intro code hcode
    obtain ⟨hoperators, hoperands⟩ := Program.pack?_eq_some hcode
    refine ⟨?_, ?_, Program.ofArrays?_of_pack hcode⟩
    · rw [Packed.codes, Array.size_map, hoperators, Array.size_map]
    · rw [hoperands, Array.size_map]
  · rintro p ⟨i, hi, hle⟩ fuel m
    have hnone := Program.pack?_eq_none_of_le hi hle
    exact ⟨_, execute_of_pack?_eq_none hnone fuel m, rfl, rfl, rfl, rfl, rfl⟩
  · intro source p h
    obtain ⟨hsize, hbounds⟩ := bounds_of_compile h
    refine ⟨hsize, fun i hi => (hbounds i hi).2, ?_⟩
    intro hlength
    rw [Program.pack?_isSome_iff_of_nonneg fun i hi => (hbounds i hi).1]
    intro i hi
    exact Int.lt_of_le_of_lt (hbounds i hi).2 hlength

/-- The greatest operand can be packed. One that is greater by one is refused, though the output it
belongs to would be skipped, by a machine that has stopped in the middle of another program; what
has been written and read stays. A loop with a comment in it can be packed. -/
theorem packs_or_refuses_unreachable :
    (∃ code, Program.pack? #[⟨.moveRight, int64Bound - 1⟩] = some code ∧
      Program.ofArrays? code.codes code.operands = some #[⟨.moveRight, int64Bound - 1⟩]) ∧
    (∃ report, (⟨{ tapeSize := 2, maxSteps := some 9 },
          ⟨⟨7, 1, 5, #[4, 200]⟩, ⟨.memory [66] 1, .memory #[65]⟩⟩⟩ : Machine Ports).execute 1
          #[⟨.jumpIfZero, 2⟩, ⟨.output, int64Bound⟩] = some report ∧
      report.fault? = some .operandTooLarge ∧
      report.machine.state.registers = ⟨0, 0, 0, #[0, 0]⟩ ∧
      report.machine.state.device = ⟨.memory [66] 1, .memory #[65]⟩) ∧
    ∃ p, compile ['[', '-', 'x', '-', ']'] = .ok p ∧ p.size ≤ 5 ∧ p.pack?.isSome := by
  obtain ⟨hpacked, hrefused, hcompiled⟩ := packs_or_refuses (δ := Ports)
  refine ⟨?_, ?_, ?_⟩
  · obtain ⟨hfits, hlossless⟩ := hpacked #[⟨.moveRight, int64Bound - 1⟩] (by decide)
    obtain ⟨code, hcode⟩ := Option.isSome_iff_exists.mp (hfits.mpr (by decide))
    exact ⟨code, hcode, (hlossless code hcode).2.2⟩
  · obtain ⟨report, hreport, hfault, -, hregisters, hdevice, -⟩ :=
      hrefused #[⟨.jumpIfZero, 2⟩, ⟨.output, int64Bound⟩] (by decide) 1 _
    exact ⟨report, hreport, hfault, hregisters, hdevice⟩
  · obtain ⟨hsize, -, hpack⟩ := hcompiled ['[', '-', 'x', '-', ']'] _ rfl
    exact ⟨_, rfl, hsize, hpack (by decide)⟩

end Machine

end FoldTape
