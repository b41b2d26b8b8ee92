import FoldTape.Proofs.Machine.DeviceUse
import FoldTape.Proofs.Machine.Limits

/-!
# Why runs fail

On ports that work a run can fail for four reasons: the limit on the steps, a move off either end of
the tape, and too little input. In each state at most one of them applies, and which one can be told
from the state and the instruction alone. The last turn then counts as no step and moves neither the
program counter nor the pointer; only input that runs out leaves a trace.

## Architecture

- **§1 Reasons**: `State.Faults`, and `State.Drained` for what is left when the input runs out.
- **§2 Folded input and output**: when they succeed, and what a short input comes to.
- **§3 The last turn**: a turn fails exactly for one of the reasons, `State.stops_of_faults` and
  `State.faults_of_stops`.
- **§4 Machines**: `Machine.fails_for_one_reason`.
-/

namespace FoldTape

/-! ## §1 Reasons -/

/-- The place that a fault names: the address of the instruction and the pointer. -/
def Fault.place? : Fault → Option (Nat × Nat)
  | underflow pc pointer _ | overflow pc pointer _ _ | endOfInput pc pointer
  | stepLimit pc pointer _ => some (pc, pointer)
  | port _ | operandTooLarge => none

namespace State

/-- The fault that a machine whose ports work has to report in a state, if any. The limit is looked
at before the instruction. -/
inductive Faults (settings : Settings) (p : Program) (s : State Ports) : Fault → Prop where
  /-- All allowed steps are done, and the program is not over. -/
  | stepLimit : s.AtLimit settings p →
      Faults settings p s
        (.stepLimit s.registers.pc s.registers.pointer (s.registers.steps : Int))
  /-- There are fewer cells to the left. -/
  | underflow {n : Nat} : s.Fetches settings p ⟨.moveLeft, n⟩ → s.registers.pointer < n →
      Faults settings p s (.underflow s.registers.pc s.registers.pointer n)
  /-- There are fewer cells to the right. -/
  | overflow {n : Nat} : s.Fetches settings p ⟨.moveRight, n⟩ →
      settings.tapeSize ≤ s.registers.pointer + n →
      Faults settings p s (.overflow s.registers.pc s.registers.pointer n settings.tapeSize)
  /-- There are fewer bytes to read, and the end of the input is a fault. -/
  | endOfInput {n : Nat} : s.Fetches settings p ⟨.input, n⟩ → settings.eof = .error →
      s.device.source.unread.length < n →
      Faults settings p s (.endOfInput s.registers.pc s.registers.pointer)

/-- All that was left of the input has been read into the current cell: it holds the last byte, if
there was one, and nothing else has changed. -/
structure Drained (s t : State Ports) : Prop where
  registers : t.registers =
    { s.registers with tape := s.store (s.device.source.unread.getLastD s.cell) }
  sink : t.device.sink = s.device.sink
  unread : t.device.source.unread = []
  consumed : t.device.source.consumed =
    s.device.source.consumed + s.device.source.unread.length

/-- What a fault leaves: only input that runs out changes anything. -/
def Leaves (s : State Ports) : Fault → State Ports → Prop
  | .endOfInput .., t => s.Drained t
  | .stepLimit .., t | .underflow .., t | .overflow .., t => t = s
  | .port _, t | .operandTooLarge, t => t = s

end State

/-! ## §2 Folded input and output -/

namespace Ports

variable {d : Ports}

/-- Ports that work write a cell as often as is asked. -/
theorem Works.exists_writeCell (hd : d.Works) (cell : UInt8) (count : Nat) :
    ∃ d', writeCell cell count d = .ok () d' := by
  induction count generalizing d with
  | zero => exact ⟨d, rfl⟩
  | succ count ih =>
    obtain ⟨sink, hwrite, hworks, -⟩ := hd.write cell
    simp only [writeCell, hwrite]
    exact ih ⟨hd.source, hworks⟩

/-- They read as often as is asked if there is enough input, or if its end reads as zero. -/
theorem Works.exists_readCell (hd : d.Works) {eof : EndPolicy} (cell : UInt8) {count : Nat}
    (henough : eof = .error → count ≤ d.source.unread.length) :
    ∃ cell' d', readCell eof cell count d = .ok () (cell', d') := by
  induction count generalizing cell d with
  | zero => exact ⟨cell, d, rfl⟩
  | succ count ih =>
    obtain ⟨source, hread, hworks, hunread, -⟩ := hd.read
    simp only [readCell, hread]
    cases hleft : d.source.unread with
    | cons b unread =>
      rw [hleft] at hunread henough
      refine ih (d := ⟨source, d.sink⟩) ⟨hworks, hd.sink⟩ b fun heof => ?_
      simpa [hunread] using henough heof
    | nil =>
      rw [hleft] at hunread henough
      cases eof with
      | error => exact absurd (henough rfl) (Nat.not_succ_le_zero count)
      | zero => exact ih (d := ⟨source, d.sink⟩) ⟨hworks, hd.sink⟩ 0 (by simp)

/-- **Input that is too short** is read to its end, and the last byte stays in the cell. -/
theorem Works.readCell_short (hd : d.Works) (cell : UInt8) {count : Nat}
    (hshort : d.source.unread.length < count) :
    ∃ source, readCell .error cell count d =
        .error .endOfInput (d.source.unread.getLastD cell, ⟨source, d.sink⟩) ∧
      source.unread = [] ∧
      source.consumed = d.source.consumed + d.source.unread.length := by
  induction count generalizing cell d with
  | zero => exact absurd hshort (Nat.not_lt_zero _)
  | succ count ih =>
    obtain ⟨source, hread, hworks, hunread, hconsumed⟩ := hd.read
    simp only [readCell, hread]
    -- A byte takes the place of the cell for the reads after it, so the last one is what stays.
    cases hleft : d.source.unread with
    | nil => exact ⟨source, rfl, by simpa [hleft] using hunread, by simpa [hleft] using hconsumed⟩
    | cons b unread =>
      rw [hleft] at hunread hconsumed hshort
      obtain ⟨source', hrest, hempty, htaken⟩ :=
        ih (d := ⟨source, d.sink⟩) ⟨hworks, hd.sink⟩ b (by simpa [hunread] using hshort)
      refine ⟨source', ?_, hempty, ?_⟩
      · rw [List.getLastD_cons]
        simpa only [List.head?_cons, hunread, List.tail_cons] using hrest
      · rw [htaken, hconsumed, hunread]
        simp [Nat.add_assoc, Nat.add_comm]

end Ports

/-! ## §3 The last turn -/

namespace State

variable {settings : Settings} {p : Program} {s t : State Ports} {fault : Fault}

/-- A last turn leaves one fault and one state. -/
theorem Stops.unique {fault?' : Option Fault} {fault? : Option Fault} {t' : State Ports}
    (h : s.Stops settings p fault? t) (h' : s.Stops settings p fault?' t') :
    fault?' = fault? ∧ t' = t := by
  cases runToEnd_unique h h'
  exact ⟨rfl, rfl⟩

/-- **Each reason makes the turn fail**, with the fault that it stands for. -/
theorem stops_of_faults (hs : s.Valid settings) (hworks : s.device.Works)
    (h : s.Faults settings p fault) :
    ∃ t, s.Stops settings p (some fault) t ∧ s.Leaves fault t := by
  simp only [stops_some_iff]
  cases h with
  | stepLimit hlimit => exact ⟨s, hlimit.turn_eq, rfl⟩
  | @underflow n hi hleft =>
    refine ⟨s, ?_, rfl⟩
    rw [hi.turn_eq, perform_moveLeft, Int.toNat_natCast, if_neg (Nat.not_le.mpr hleft)]
  | @overflow n hi hright =>
    refine ⟨s, ?_, rfl⟩
    rw [hi.turn_eq, perform_moveRight, Int.toNat_natCast, hs.size,
      if_neg (Nat.not_lt.mpr hright)]
  | @endOfInput n hi heof hshort =>
    obtain ⟨source, hread, hempty, htaken⟩ := hworks.readCell_short s.cell hshort
    refine ⟨⟨{ s.registers with tape := s.store (s.device.source.unread.getLastD s.cell) },
      ⟨source, s.device.sink⟩⟩, ?_, ⟨rfl, rfl, hempty, htaken⟩⟩
    rw [hi.turn_eq, perform_input, Int.toNat_natCast, heof, hread]
    rfl

/-- **A turn that fails has one of these reasons.** -/
theorem faults_of_stops (hp : p.Admissible) (hs : s.Valid settings) (hworks : s.device.Works)
    (h : s.Stops settings p (some fault) t) : s.Faults settings p fault := by
  rw [stops_some_iff] at h
  rcases turn_cases settings p s with hend | hlimit | ⟨⟨op, operand⟩, hi⟩
  · rw [turn_of_end hend] at h
    cases h
  · rw [hlimit.turn_eq] at h
    cases h
    exact .stepLimit hlimit
  · -- An operand of an admissible program is what the fault says it is, not less than zero.
    obtain ⟨n, hn⟩ := Int.eq_ofNat_of_zero_le (hp.of_getElem? hi.1).1
    obtain rfl : operand = n := hn
    rw [hi.turn_eq] at h
    cases op with
    | moveRight =>
      rw [perform_moveRight, Int.toNat_natCast, hs.size] at h
      split at h <;> cases h
      rename_i hfull
      exact .overflow hi (Nat.not_lt.mp hfull)
    | moveLeft =>
      rw [perform_moveLeft, Int.toNat_natCast] at h
      split at h <;> cases h
      rename_i hfull
      exact .underflow hi (Nat.not_le.mp hfull)
    | increment | decrement | jumpIfZero | jumpIfNonzero => cases h
    | output =>
      -- Ports that work take every byte.
      obtain ⟨d, hwrite⟩ := hworks.exists_writeCell s.cell n
      rw [perform_output, Int.toNat_natCast, hwrite] at h
      cases h
    | input =>
      rw [perform_input, Int.toNat_natCast] at h
      by_cases henough : settings.eof = .error → n ≤ s.device.source.unread.length
      · obtain ⟨cell, d, hread⟩ := hworks.exists_readCell s.cell henough
        rw [hread] at h
        cases h
      · obtain ⟨heof, hshort⟩ := Classical.not_imp.mp henough
        have hshort := Nat.not_le.mp hshort
        obtain ⟨source, hread, -⟩ := hworks.readCell_short s.cell hshort
        rw [heof, hread] at h
        cases h
        exact .endOfInput hi heof hshort

/-- A fault names the place of the instruction, and the last turn stays there. -/
theorem Faults.place_eq (h : s.Faults settings p fault) (hleft : s.Leaves fault t) :
    t.registers.pc = s.registers.pc ∧ t.registers.pointer = s.registers.pointer ∧
      fault.place? = some (t.registers.pc, t.registers.pointer) := by
  cases h with
  | endOfInput =>
    simp only [hleft.registers, Fault.place?, and_self]
  | stepLimit | underflow | overflow =>
    cases hleft
    exact ⟨rfl, rfl, rfl⟩

end State

/-! ## §4 Machines -/

namespace Machine

variable {p : Program} {m : Machine Ports}

/-- Whatever a run visits is valid, and its ports go on to work. -/
theorem Visits.valid_and_works (hworks : m.state.device.Works) {n : Nat} {s : State Ports}
    (hs : m.Visits p n s) : s.Valid m.settings ∧ s.device.Works :=
  ⟨(State.Valid.start m.settings m.state.device).after hs, hs.holds Ports.keeps_works hworks⟩

/-- **Every failure has exactly one reason, and is reported where it happens.** For every program,
all settings and all ports that work: if a run ends with a fault, then

- it has completed some number `n` of instructions, and of all faults only this one is called for in
  the state `s` after them;
- the last turn counts as no step and stays where it is, at an instruction of the program, and the
  fault names this place;
- nothing else has changed, unless the input has run out: then all of it has been read into the
  current cell.

Conversely a run that gets into a state that calls for a fault ends with it. -/
theorem fails_for_one_reason (hp : p.Admissible) (hworks : m.state.device.Works) :
    (∀ fault t, m.Ends p (some fault) t → ∃ n s, m.Visits p n s ∧
      (∀ other, s.Faults m.settings p other ↔ other = fault) ∧
      t.registers.steps = n ∧ s.registers.steps = n ∧
      t.registers.pc = s.registers.pc ∧ t.registers.pc < p.size ∧
      t.registers.pointer = s.registers.pointer ∧
      fault.place? = some (t.registers.pc, t.registers.pointer) ∧
      s.Leaves fault t) ∧
    ∀ n s fault, m.Visits p n s → s.Faults m.settings p fault → ∃ t, m.Ends p (some fault) t := by
  constructor
  · intro fault t hends
    obtain ⟨n, s, hs, hstops⟩ := (ends_iff_visits hp).mp hends
    obtain ⟨hvalid, hstill⟩ := hs.valid_and_works hworks
    have hfault := State.faults_of_stops hp hvalid hstill hstops
    -- Whatever else the state called for would be the fault of the same turn.
    have honly : ∀ other, s.Faults m.settings p other → other = fault := by
      intro other hother
      obtain ⟨t', hstops', -⟩ := State.stops_of_faults hvalid hstill hother
      exact Option.some.inj (hstops.unique hstops').1
    have hleft : s.Leaves fault t := by
      obtain ⟨t', hstops', hleft⟩ := State.stops_of_faults hvalid hstill hfault
      rwa [(hstops.unique hstops').2] at hleft
    have hsteps : s.registers.steps = n := by
      rw [State.steps_of_after hs]
      exact Nat.zero_add n
    obtain ⟨hpc, hpointer, hplace⟩ := hfault.place_eq hleft
    obtain ⟨i, hi⟩ := hstops.exists_instruction
    refine ⟨n, s, hs, fun other => ⟨honly other, fun h => h ▸ hfault⟩, ?_, hsteps, hpc, ?_,
      hpointer, hplace, hleft⟩
    · rw [hstops.steps_eq, hsteps]
    · rw [hpc]
      exact (Array.getElem?_eq_some_iff.mp hi).1
  · intro n s fault hs hfault
    obtain ⟨hvalid, hstill⟩ := hs.valid_and_works hworks
    obtain ⟨t, hstops, -⟩ := State.stops_of_faults hvalid hstill hfault
    exact ⟨t, (ends_iff_visits hp).mpr ⟨n, s, hs, hstops⟩⟩

/-- A program that asks for two bytes where there is one: the byte replaces the three in the cell,
and the run fails in front of the second instruction. -/
theorem fails_for_one_reason_short_input :
    Program.Admissible #[⟨.increment, 3⟩, ⟨.input, 2⟩] ∧ (Ports.inMemory [65]).Works ∧
    ∃ t, (new { tapeSize := 1 } (Ports.inMemory [65])).Ends #[⟨.increment, 3⟩, ⟨.input, 2⟩]
        (some (.endOfInput 1 0)) t ∧
      t.registers = ⟨1, 0, 1, #[65]⟩ ∧
      ∃ s, (new { tapeSize := 1 } (Ports.inMemory [65])).Visits
          #[⟨.increment, 3⟩, ⟨.input, 2⟩] 1 s ∧
        (∀ other, s.Faults { tapeSize := 1 } #[⟨.increment, 3⟩, ⟨.input, 2⟩] other ↔
          other = .endOfInput 1 0) ∧
        s.Drained t := by
  have hp : Program.Admissible #[⟨.increment, 3⟩, ⟨.input, 2⟩] := by decide
  have hworks : (Ports.inMemory [65]).Works := Ports.works_inMemory [65]
  have hends : (new { tapeSize := 1 } (Ports.inMemory [65])).Ends
      #[⟨.increment, 3⟩, ⟨.input, 2⟩] (some (.endOfInput 1 0))
      ⟨⟨1, 0, 1, #[65]⟩, ⟨.memory [] 1, .memory #[]⟩⟩ := (ends_iff hp).mpr ⟨1, _, rfl, rfl⟩
  obtain ⟨n, s, hs, honly, hsteps, -, -, -, -, -, hleft⟩ :=
    (fails_for_one_reason hp hworks).1 _ _ hends
  obtain rfl : n = 1 := hsteps.symm
  exact ⟨hp, hworks, _, hends, rfl, s, hs, honly, hleft⟩

end Machine

end FoldTape
