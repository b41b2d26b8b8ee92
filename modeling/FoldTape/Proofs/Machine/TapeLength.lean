import FoldTape.Proofs.Machine.Limits
import FoldTape.Proofs.Machine.Parallel

/-!
# Runs on tapes of different lengths

A longer tape is the shorter one with zero cells after it. As long as the pointer does not leave
the shorter tape, a run cannot tell the two apart: it neither reads nor changes the cells beyond,
and the only instruction that asks for the length is a move to the right that fails.

## Architecture

- **§1 Tapes**: reading and storing on a tape with cells added.
- **§2 Turns**: `State.perform_widen`, one instruction on either tape.
- **§3 Machines**: `Machine.longer_tape_extends`.
-/

namespace FoldTape

/-! ## §1 Tapes -/

namespace Tape

/-- The tape with zero cells added at its end. -/
def widen (more : Nat) (tape : Tape) : Tape := tape ++ blank more

variable {more address : Nat} {tape : Tape}

/-- Cells outside a tape count as zero, so the added ones do not show. -/
@[simp] theorem cell_widen : (tape.widen more).cell address = tape.cell address := by
  simp only [cell, widen, blank, Array.getD_eq_getD_getElem?, Array.getElem?_append]
  split
  · rfl
  · rename_i hout
    rw [Array.getElem?_eq_none (Nat.le_of_not_lt hout), Array.getElem?_replicate]
    split <;> rfl

/-- Storing into a cell of the shorter tape. -/
theorem store_widen (h : address < tape.size) (value : UInt8) :
    (tape.widen more).store address value = (tape.store address value).widen more :=
  Array.setIfInBounds_append_left h

theorem blank_widen (size more : Nat) : (blank size).widen more = blank (size + more) :=
  Array.replicate_append_replicate

theorem size_widen : (tape.widen more).size = tape.size + more := by
  simp [widen, blank]

end Tape

/-! ## §2 Turns -/

/-- Whether a fault is a move to the right that would leave the tape. -/
def Fault.isOverflow : Fault → Bool
  | overflow .. => true
  | underflow .. | endOfInput .. | stepLimit .. | port _ | operandTooLarge => false

variable {δ : Type} [Device δ] {settings : Settings} {p : Program} {s t : State δ} {more : Nat}

namespace State

/-- The same state on a longer tape. -/
def widen (more : Nat) (s : State δ) : State δ :=
  ⟨{ s.registers with tape := s.registers.tape.widen more }, s.device⟩

/-- The pointer is on the tape. -/
def OnTape (s : State δ) : Prop := s.registers.pointer < s.registers.tape.size

omit [Device δ] in
@[simp] theorem cell_widen : (s.widen more).cell = s.cell := Tape.cell_widen

omit [Device δ] in
theorem store_widen (hs : s.OnTape) (value : UInt8) :
    (s.widen more).store value = (s.store value).widen more :=
  Tape.store_widen hs value

/-- The turn is a move to the right that fails. -/
def Overflows (settings : Settings) (p : Program) (s : State δ) : Prop :=
  ∃ fault t, s.Stops settings p (some fault) t ∧ fault.isOverflow = true

/-- **One instruction on either tape.** The pointer is on the shorter one, and the instruction does
not leave it to the right. -/
theorem perform_widen (hs : s.OnTape) {eof : EndPolicy} {i : Instruction}
    (hroom : ∀ fault t, s.perform eof i = .failed fault t → fault.isOverflow = false) :
    (s.widen more).perform eof i = (s.perform eof i).map (widen more) := by
  obtain ⟨op, n⟩ := i
  cases op with
  | moveRight =>
    rw [perform_moveRight] at hroom ⊢
    have hinside : s.registers.pointer + n.toNat < s.registers.tape.size := by
      refine Decidable.by_contra fun hout => ?_
      cases hroom _ _ (if_neg hout)
    have hinside' : (s.widen more).registers.pointer + n.toNat <
        (s.widen more).registers.tape.size := by
      show s.registers.pointer + n.toNat < (s.registers.tape.widen more).size
      rw [Tape.size_widen]
      omega
    rw [perform_moveRight, if_pos hinside, if_pos hinside']
    rfl
  | moveLeft =>
    rw [perform_moveLeft, perform_moveLeft, apply_ite (Turn.map _)]
    rfl
  | increment =>
    rw [perform_increment, perform_increment, cell_widen, store_widen hs]
    rfl
  | decrement =>
    rw [perform_decrement, perform_decrement, cell_widen, store_widen hs]
    rfl
  | output =>
    have hdevice : (s.widen more).device = s.device := rfl
    rw [perform_output, perform_output, cell_widen, hdevice]
    cases writeCell s.cell n.toNat s.device <;> rfl
  | input =>
    have hdevice : (s.widen more).device = s.device := rfl
    rw [perform_input, perform_input, cell_widen, hdevice]
    simp only [store_widen hs]
    cases readCell eof s.cell n.toNat s.device <;> rfl
  | jumpIfZero =>
    rw [perform_jumpIfZero, perform_jumpIfZero, cell_widen]
    rfl
  | jumpIfNonzero =>
    rw [perform_jumpIfNonzero, perform_jumpIfNonzero, cell_widen]
    rfl

/-- A turn is the same on either tape, unless it overflows the shorter one. -/
theorem mirrors_widen (hs : s.OnTape) (hroom : ¬ s.Overflows settings p) (size : Nat) :
    s.Mirrors (widen more) settings { settings with tapeSize := size } p := by
  refine mirrors_of_perform rfl rfl rfl rfl ?_
  intro i hi
  refine perform_widen hs ?_
  intro fault t hfail
  refine Bool.eq_false_iff.mpr fun hoverflow => hroom ⟨fault, t, ?_, hoverflow⟩
  rw [stops_some_iff, hi.turn_eq, hfail]

/-- A turn does not take the pointer off the tape. -/
theorem OnTape.turn_next (hs : s.OnTape) (h : s.turn settings p = .next t) : t.OnTape := by
  obtain ⟨i, hi, -⟩ := turn_eq_next_iff.mp h
  have houtcome := hi.outcome
  rw [h] at houtcome
  cases houtcome with
  | @next pc pointer tape device _ hpointer hsize =>
    show pointer < tape.size
    rw [hsize]
    exact hpointer hs

end State

/-! ## §3 Machines -/

namespace Machine

variable {m m' : Machine δ} {fault? : Option Fault} {n : Nat}

/-- The two machines differ in the length of their tapes only. -/
structure Longer (more : Nat) (m m' : Machine δ) : Prop where
  cells : 0 < m.settings.tapeSize
  settings : m'.settings = { m.settings with tapeSize := m.settings.tapeSize + more }
  device : m'.state.device = m.state.device

omit [Device δ] in
theorem Longer.start (h : Longer more m m') : m'.reset.state = m.reset.state.widen more := by
  simp only [reset, State.widen, Registers.start, h.settings, h.device, Tape.blank_widen]

theorem Visits.onTape (hs : m.Visits p n s) (hcells : 0 < m.settings.tapeSize) : s.OnTape := by
  refine hs.induction ?_ fun hturn hs => hs.turn_next hturn
  simpa [State.OnTape, reset, Registers.start, Tape.blank] using hcells

theorem Longer.mirrors (h : Longer more m m') (hs : m.Visits p n s)
    (hroom : ¬ s.Overflows m.settings p) :
    s.Mirrors (.widen more) m.settings m'.settings p := by
  rw [h.settings]
  exact State.mirrors_widen (hs.onTape h.cells) hroom _

/-- A run that overflows does so once, at its end. -/
theorem Visits.ends_of_overflows (hp : p.Admissible) (hs : m.Visits p n s)
    (hoverflows : s.Overflows m.settings p) :
    ∃ fault t, m.Ends p (some fault) t ∧ fault.isOverflow = true := by
  obtain ⟨fault, t, hstops, hoverflow⟩ := hoverflows
  exact ⟨fault, t, (ends_iff_visits hp).mpr ⟨n, s, hs, hstops⟩, hoverflow⟩

/-- **Without an overflow the two machines run side by side.** -/
theorem Longer.ends_iff (h : Longer more m m') (hp : p.Admissible)
    (hroom : ∀ fault t, m.Ends p (some fault) t → fault.isOverflow = false) :
    m'.Ends p fault? t ↔ ∃ u, m.Ends p fault? u ∧ u.widen more = t := by
  refine ends_map_iff hp h.start fun n s hs => h.mirrors hs ?_
  intro hoverflows
  obtain ⟨fault, u, hends, hoverflow⟩ := hs.ends_of_overflows hp hoverflows
  rw [hroom fault u hends] at hoverflow
  cases hoverflow

/-- Up to an overflow they do as well. -/
theorem Longer.visits (h : Longer more m m') (hp : p.Admissible) {fault : Fault}
    (hends : m.Ends p (some fault) t) (hoverflow : fault.isOverflow = true) :
    m'.Visits p t.registers.steps (t.widen more) := by
  obtain ⟨n, r, hr, hstops⟩ := (ends_iff_visits hp).mp hends
  -- The move that fails changes nothing, and it is not counted.
  have htape : fault.isTapeFault = true := by
    cases fault <;> first | rfl | cases hoverflow
  obtain rfl : t = r := hstops.eq_of_isTapeFault htape
  have hn : t.registers.steps = 0 + n := State.steps_of_after hr
  obtain rfl : t.registers.steps = n := by omega
  refine Visits.map h.start hr ?_
  intro k hk q hq
  refine h.mirrors hq ?_
  rintro ⟨fault', u, hstops', -⟩
  -- A turn that others follow is not the last one.
  obtain ⟨next, hnext, -⟩ := State.exists_next_of_lt hk hr hq
  exact hstops'.ne_next next hnext

/-- **The length of the tape only matters through overflows.** For every program, every device and
all other settings, of two runs on tapes of which one is at least as long as the other:

- if the run on the shorter tape ends in any way but by an overflow, then the run on the longer one
  ends in the same way and in the same state, with zero cells after the shorter tape;
- if the run on the shorter tape ends by an overflow, then the run on the longer one is in that
  state, with zero cells after the tape, after as many steps;
- if the run on the shorter tape does not end, neither does the run on the longer one. -/
theorem longer_tape_extends (hp : p.Admissible) (settings : Settings) (device : δ)
    {size size' : Nat} (hsize : 1 ≤ size) (hle : size ≤ size') :
    (∀ fault? t, (new { settings with tapeSize := size } device).Ends p fault? t →
      (∀ fault, fault? = some fault → fault.isOverflow = false) →
      (new { settings with tapeSize := size' } device).Ends p fault? (t.widen (size' - size))) ∧
    (∀ fault t, (new { settings with tapeSize := size } device).Ends p (some fault) t →
      fault.isOverflow = true →
      (new { settings with tapeSize := size' } device).Visits p t.registers.steps
        (t.widen (size' - size))) ∧
    ((¬ ∃ fault? t, (new { settings with tapeSize := size } device).Ends p fault? t) →
      ¬ ∃ fault? t, (new { settings with tapeSize := size' } device).Ends p fault? t) := by
  have hlonger : Longer (size' - size) (new { settings with tapeSize := size } device)
      (new { settings with tapeSize := size' } device) := by
    refine ⟨hsize, ?_, rfl⟩
    simp only [new, Nat.add_sub_cancel' hle]
  refine ⟨?_, fun fault t hends => hlonger.visits hp hends, ?_⟩
  · -- A run has one end, so this one does not overflow anywhere.
    intro fault? t hends hother
    refine (hlonger.ends_iff hp ?_).mpr ⟨t, hends, rfl⟩
    intro fault u hends'
    exact hother fault (hends.unique hp hends').1.symm
  · -- A run without an end does not overflow either, so an end of the other would be its own.
    rintro hnever ⟨fault?, t, hends⟩
    have hroom : ∀ fault u, (new { settings with tapeSize := size } device).Ends p (some fault) u →
        fault.isOverflow = false := fun fault u hends' => absurd ⟨_, u, hends'⟩ hnever
    obtain ⟨u, hends', -⟩ := (hlonger.ends_iff hp hroom).mp hends
    exact hnever ⟨fault?, u, hends'⟩

/-- A program that writes from its third cell. On two cells it overflows; on four it is in the same
place after as many steps, and then goes on to write. -/
theorem longer_tape_extends_third_cell :
    Program.Admissible #[⟨.increment, 7⟩, ⟨.moveRight, 2⟩, ⟨.output, 1⟩] ∧
    (new { tapeSize := 2 } (Ports.inMemory [])).Ends
      #[⟨.increment, 7⟩, ⟨.moveRight, 2⟩, ⟨.output, 1⟩] (some (.overflow 1 0 2 2))
      ⟨⟨1, 0, 1, #[7, 0]⟩, .inMemory []⟩ ∧
    (new { tapeSize := 4 } (Ports.inMemory [])).Visits
      #[⟨.increment, 7⟩, ⟨.moveRight, 2⟩, ⟨.output, 1⟩] 1
      ⟨⟨1, 0, 1, #[7, 0, 0, 0]⟩, .inMemory []⟩ := by
  have hp : Program.Admissible #[⟨.increment, 7⟩, ⟨.moveRight, 2⟩, ⟨.output, 1⟩] := by decide
  have hends : (new { tapeSize := 2 } (Ports.inMemory [])).Ends
      #[⟨.increment, 7⟩, ⟨.moveRight, 2⟩, ⟨.output, 1⟩] (some (.overflow 1 0 2 2))
      ⟨⟨1, 0, 1, #[7, 0]⟩, .inMemory []⟩ := (ends_iff hp).mpr ⟨1, _, rfl, rfl⟩
  have hvisits := (longer_tape_extends hp {} (Ports.inMemory []) (by decide : 1 ≤ 2)
    (by decide : 2 ≤ 4)).2.1 _ _ hends rfl
  exact ⟨hp, hends, hvisits⟩

end Machine

end FoldTape
