import FoldTape.Proofs.Machine.DeviceUse
import FoldTape.Proofs.Machine.Moments

/-!
# Reading past the end of the input

If the end of the input reads as zero, then the input might as well go on with zeros: a run cannot
tell whether a zero is a byte of the input or stands for its end. If the end of the input is a
fault, then a run is the same up to the first time that it gets there, and fails at that time.

## Architecture

- **§1 Padding**: a device on which zeros take the place of the ends that have been read, or may
  still be read.
- **§2 Folded input and output**: what padding does to them, and the first read at the end.
- **§3 Turns**: `State.mirrors_pad`.
- **§4 Machines**: `Machine.end_reads_as_zeros`.
-/

namespace FoldTape

/-! ## §1 Padding -/

/-- Whether the end of the input has been read. -/
def PortEvent.isEnd : PortEvent → Bool
  | .read none => true
  | .read (some _) | .wrote _ => false

/-- A zero byte in place of the end of the input. -/
def PortEvent.pad : PortEvent → PortEvent
  | .read none => .read (some 0)
  | .read (some byte) => .read (some byte)
  | .wrote value => .wrote value

/-- Bytes in memory with zero bytes after them, some of which have been taken. -/
def Source.pad (zeros taken : Nat) : Source → Source
  | .memory unread offset => .memory (unread ++ List.replicate zeros 0) (offset + taken)
  | .stream s => .stream s
  | .failing left inner => .failing left inner

/-- A byte of the input comes before the zeros. -/
theorem Source.read_pad_cons (b : UInt8) (unread : List UInt8) (offset zeros taken : Nat) :
    ((Source.memory (b :: unread) offset).pad zeros taken).read =
      .ok (some b) ((Source.memory unread (offset + 1)).pad zeros taken) := by
  simp only [pad, List.cons_append, read, Nat.add_right_comm]

/-- The bytes of the input are held in memory. -/
def Ports.FromMemory (d : Ports) : Prop := ∃ unread offset, d.source = .memory unread offset

theorem Ports.keeps_fromMemory : Device.Keeps Ports.FromMemory fun _ => True := by
  apply Ports.keeps_of_source (P := fun s => ∃ unread offset, s = .memory unread offset)
  rintro _ ⟨unread, offset, rfl⟩
  cases unread <;> exact ⟨_, _, rfl⟩

namespace Recorded

/-- How often the end of the input has been read. -/
abbrev endReads (d : Recorded Ports) : Nat := d.noted PortEvent.isEnd

/-- The device as it is if `zeros` zero bytes follow the input: one of them has been taken for every
end that has been read. -/
def pad (zeros : Nat) (d : Recorded Ports) : Recorded Ports :=
  ⟨{ d.device with source := d.device.source.pad (zeros - d.endReads) d.endReads },
    d.events.map .pad⟩

variable {d d' : Recorded Ports} {zeros : Nat}

theorem pad_eq (left : Nat) {taken : Nat} (htaken : d.endReads = taken)
    (hzeros : zeros = left + taken) :
    d.pad zeros =
      ⟨{ d.device with source := d.device.source.pad left taken }, d.events.map .pad⟩ := by
  rw [pad, htaken, hzeros, Nat.add_sub_cancel]

/-- Without zeros, and as long as no end has been read, nothing is different. -/
theorem pad_zero (hd : d.endReads = 0) : d.pad 0 = d := by
  obtain ⟨⟨source, sink⟩, events⟩ := d
  have hevents : events.map .pad = events := by
    refine (List.map_congr_left fun e he => ?_).trans (List.map_id events)
    have hother := List.countP_eq_zero.mp hd e he
    cases e with
    | wrote value => rfl
    | read byte? =>
      cases byte? with
      | some byte => rfl
      | none => exact absurd rfl hother
  have hsource : source.pad 0 0 = source := by
    cases source <;> simp [Source.pad]
  simp only [pad, hd, hevents, Nat.sub_self, hsource]

theorem consumed_pad (hd : d.device.FromMemory) :
    (d.pad zeros).device.source.consumed = d.device.source.consumed + d.endReads := by
  obtain ⟨⟨_, sink⟩, events⟩ := d
  obtain ⟨unread, offset, rfl⟩ := hd
  rfl

/-! ## §2 Folded input and output -/

/-- A write does not see the zeros. -/
theorem write_pad (value : Int) (d : Recorded Ports) :
    Device.write value (d.pad zeros) = mapLeft (pad zeros) (Device.write value d) := by
  obtain ⟨⟨source, sink⟩, events⟩ := d
  simp only [Device.write, pad]
  cases sink.write value <;> rfl

theorem writeCell_pad (cell : UInt8) (count : Nat) (d : Recorded Ports) :
    writeCell cell count (d.pad zeros) = mapLeft (pad zeros) (writeCell cell count d) :=
  writeCell_map (write_pad _) count d

/-- What a read of bytes in memory can come to. -/
inductive ReadsFromMemory (zeros : Nat) (d : Recorded Ports) : Prop
  /-- There is a byte, and it is the next one on the other device as well. -/
  | byte {b : UInt8} {d' : Recorded Ports} :
      Device.read d = .ok (some b) d' → d'.endReads = d.endReads →
      Device.read (d.pad zeros) = .ok (some b) (d'.pad zeros) → ReadsFromMemory zeros d
  /-- There is none; on the other device a zero is taken, if any is left. -/
  | ended {d' : Recorded Ports} :
      Device.read d = .ok none d' → d'.endReads = d.endReads + 1 →
      (d'.endReads ≤ zeros → Device.read (d.pad zeros) = .ok (some 0) (d'.pad zeros)) →
      ReadsFromMemory zeros d

theorem readsFromMemory (hd : d.device.FromMemory) (zeros : Nat) : ReadsFromMemory zeros d := by
  obtain ⟨⟨_, sink⟩, events⟩ := d
  obtain ⟨unread, offset, rfl⟩ := hd
  cases unread with
  | cons b unread =>
    refine .byte rfl rfl ?_
    simp only [Device.read, pad, Source.read_pad_cons]
    rfl
  | nil =>
    have hends : endReads ⟨⟨.memory [] offset, sink⟩, .read none :: events⟩ =
        endReads ⟨⟨.memory [] offset, sink⟩, events⟩ + 1 := noted_cons _ _ _ _
    refine .ended rfl hends ?_
    intro hleft
    obtain ⟨left, hleft⟩ := Nat.exists_eq_add_of_le' (Nat.le_trans (Nat.le_of_eq hends.symm) hleft)
    rw [pad_eq (left + 1) rfl (by omega), pad_eq left hends hleft]
    rfl

/-- **Reading into a cell does not see the zeros** that take the place of ends. -/
theorem readCell_pad (hd : d.device.FromMemory) (eof : EndPolicy) (cell : UInt8) (count : Nat)
    (hends : (leftBy (readCell .zero cell count d)).2.endReads ≤ zeros) :
    readCell eof cell count (d.pad zeros) =
      mapLeft (Prod.map id (pad zeros)) (readCell .zero cell count d) := by
  induction count generalizing cell d with
  | zero => rfl
  | succ count ih =>
    simp only [readCell] at hends ⊢
    cases readsFromMemory hd zeros with
    | @byte b d' hread _ hpad =>
      rw [hread] at hends ⊢
      rw [hpad]
      exact ih ((keeps Ports.keeps_fromMemory).read_ok hd hread) b hends
    | @ended d' hread _ hpad =>
      rw [hread] at hends ⊢
      -- What is read later on does not take the end back.
      have hlater := (notes_readCell .zero 0 count d').noted_le PortEvent.isEnd
      rw [hpad (Nat.le_trans hlater hends)]
      exact ih ((keeps Ports.keeps_fromMemory).read_ok hd hread) 0 hends

/-- If the end of the input is no fault, then bytes in memory can always be read. -/
theorem exists_readCell_zero (hd : d.device.FromMemory) (cell : UInt8) (count : Nat) :
    ∃ cell' d', readCell .zero cell count d = .ok () (cell', d') := by
  induction count generalizing cell d with
  | zero => exact ⟨cell, d, rfl⟩
  | succ count ih =>
    simp only [readCell]
    cases readsFromMemory hd 0 with
    | @byte b d' hread =>
      rw [hread]
      exact ih ((keeps Ports.keeps_fromMemory).read_ok hd hread) b
    | @ended d' hread =>
      rw [hread]
      exact ih ((keeps Ports.keeps_fromMemory).read_ok hd hread) 0

/-- **The first read at the end** fails if the end of the input is a fault. -/
theorem exists_readCell_error (hd : d.device.FromMemory) (cell : UInt8) (count : Nat)
    (hends : d.endReads < (leftBy (readCell .zero cell count d)).2.endReads) :
    ∃ cell' d', readCell .error cell count d = .error .endOfInput (cell', d') := by
  induction count generalizing cell d with
  | zero => exact absurd hends (Nat.lt_irrefl _)
  | succ count ih =>
    simp only [readCell] at hends ⊢
    cases readsFromMemory hd 0 with
    | @byte b d' hread hsame =>
      rw [hread] at hends ⊢
      rw [← hsame] at hends
      exact ih ((keeps Ports.keeps_fromMemory).read_ok hd hread) b hends
    | @ended d' hread =>
      rw [hread]
      exact ⟨cell, d', rfl⟩

end Recorded

/-! ## §3 Turns -/

section Turns

variable {settings : Settings} {p : Program} {s t : State (Recorded Ports)} {zeros : Nat}

namespace State

/-- The bytes of the input are held in memory. -/
def FromMemory (s : State (Recorded Ports)) : Prop := s.device.device.FromMemory

/-- **A turn does not see the zeros** that take the place of ends. -/
theorem mirrors_pad (hs : s.FromMemory) (eof : EndPolicy)
    (hends : (s.left { settings with eof := .zero } p).device.endReads ≤ zeros) :
    s.Mirrors (mapDevice (Recorded.pad zeros)) { settings with eof := .zero }
      { settings with eof } p := by
  refine mirrors_of_perform rfl rfl rfl rfl ?_
  rintro ⟨op, n⟩ hi
  refine perform_mapDevice ?_ ?_
  · intro _
    exact Recorded.writeCell_pad _ _ _
  · rintro rfl
    rw [hi.left_eq, device_perform_input] at hends
    exact Recorded.readCell_pad hs eof _ _ hends

/-- **The first turn that gets to the end of the input** goes on if the end reads as zero, and fails
if it is a fault: the current cell is all that may have changed, and nothing has been written. -/
theorem stops_endOfInput (hs : s.FromMemory)
    (hends : s.device.endReads < (s.left { settings with eof := .zero } p).device.endReads) :
    (∃ n, p[s.registers.pc]? = some ⟨.input, n⟩) ∧
      (∃ t, s.turn { settings with eof := .zero } p = .next t) ∧
      ∃ cell d, s.Stops { settings with eof := .error } p
          (some (.endOfInput s.registers.pc s.registers.pointer))
          ⟨{ s.registers with tape := s.store cell }, d⟩ ∧
        d.device.sink = s.device.device.sink := by
  -- Only an input instruction can have noted the end.
  obtain ⟨e, n, hend, hi⟩ := exists_fetches_of_noted_lt _ hends
  obtain rfl : e = .read none := by
    rcases e with (_ | _) | _ <;> first | rfl | cases hend
  have hi : s.Fetches { settings with eof := .zero } p ⟨.input, n⟩ := hi
  refine ⟨⟨n, hi.1⟩, ?_, ?_⟩
  · obtain ⟨cell, d, hread⟩ := Recorded.exists_readCell_zero hs s.cell n.toNat
    rw [hi.turn_eq, perform_input, hread]
    exact ⟨_, rfl⟩
  · rw [hi.left_eq, device_perform_input] at hends
    obtain ⟨cell, d, hread⟩ := Recorded.exists_readCell_error hs s.cell n.toNat hends
    have hi' : s.Fetches { settings with eof := .error } p ⟨.input, n⟩ := hi
    have hsink := Recorded.sink_readCell s.device s.cell n.toNat .error
    rw [hread] at hsink
    refine ⟨cell, d, ?_, hsink⟩
    rw [stops_some_iff, hi'.turn_eq, perform_input, hread]
    rfl

end State

/-! ## §4 Machines -/

namespace Machine

variable {input : List UInt8} {n : Nat} {fault? : Option Fault}

theorem Visits.fromMemory (hs : (noting settings (.inMemory input)).Visits p n s) :
    s.FromMemory :=
  hs.holds (Recorded.keeps Ports.keeps_fromMemory) ⟨input, 0, rfl⟩

theorem Ends.fromMemory (h : (noting settings (.inMemory input)).Ends p fault? t) :
    t.FromMemory := by
  obtain ⟨fuel, report, hrun, -, rfl⟩ := h
  exact (execute_holds (Recorded.keeps Ports.keeps_fromMemory) ⟨input, 0, rfl⟩ hrun).1

section Padding

variable {zeros : Nat} (eof : EndPolicy)

/-- **Zeros instead of ends**: a run that reads the end as zero, and does so no more often than
there are zeros, is the run that has these after its input. -/
theorem Ends.pad (hp : p.Admissible)
    (h : (noting { settings with eof := .zero } (.inMemory input)).Ends p fault? t)
    (hzeros : t.device.endReads ≤ zeros) :
    (noting { settings with eof } (.inMemory (input ++ List.replicate zeros 0))).Ends p fault?
      (t.mapDevice (.pad zeros)) := by
  refine (ends_map_iff hp rfl ?_).mpr ⟨t, h, rfl⟩
  intro n s hs
  -- At the end of the run the end has been read as often as after any turn, or more often.
  have hends := h.left_le hp (State.noted_le_left PortEvent.isEnd) hs
  exact State.mirrors_pad hs.fromMemory eof (Nat.le_trans hends hzeros)

/-- Up to a turn that reads the end too often it goes along with it. -/
theorem Visits.pad (hs : (noting { settings with eof := .zero } (.inMemory input)).Visits p n s)
    (hbefore : ∀ k < n, ∀ r,
      (noting { settings with eof := .zero } (.inMemory input)).Visits p k r →
      (r.left { settings with eof := .zero } p).device.endReads ≤ zeros) :
    (noting { settings with eof } (.inMemory (input ++ List.replicate zeros 0))).Visits p n
      (s.mapDevice (.pad zeros)) := by
  refine hs.map rfl ?_
  intro k hk r hr
  exact State.mirrors_pad hr.fromMemory eof (hbefore k hk r hr)

end Padding

/-- Before the end has been read there is nothing to take the place of. -/
theorem mapDevice_pad_zero (hnone : s.device.endReads = 0) : s.mapDevice (.pad 0) = s := by
  rw [State.mapDevice, Recorded.pad_zero hnone]

/-- **The end of the input reads as zeros, or it cuts the run off.** For every program, every input
and all other settings, of a run that reads the end of its input as zero and ends having done so `r`
times:

- with at least `r` zeros after the input the run ends in the same way, whatever the end of the
  input is taken for, and takes `r` bytes more;
- if `r` is zero, then the run is the same if the end of the input is a fault;
- otherwise that run fails at the input instruction at which the end is read for the first time,
  with what has been written before. -/
theorem end_reads_as_zeros (hp : p.Admissible) (settings : Settings) (input : List UInt8)
    {fault? : Option Fault} {t : State (Recorded Ports)}
    (hends : (noting { settings with eof := .zero } (.inMemory input)).Ends p fault? t) :
    (∀ zeros, t.device.endReads ≤ zeros → ∀ eof, ∃ t',
      (noting { settings with eof } (.inMemory (input ++ List.replicate zeros 0))).Ends p
        fault? t' ∧
      t'.registers = t.registers ∧
      t'.device.device.sink = t.device.device.sink ∧
      t'.device.device.source.consumed =
        t.device.device.source.consumed + t.device.endReads) ∧
    (t.device.endReads = 0 →
      (noting { settings with eof := .error } (.inMemory input)).Ends p fault? t) ∧
    (0 < t.device.endReads → ∃ n s s' t',
      (noting { settings with eof := .zero } (.inMemory input)).Visits p n s ∧
      (noting { settings with eof := .zero } (.inMemory input)).Visits p (n + 1) s' ∧
      s.device.endReads = 0 ∧ 0 < s'.device.endReads ∧
      (∃ amount, p[s.registers.pc]? = some ⟨.input, amount⟩) ∧
      (noting { settings with eof := .error } (.inMemory input)).Ends p
        (some (.endOfInput s.registers.pc s.registers.pointer)) t' ∧
      (∃ cell, t'.registers = { s.registers with tape := s.store cell }) ∧
      t'.device.device.sink = s.device.device.sink) := by
  refine ⟨?_, ?_, ?_⟩
  · -- The zeros take the place of all ends that are read.
    intro zeros hzeros eof
    have hconsumed : (t.device.pad zeros).device.source.consumed = _ :=
      Recorded.consumed_pad hends.fromMemory
    exact ⟨_, Ends.pad eof hp hends hzeros, rfl, rfl, hconsumed⟩
  · -- No zeros are needed, and then the policy does not matter.
    intro hnone
    have hpad := Ends.pad .error hp hends (Nat.le_of_eq hnone)
    rwa [List.replicate_zero, List.append_nil, mapDevice_pad_zero hnone] at hpad
  · intro hpositive
    obtain ⟨N, last, hlast, hstops⟩ := (ends_iff_visits hp).mp hends
    rw [← hstops.left_eq] at hpositive
    -- The first turn that reads the end begins where it has not been read yet.
    obtain ⟨n, s, hs, hwithin, hfirst, hbefore⟩ :=
      hlast.exists_crossing (μ := fun s => s.device.endReads) (Nat.le_refl 0) hpositive
    have hnone : s.device.endReads = 0 := Nat.le_zero.mp hwithin
    obtain ⟨hinput, ⟨s', hnext⟩, cell, d, hcut, hsink⟩ :=
      State.stops_endOfInput hs.fromMemory (Nat.lt_of_le_of_lt hwithin hfirst)
    -- Up to there no zeros are needed, so the other run gets there as well.
    have hpad := Visits.pad .error hs hbefore
    rw [List.replicate_zero, List.append_nil, mapDevice_pad_zero hnone] at hpad
    refine ⟨n, s, s', _, hs, hs.succ hnext, hnone, ?_, hinput,
      (ends_iff_visits hp).mpr ⟨n, s, hpad, hcut⟩, ⟨cell, rfl⟩, hsink⟩
    rw [← State.left_of_next hnext]
    exact hfirst

/-- A program that asks for three bytes where there is one, and writes the last. The end is read
twice, so two zeros after the input do as well; if the end is a fault, then the run fails. -/
theorem end_reads_as_zeros_short_input :
    Program.Admissible #[⟨.input, 3⟩, ⟨.output, 1⟩] ∧
    (∃ t, (noting { tapeSize := 1, eof := .zero } (.inMemory [65])).Ends
        #[⟨.input, 3⟩, ⟨.output, 1⟩] none t ∧ t.device.endReads = 2) ∧
    (∃ t', (noting { tapeSize := 1 } (.inMemory [65, 0, 0])).Ends
        #[⟨.input, 3⟩, ⟨.output, 1⟩] none t' ∧
      t'.registers = ⟨2, 0, 2, #[0]⟩ ∧ t'.device.device.source.consumed = 3) ∧
    ∃ pc pointer t', (noting { tapeSize := 1 } (.inMemory [65])).Ends
        #[⟨.input, 3⟩, ⟨.output, 1⟩] (some (.endOfInput pc pointer)) t' := by
  have hp : Program.Admissible #[⟨.input, 3⟩, ⟨.output, 1⟩] := by decide
  have hends : (noting { tapeSize := 1, eof := .zero } (.inMemory [65])).Ends
      #[⟨.input, 3⟩, ⟨.output, 1⟩] none
      ⟨⟨2, 0, 2, #[0]⟩, ⟨⟨.memory [] 1, .memory #[0]⟩,
        [.wrote 0, .read none, .read none, .read (some 65)]⟩⟩ := (ends_iff hp).mpr ⟨2, _, rfl, rfl⟩
  obtain ⟨hpad, -, hcut⟩ := end_reads_as_zeros hp { tapeSize := 1 } [65] hends
  obtain ⟨t', hends', hregisters, -, hconsumed⟩ := hpad 2 (Nat.le_refl 2) .error
  obtain ⟨n, s, s', u, -, -, -, -, -, hfail, -⟩ := hcut (by decide)
  exact ⟨hp, ⟨_, hends, rfl⟩, ⟨t', hends', hregisters, hconsumed⟩, _, _, u, hfail⟩

end Machine

end Turns

end FoldTape
