import FoldTape.Proofs.Machine.DeviceUse

/-!
# Ports that fail after a number of uses

A port may work for a number of reads or writes and fail from then on. A run that gets by with
these does not notice. Any other run is cut off at the first read or write too many, however far
the folded instruction has got by then: what it has read and written stays, and it is not counted.

## Architecture

- **§1 Ports with a limit**: `Recorded.limit`, a device on which so many uses of a port are left as
  have not been made yet.
- **§2 Reads and writes**: below the limit and at the limit.
- **§3 Folded input and output**: within the limit, and across it.
- **§4 Turns**: `State.mirrors_limit` and `State.stops_limit`.
- **§5 Machines**: `Machine.failing_port_cuts`.
-/

namespace FoldTape

/-! ## §1 Ports with a limit -/

/-- One of the two ports of a device. -/
inductive Port where
  | source
  | sink
  deriving DecidableEq, Repr

namespace Port

/-- The operator of the instructions that use a port. -/
def operator : Port → Operator
  | source => .input
  | sink => .output

/-- How a port fails after a number of uses. -/
def error : Port → PortError
  | source => .notReady
  | sink => .closedSink

/-- Leaves a number of uses to a port. -/
def limit (left : Nat) : Port → Ports → Ports
  | source, d => { d with source := .failing left d.source }
  | sink, d => { d with sink := .failing left d.sink }

/-- Whether an event is a use of a port. -/
def isUse (port : Port) (e : PortEvent) : Bool := e.operator == port.operator

end Port

namespace Recorded

/-- How often a port has been used; a read at the end of the input is a use as well. -/
abbrev uses (port : Port) (d : Recorded Ports) : Nat := d.noted port.isUse

/-- The device as it is if a port works `n` times only, counting from the start of the notes. -/
def limit (port : Port) (n : Nat) (d : Recorded Ports) : Recorded Ports :=
  ⟨port.limit (n - d.uses port) d.device, d.events⟩

/-- Everything that has been written. -/
def output (d : Recorded Ports) : List UInt8 := d.device.sink.written.toList

/-- How many bytes of input have been taken. -/
def consumed (d : Recorded Ports) : Nat := d.device.source.consumed

variable {port : Port} {d d' : Recorded Ports} {n : Nat}

@[simp] theorem output_limit : (d.limit port n).output = d.output := by
  cases port <;> rfl

@[simp] theorem consumed_limit : (d.limit port n).consumed = d.consumed := by
  cases port <;> rfl

/-- A write is one more use of the sink. -/
theorem uses_wrote (device : Ports) (value : Int) (d : Recorded Ports) :
    uses .sink ⟨device, .wrote value :: d.events⟩ = d.uses .sink + 1 :=
  noted_cons _ _ _ _

/-- A read is one more use of the source, whether or not there is a byte. -/
theorem uses_read (device : Ports) (byte? : Option UInt8) (d : Recorded Ports) :
    uses .source ⟨device, .read byte? :: d.events⟩ = d.uses .source + 1 :=
  noted_cons _ _ _ _

theorem limit_eq (left : Nat) {used : Nat} (hused : d.uses port = used) (hn : n = left + used) :
    d.limit port n = ⟨port.limit left d.device, d.events⟩ := by
  rw [limit, hused, hn, Nat.add_sub_cancel]

/-! ## §2 Reads and writes -/

/-- A sink that works takes every byte. -/
theorem exists_write (hd : d.device.Works) (byte : UInt8) :
    ∃ sink, d.device.sink.write byte.toNat = .ok () sink ∧
      sink.written = d.device.sink.written.push byte ∧
      Device.write (byte.toNat : Int) d =
        .ok () ⟨{ d.device with sink }, .wrote byte.toNat :: d.events⟩ := by
  obtain ⟨sink, hwrite, -, hwritten⟩ := hd.sink.write byte
  refine ⟨sink, hwrite, hwritten, ?_⟩
  simp only [Device.write, hwrite]

/-- A source that works gives a byte, or says that there is none. -/
theorem exists_read (hd : d.device.Works) :
    ∃ byte? source, d.device.source.read = .ok byte? source ∧
      Device.read d = .ok byte? ⟨{ d.device with source }, .read byte? :: d.events⟩ := by
  obtain ⟨source, hread, -⟩ := hd.source.read
  refine ⟨_, source, hread, ?_⟩
  simp only [Device.read, hread]

/-- A write within the limit. -/
theorem write_limit (port : Port) (hd : d.device.Works) (byte : UInt8)
    (h : (leftBy (Device.write (byte.toNat : Int) d)).uses port ≤ n) :
    Device.write (byte.toNat : Int) (d.limit port n) =
      mapLeft (limit port n) (Device.write (byte.toNat : Int) d) := by
  obtain ⟨sink, hsink, -, hwrite⟩ := exists_write hd byte
  rw [hwrite] at h ⊢
  cases port with
  | source =>
    simp only [Device.write, limit, Port.limit, hsink]
    rfl
  | sink =>
    have huses := uses_wrote { d.device with sink } byte.toNat d
    obtain ⟨left, hleft⟩ := Nat.exists_eq_add_of_le' (Nat.le_trans (Nat.le_of_eq huses.symm) h)
    rw [limit_eq (left + 1) rfl (by omega), mapLeft, limit_eq left huses hleft]
    simp only [Device.write, Port.limit, Sink.write, hsink]

/-- A read within the limit. -/
theorem read_limit (port : Port) (hd : d.device.Works)
    (h : (leftBy (Device.read d)).uses port ≤ n) :
    Device.read (d.limit port n) = mapLeft (limit port n) (Device.read d) := by
  obtain ⟨byte?, source, hsource, hread⟩ := exists_read hd
  rw [hread] at h ⊢
  cases port with
  | sink =>
    simp only [Device.read, limit, Port.limit, hsource]
    rfl
  | source =>
    have huses := uses_read { d.device with source } byte? d
    obtain ⟨left, hleft⟩ := Nat.exists_eq_add_of_le' (Nat.le_trans (Nat.le_of_eq huses.symm) h)
    rw [limit_eq (left + 1) rfl (by omega), mapLeft, limit_eq left huses hleft]
    simp only [Device.read, Port.limit, Source.read, hsource]

/-- One write too many. -/
theorem write_limit_full (hd : d.uses .sink = n) (value : Int) :
    Device.write value (d.limit .sink n) = .error .closedSink (d.limit .sink n) := by
  rw [limit_eq 0 hd (Nat.zero_add n).symm]
  rfl

/-- One read too many. -/
theorem read_limit_full (hd : d.uses .source = n) :
    Device.read (d.limit .source n) = .error .notReady (d.limit .source n) := by
  rw [limit_eq 0 hd (Nat.zero_add n).symm]
  rfl

/-- Both ports work, and there is one byte of output for every write that has been noted. -/
structure Counts (before : Nat) (d : Recorded Ports) : Prop where
  works : d.device.Works
  length : d.output.length = before + d.uses .sink

theorem keeps_counts (before : Nat) : Device.Keeps (Counts before) fun _ => True where
  read_ok := by
    intro d d' byte? hd h
    have hworks := (keeps Ports.keeps_works).read_ok hd.works h
    obtain ⟨byte?, source, -, hread⟩ := exists_read hd.works
    rw [hread] at h
    cases h
    exact ⟨hworks, hd.length⟩
  read_error := by
    intro d d' e hd h
    obtain ⟨byte?, source, -, hread⟩ := exists_read hd.works
    rw [hread] at h
    cases h
  write_ok := by
    intro d d' byte hd h
    have hworks := (keeps Ports.keeps_works).write_ok hd.works h
    obtain ⟨sink, -, hwritten, hwrite⟩ := exists_write hd.works byte
    rw [hwrite] at h
    cases h
    refine ⟨hworks, ?_⟩
    rw [uses_wrote, ← Nat.add_assoc, ← hd.length]
    simp only [output, hwritten, Array.toList_push, List.length_append, List.length_singleton]
  write_error := by
    intro d d' e byte hd h
    obtain ⟨sink, -, -, hwrite⟩ := exists_write hd.works byte
    rw [hwrite] at h
    cases h

/-! ## §3 Folded input and output -/

/-- Writing a cell a number of times takes nothing back. -/
theorem later_writeCell (cell : UInt8) (count : Nat) (d : Recorded Ports) :
    d.device.Later (leftBy (writeCell cell count d)).device :=
  writeCell_keeps (P := fun d' : Recorded Ports => d.device.Later d'.device)
    (fun _ => (keeps (Ports.keeps_later d.device)).write cell) (Ports.Later.refl _) count

/-- Reading into a cell a number of times takes nothing back. -/
theorem later_readCell (eof : EndPolicy) (cell : UInt8) (count : Nat) (d : Recorded Ports) :
    d.device.Later (leftBy (readCell eof cell count d)).2.device :=
  readCell_keeps (P := fun d' : Recorded Ports => d.device.Later d'.device)
    (fun _ => (keeps (Ports.keeps_later d.device)).read) (Ports.Later.refl _) eof cell count

/-- Writing a cell a number of times, all within the limit. -/
theorem writeCell_limit (hd : d.device.Works) (cell : UInt8) (count : Nat)
    (h : (leftBy (writeCell cell count d)).uses port ≤ n) :
    writeCell cell count (d.limit port n) = mapLeft (limit port n) (writeCell cell count d) := by
  induction count generalizing d with
  | zero => rfl
  | succ count ih =>
    obtain ⟨sink, -, -, hwrite⟩ := exists_write hd cell
    simp only [writeCell, hwrite] at h ⊢
    -- What is written later on is not taken back.
    have hlater := Nat.le_trans ((notes_writeCell cell count _).noted_le port.isUse) h
    rw [write_limit port hd cell (by rw [hwrite]; exact hlater), hwrite]
    exact ih ((keeps Ports.keeps_works).write_ok hd hwrite) h

/-- Reading into a cell a number of times, all within the limit. -/
theorem readCell_limit (hd : d.device.Works) (eof : EndPolicy) (cell : UInt8) (count : Nat)
    (h : (leftBy (readCell eof cell count d)).2.uses port ≤ n) :
    readCell eof cell count (d.limit port n) =
      mapLeft (Prod.map id (limit port n)) (readCell eof cell count d) := by
  induction count generalizing cell d with
  | zero => rfl
  | succ count ih =>
    obtain ⟨byte?, source, -, hread⟩ := exists_read hd
    have hlimit := read_limit (n := n) port hd
    rw [hread] at hlimit
    rcases readCell_succ_cases (δ := Recorded Ports) eof cell byte? with ⟨rfl, rfl⟩ | ⟨next, hnext⟩
    · simp only [readCell, hread] at h ⊢
      rw [hlimit h]
      rfl
    · rw [hnext hread] at h ⊢
      have hlater := Nat.le_trans ((notes_readCell eof next count _).noted_le port.isUse) h
      rw [hnext (hlimit hlater)]
      exact ih ((keeps Ports.keeps_works).read_ok hd hread) next h

/-- **Writing a cell across the limit**: some of the writes are made, and the next one fails. -/
theorem writeCell_limit_cut (hd : d.device.Works) (cell : UInt8) (count : Nat)
    (hwithin : d.uses .sink ≤ n) (h : n < (leftBy (writeCell cell count d)).uses .sink) :
    ∃ j u, j < count ∧ writeCell cell j d = .ok () u ∧ u.uses .sink = n ∧
      u.device.Later (leftBy (writeCell cell count d)).device ∧
      writeCell cell count (d.limit .sink n) = .error .closedSink (u.limit .sink n) := by
  -- Induction on the writes that are left; those made so far are within the limit.
  induction count generalizing d with
  | zero => exact absurd (Nat.lt_of_le_of_lt hwithin h) (Nat.lt_irrefl _)
  | succ count ih =>
    rcases Nat.lt_or_eq_of_le hwithin with hlt | hfull
    · obtain ⟨sink, -, -, hwrite⟩ := exists_write hd cell
      have hwithin' : uses .sink ⟨{ d.device with sink }, .wrote cell.toNat :: d.events⟩ ≤ n := by
        rw [uses_wrote]
        exact hlt
      have hlimit := write_limit (n := n) .sink hd cell (by rw [hwrite]; exact hwithin')
      simp only [writeCell, hwrite] at h
      obtain ⟨j, u, hj, hmade, hfull, hlater, hfails⟩ :=
        ih ((keeps Ports.keeps_works).write_ok hd hwrite) hwithin' h
      refine ⟨j + 1, u, Nat.succ_lt_succ hj, ?_, hfull, ?_, ?_⟩
      · simpa only [writeCell, hwrite] using hmade
      · simpa only [writeCell, hwrite] using hlater
      · simpa only [writeCell, hlimit, hwrite, mapLeft] using hfails
    · -- The limit has been reached, so nothing is written any more.
      refine ⟨0, d, Nat.succ_pos count, rfl, hfull, later_writeCell cell _ d, ?_⟩
      simp only [writeCell, write_limit_full hfull]

/-- **Reading into a cell across the limit**: some of the reads are made, and the next one fails. -/
theorem readCell_limit_cut (hd : d.device.Works) (eof : EndPolicy) (cell : UInt8) (count : Nat)
    (hwithin : d.uses .source ≤ n)
    (h : n < (leftBy (readCell eof cell count d)).2.uses .source) :
    ∃ j cell' u, j < count ∧ readCell eof cell j d = .ok () (cell', u) ∧ u.uses .source = n ∧
      u.device.Later (leftBy (readCell eof cell count d)).2.device ∧
      readCell eof cell count (d.limit .source n) =
        .error (.port .notReady) (cell', u.limit .source n) := by
  -- As for writes, but here the cell changes with each read.
  induction count generalizing cell d with
  | zero => exact absurd (Nat.lt_of_le_of_lt hwithin h) (Nat.lt_irrefl _)
  | succ count ih =>
    rcases Nat.lt_or_eq_of_le hwithin with hlt | hfull
    · obtain ⟨byte?, source, -, hread⟩ := exists_read hd
      have hwithin' : uses .source ⟨{ d.device with source }, .read byte? :: d.events⟩ ≤ n := by
        rw [uses_read]
        exact hlt
      have hlimit := read_limit (n := n) .source hd (by rw [hread]; exact hwithin')
      rw [hread] at hlimit
      rcases readCell_succ_cases (δ := Recorded Ports) eof cell byte? with
        ⟨rfl, rfl⟩ | ⟨next, hnext⟩
      · -- The end of the input ends the instruction within the limit.
        simp only [readCell, hread] at h
        exact absurd (Nat.lt_of_le_of_lt hwithin' h) (Nat.lt_irrefl _)
      · rw [hnext hread] at h ⊢
        obtain ⟨j, cell', u, hj, hmade, hfull, hlater, hfails⟩ :=
          ih ((keeps Ports.keeps_works).read_ok hd hread) next hwithin' h
        refine ⟨j + 1, cell', u, Nat.succ_lt_succ hj, ?_, hfull, hlater, ?_⟩
        · rw [hnext hread, hmade]
        · rw [hnext hlimit, hfails]
    · -- The limit has been reached, so nothing is read any more.
      refine ⟨0, cell, d, Nat.succ_pos count, rfl, hfull, later_readCell eof cell _ d, ?_⟩
      simp only [readCell, read_limit_full hfull]

end Recorded

/-! ## §4 Turns -/

section Turns

variable {settings : Settings} {p : Program} {s t : State (Recorded Ports)} {port : Port} {n : Nat}

namespace State

/-- Both ports work. -/
def Works (s : State (Recorded Ports)) : Prop := s.device.device.Works

/-- **A turn within the limit** does not notice it. -/
theorem mirrors_limit (hs : s.Works) (h : (s.left settings p).device.uses port ≤ n) :
    s.Mirrors (mapDevice (Recorded.limit port n)) settings settings p := by
  refine mirrors_of_perform rfl rfl rfl rfl ?_
  rintro ⟨op, m⟩ hi
  refine perform_mapDevice ?_ ?_
  · rintro rfl
    rw [hi.left_eq, device_perform_output] at h
    exact Recorded.writeCell_limit hs _ _ h
  · rintro rfl
    rw [hi.left_eq, device_perform_input] at h
    exact Recorded.readCell_limit hs _ _ _ h

/-- A turn across the limit: the instruction at hand uses the port, and only the first `made` of its
repetitions can be made. They lead to `u`. -/
structure Crosses (settings : Settings) (p : Program) (port : Port) (n : Nat)
    (s : State (Recorded Ports)) (made : Nat) (u : State (Recorded Ports)) : Prop where
  within : s.device.uses port ≤ n
  beyond : n < (s.left settings p).device.uses port
  /-- The instruction asks for more than can be made. -/
  instruction : ∃ m, p[s.registers.pc]? = some ⟨port.operator, m⟩ ∧ made < m.toNat
  /-- What can be made is made as if nothing more had been asked for. -/
  made : s.perform settings.eof ⟨port.operator, made⟩ = .next u
  full : u.device.uses port = n
  /-- It is a part of what the whole instruction does on a port that goes on to work. -/
  later : u.device.device.Later (s.left settings p).device.device

/-- **A turn across the limit** fails, with what has been made up to there. -/
theorem stops_limit (hs : s.Works) (hwithin : s.device.uses port ≤ n)
    (hbeyond : n < (s.left settings p).device.uses port) :
    ∃ made u, s.Crosses settings p port n made u ∧
      (s.mapDevice (Recorded.limit port n)).Stops settings p (some (.port port.error))
        ⟨{ s.registers with tape := u.registers.tape }, u.device.limit port n⟩ := by
  -- The new notes tell which instruction is at hand.
  obtain ⟨e, m, huse, hi⟩ :=
    exists_fetches_of_noted_lt port.isUse (Nat.lt_of_le_of_lt hwithin hbeyond)
  rw [show e.operator = port.operator from beq_iff_eq.mp huse] at hi
  have hi' : (s.mapDevice (Recorded.limit port n)).Fetches settings p ⟨port.operator, m⟩ := hi
  have hcell : (s.mapDevice (Recorded.limit port n)).cell = s.cell := rfl
  cases port with
  | sink =>
    have hdevice : (s.left settings p).device = leftBy (writeCell s.cell m.toNat s.device) := by
      rw [hi.left_eq, Port.operator, device_perform_output]
    obtain ⟨j, u, hj, hmade, hfull, hlater, hfails⟩ :=
      Recorded.writeCell_limit_cut hs s.cell m.toNat hwithin (hdevice ▸ hbeyond)
    refine ⟨j, s.advance (s.registers.pc + 1) s.registers.pointer s.registers.tape u,
      ⟨hwithin, hbeyond, ⟨m, hi.1, hj⟩, ?_, hfull, hdevice ▸ hlater⟩, ?_⟩
    · rw [Port.operator, perform_output, Int.toNat_natCast, hmade]
    · rw [stops_some_iff, hi'.turn_eq, Port.operator, perform_output, hcell]
      simp only [mapDevice, hfails]
      rfl
  | source =>
    have hdevice : (s.left settings p).device =
        (leftBy (readCell settings.eof s.cell m.toNat s.device)).2 := by
      rw [hi.left_eq, Port.operator, device_perform_input]
    obtain ⟨j, cell, u, hj, hmade, hfull, hlater, hfails⟩ :=
      Recorded.readCell_limit_cut hs settings.eof s.cell m.toNat hwithin (hdevice ▸ hbeyond)
    refine ⟨j, s.advance (s.registers.pc + 1) s.registers.pointer (s.store cell) u,
      ⟨hwithin, hbeyond, ⟨m, hi.1, hj⟩, ?_, hfull, hdevice ▸ hlater⟩, ?_⟩
    · rw [Port.operator, perform_input, Int.toNat_natCast, hmade]
    · rw [stops_some_iff, hi'.turn_eq, Port.operator, perform_input, hcell]
      simp only [mapDevice, hfails]
      rfl

/-- Output that is cut off: nothing has happened but that the first bytes have been written. -/
theorem Crosses.of_sink {made : Nat} {u : State (Recorded Ports)}
    (h : s.Crosses settings p .sink n made u) :
    u.registers.tape = s.registers.tape ∧ u.device.consumed = s.device.consumed := by
  have hmade := h.made
  have hsource := Recorded.source_writeCell s.device s.cell made
  rw [Port.operator, perform_output, Int.toNat_natCast] at hmade
  split at hmade
  · rename_i hwrite
    rw [hwrite] at hsource
    cases hmade
    exact ⟨rfl, congrArg Source.consumed hsource⟩
  · cases hmade

/-- Input that is cut off: nothing has been written. -/
theorem Crosses.of_source {made : Nat} {u : State (Recorded Ports)}
    (h : s.Crosses settings p .source n made u) : u.device.output = s.device.output := by
  have hmade := h.made
  have hsink := Recorded.sink_readCell s.device s.cell made settings.eof
  rw [Port.operator, perform_input, Int.toNat_natCast] at hmade
  split at hmade
  · rename_i hread
    rw [hread] at hsink
    cases hmade
    exact congrArg (fun sink => sink.written.toList) hsink
  · cases hmade

end State

end Turns

/-! ## §5 Machines -/

namespace Machine

variable {settings : Settings} {ports : Ports} {p : Program} {s : State (Recorded Ports)}
  {port : Port} {k n : Nat}

/-- The run uses a port more than `n` times. -/
def Exceeds (m : Machine (Recorded Ports)) (p : Program) (port : Port) (n : Nat) : Prop :=
  ∃ k s, m.Visits p k s ∧ n < (s.left m.settings p).device.uses port

/-- Output that begins with what was there before and goes on with `n` bytes, as the longer one
does. -/
theorem exists_take_of_prefix {before out out' : List UInt8} (hbefore : before <+: out)
    (hout : out <+: out') (hlength : out.length = before.length + n)
    (hlonger : out.length < out'.length) :
    ∃ bytes, out' = before ++ bytes ∧ n < bytes.length ∧ out = before ++ bytes.take n := by
  obtain ⟨first, rfl⟩ := hbefore
  obtain ⟨rest, rfl⟩ := hout
  have hfirst : first.length = n := by
    rw [List.length_append] at hlength
    omega
  refine ⟨first ++ rest, List.append_assoc _ _ _, ?_, ?_⟩
  · simp only [List.length_append] at hlonger ⊢
    omega
  · rw [List.take_left' hfirst]

/-- Output that is cut off is the first `n` bytes of what is written otherwise. -/
theorem Visits.exists_output_of_crosses (hports : ports.Works)
    (hs : (noting settings ports).Visits p k s) {made : Nat} {u : State (Recorded Ports)}
    (hcross : s.Crosses settings p .sink n made u) :
    ∃ bytes, (s.left settings p).device.output = ports.sink.written.toList ++ bytes ∧
      n < bytes.length ∧ u.device.output = ports.sink.written.toList ++ bytes.take n := by
  -- What the ports keep is kept by the repetitions that are made, as well as by the whole turn.
  have hmade : ∀ {P : Recorded Ports → Prop} {Q : PortError → Prop}, Device.Keeps P Q →
      P s.device → P u.device := by
    intro P Q hP hd
    have hu := State.perform_keeps hP hd settings.eof ⟨Port.sink.operator, made⟩
    rwa [hcross.made] at hu
  -- Bytes are counted against notes, and `n` writes have been noted when the sink is full.
  have hcounts := Recorded.keeps_counts ports.sink.written.toList.length
  have hlater := Recorded.keeps (Ports.keeps_later ports)
  have hscounts := hs.holds hcounts ⟨hports, rfl⟩
  have hleft : Recorded.Counts _ (s.left settings p).device :=
    State.left_keeps hcounts hscounts
  have hbeyond := hcross.beyond
  have hlength := (hmade hcounts hscounts).length
  rw [hcross.full] at hlength
  refine exists_take_of_prefix (hmade hlater (hs.holds hlater (Ports.Later.refl ports))).sink
    hcross.later.sink hlength ?_
  show u.device.output.length < (s.left settings p).device.output.length
  rw [hlength, hleft.length]
  exact Nat.add_lt_add_left hbeyond _

/-- **A port that fails after `n` uses cuts a run off at exactly that read or write.** For every
program, all settings and all ports that work otherwise:

- a run that does not exceed `n` uses ends in the same way and in the same state, or does not end;
- any other run, whether or not it would have ended, fails as the port does, at the instruction that
  is the first to exceed `n` uses. This is not counted. The tape, the output and what has been taken
  of the input are as if the instruction had been asked for only as many repetitions as it could
  make.

If it is the sink that fails, then the tape and the input are as before the instruction, and the
output is the first `n` bytes that are written otherwise. If it is the source, then the output is
as before the instruction. -/
theorem failing_port_cuts (hp : p.Admissible) (settings : Settings) {ports : Ports}
    (hports : ports.Works) (port : Port) (n : Nat) :
    (¬ (noting settings ports).Exceeds p port n →
      (∀ fault? t, (noting settings ports).Ends p fault? t →
        ∃ t', (noting settings (port.limit n ports)).Ends p fault? t' ∧
          t'.registers = t.registers ∧ t'.device.output = t.device.output ∧
          t'.device.consumed = t.device.consumed) ∧
      ((∃ fault? t', (noting settings (port.limit n ports)).Ends p fault? t') →
        ∃ fault? t, (noting settings ports).Ends p fault? t)) ∧
    ((noting settings ports).Exceeds p port n → ∃ k s made u t',
      (noting settings ports).Visits p k s ∧ s.Crosses settings p port n made u ∧
      (noting settings (port.limit n ports)).Ends p (some (.port port.error)) t' ∧
      t'.registers = { s.registers with tape := u.registers.tape } ∧
      t'.device.output = u.device.output ∧ t'.device.consumed = u.device.consumed ∧
      (port = .sink →
        u.registers.tape = s.registers.tape ∧ u.device.consumed = s.device.consumed ∧
        ∃ bytes, (s.left settings p).device.output = ports.sink.written.toList ++ bytes ∧
          n < bytes.length ∧
          u.device.output = ports.sink.written.toList ++ bytes.take n) ∧
      (port = .source → u.device.output = s.device.output)) := by
  have hstart : (noting settings (port.limit n ports)).reset.state =
      (noting settings ports).reset.state.mapDevice (.limit port n) := by
    cases port <;> rfl
  have hworks : ∀ {k s}, (noting settings ports).Visits p k s → s.Works :=
    fun hs => hs.holds (Recorded.keeps Ports.keeps_works) hports
  constructor
  · -- No turn is beyond the limit, so the two runs go on side by side to the end.
    intro hnot
    have hmirrors : ∀ k s, (noting settings ports).Visits p k s →
        s.Mirrors (State.mapDevice (Recorded.limit port n)) settings settings p := by
      intro k s hs
      exact State.mirrors_limit (hworks hs) (Nat.le_of_not_lt fun hlt => hnot ⟨k, s, hs, hlt⟩)
    constructor
    · intro fault? t hends
      exact ⟨_, (ends_map_iff hp hstart hmirrors).mpr ⟨t, hends, rfl⟩, rfl, Recorded.output_limit,
        Recorded.consumed_limit⟩
    · rintro ⟨fault?, t', hends'⟩
      obtain ⟨t, hends, -⟩ := (ends_map_iff hp hstart hmirrors).mp hends'
      exact ⟨fault?, t, hends⟩
  · -- They do so up to the first turn beyond the limit, whatever comes after it.
    rintro ⟨k, r, hr, hbeyond⟩
    obtain ⟨k, s, hs, hwithin, hbeyond, hbefore⟩ :=
      hr.exists_crossing (μ := fun s => s.device.uses port) (Nat.zero_le n) hbeyond
    obtain ⟨made, u, hcross, hstops⟩ := State.stops_limit (hworks hs) hwithin hbeyond
    have hs' := hs.map hstart fun j hj q hq => State.mirrors_limit (hworks hq) (hbefore j hj q hq)
    refine ⟨k, s, made, u, _, hs, hcross, (ends_iff_visits hp).mpr ⟨k, _, hs', hstops⟩, rfl,
      Recorded.output_limit, Recorded.consumed_limit, ?_, ?_⟩
    · rintro rfl
      obtain ⟨htape, hconsumed⟩ := hcross.of_sink
      exact ⟨htape, hconsumed, hs.exists_output_of_crosses hports hcross⟩
    · rintro rfl
      exact hcross.of_source

/-- A program that writes a byte three times to a sink that takes two. -/
theorem failing_port_cuts_third_write :
    Program.Admissible #[⟨.increment, 65⟩, ⟨.output, 3⟩] ∧
    (Ports.inMemory []).Works ∧
    (noting { tapeSize := 1 } (.inMemory [])).Exceeds #[⟨.increment, 65⟩, ⟨.output, 3⟩] .sink 2 ∧
    ∃ t', (noting { tapeSize := 1 } (Port.sink.limit 2 (.inMemory []))).Ends
        #[⟨.increment, 65⟩, ⟨.output, 3⟩] (some (.port .closedSink)) t' ∧
      t'.device.output.length = 2 := by
  have hp : Program.Admissible #[⟨.increment, 65⟩, ⟨.output, 3⟩] := by decide
  have hexceeds : (noting { tapeSize := 1 } (.inMemory [])).Exceeds
      #[⟨.increment, 65⟩, ⟨.output, 3⟩] .sink 2 := ⟨1, _, rfl, by decide⟩
  obtain ⟨k, s, made, u, t', -, -, hends, -, houtput, -, hsink, -⟩ :=
    (failing_port_cuts hp { tapeSize := 1 } (Ports.works_inMemory []) .sink 2).2 hexceeds
  obtain ⟨-, -, bytes, -, hlonger, hbytes⟩ := hsink rfl
  refine ⟨hp, Ports.works_inMemory [], hexceeds, t', hends, ?_⟩
  rw [houtput, hbytes, List.length_append, List.length_take, Nat.min_eq_left (Nat.le_of_lt hlonger)]
  rfl

end Machine

end FoldTape
