import FoldTape.Proofs.Machine.History

/-!
# Machines in memory and over streams

A machine does not tell whether its bytes come from memory or from an open stream, nor whether they
go to a buffer or to an open stream. Whatever is done with the two machines, they fail in the same
way or not at all, and are seen in the same state after every command.

## Architecture

- **§1 Streams in place of memory**: `Source.overStream`, and ports that correspond
  (`Ports.Streamed`).
- **§2 Values out of range**: no byte is refused as one (`Ports.keeps_inRange`).
- **§3 One command**: `Machine.obey_overStreams`.
- **§4 Many commands**: what is seen after each of them (`Machine.overStreams_as_inMemory`).
-/

namespace FoldTape

/-! ## §1 Streams in place of memory -/

/-- The same source, with an open stream in place of bytes in memory. -/
def Source.overStream : Source → Source
  | .memory unread offset => .stream ⟨unread, offset, true⟩
  | .stream s => .stream s
  | .failing left inner => .failing left inner.overStream

@[simp] theorem Source.consumed_overStream (s : Source) : s.overStream.consumed = s.consumed := by
  induction s with
  | memory unread offset => rfl
  | stream s => rfl
  | failing left inner ih => exact ih

/-- A read is answered alike, also at the end of the input and after it. -/
theorem Source.read_overStream (s : Source) :
    Alike (fun s s' => s' = s.overStream) s.read s.overStream.read := by
  induction s with
  | memory unread offset => cases unread <;> exact .ok rfl
  | stream s =>
    simp only [overStream, read]
    cases s.take 1 with
    | ok chunk s' => exact .ok rfl
    | error e s' => exact .error rfl
  | failing left inner ih =>
    cases left with
    | zero => exact .error rfl
    | succ left =>
      simp only [overStream, read]
      generalize inner.read = a, inner.overStream.read = a' at ih ⊢
      cases ih with
      | ok h => exact .ok (by rw [h, overStream])
      | error h => exact .error (by rw [h, overStream])

namespace Ports

/-- The ports `d'` are the ports `d` with open streams in place of memory. How often the stream has
been flushed is not seen. -/
structure Streamed (autoFlush : Bool) (d d' : Ports) : Prop where
  source : d'.source = d.source.overStream
  sink : ∃ written flushes,
    d.sink = .memory written ∧ d'.sink = .stream ⟨written, flushes, true⟩ autoFlush

theorem streamed_overStreams (input : List UInt8) (autoFlush : Bool) :
    Streamed autoFlush (inMemory input) (overStreams input autoFlush) :=
  ⟨rfl, #[], 0, rfl, rfl⟩

theorem Streamed.written {autoFlush : Bool} {d d' : Ports} (h : Streamed autoFlush d d') :
    d'.sink.written = d.sink.written := by
  obtain ⟨written, flushes, hsink, hsink'⟩ := h.sink
  rw [hsink, hsink']
  rfl

/-- **Streams cannot be told from memory** by what is read and by whether writes succeed. -/
theorem streamed_simulation (autoFlush : Bool) : Device.Simulation (Streamed autoFlush) where
  read := by
    rintro ⟨source, sink⟩ ⟨_, sink'⟩ ⟨rfl, hsink⟩
    have hread := source.read_overStream
    simp only [Device.read]
    generalize source.read = a, source.overStream.read = a' at hread ⊢
    cases hread with
    | ok h => exact .ok ⟨h, hsink⟩
    | error h => exact .error ⟨h, hsink⟩
  write := by
    rintro ⟨source, _⟩ ⟨source', _⟩ byte ⟨hsource, written, flushes, rfl, rfl⟩
    -- Both sinks take the byte, and both add it to what has been written.
    have hpush : ∀ byte, written.appendList [byte] = written.push byte := by simp
    simp only [Device.write, Sink.write, isByte_toNat, if_true, OutStream.write, OutStream.flush,
      hpush]
    cases autoFlush <;> exact .ok ⟨hsource, _, _, rfl, rfl⟩

end Ports

/-! ## §2 Values out of range -/

/-- Whether a value has been refused because it is no byte. -/
def PortError.isOutOfRange : PortError → Bool
  | notAByte | notBytes => true
  | closedStream | closedSink | notReady => false

theorem Source.inRange_of_read {s s' : Source} {e : PortError} (h : s.read = .error e s') :
    e.isOutOfRange = false := by
  induction s generalizing s' with
  | memory unread offset => cases unread <;> cases h
  | stream s =>
    simp only [read, InStream.take] at h
    split at h
    · cases h
    · rename_i htake
      split at htake <;> cases htake
      cases h
      rfl
  | failing left inner ih =>
    cases left with
    | zero =>
      cases h
      rfl
    | succ left =>
      simp only [read] at h
      split at h
      · cases h
      · rename_i hread
        cases h
        exact ih hread

theorem Sink.inRange_of_write {s s' : Sink} {byte : UInt8} {e : PortError}
    (h : s.write (byte.toNat : Int) = .error e s') : e.isOutOfRange = false := by
  induction s generalizing s' with
  | memory written =>
    simp only [write, isByte_toNat, if_true] at h
    cases h
  | stream s autoFlush =>
    obtain ⟨written, flushes, isOpen⟩ := s
    simp only [write, isByte_toNat, if_true] at h
    -- Only a stream that has been closed refuses a byte.
    cases isOpen with
    | true => cases autoFlush <;> cases h
    | false =>
      cases h
      rfl
  | failing left inner ih =>
    cases left with
    | zero =>
      cases h
      rfl
    | succ left =>
      simp only [write] at h
      split at h
      · cases h
      · rename_i hwrite
        cases h
        exact ih hwrite

/-- **No byte is refused as out of range**, whatever the ports. -/
theorem Ports.keeps_inRange :
    Device.Keeps (fun _ : Ports => True) fun e => e.isOutOfRange = false where
  read_ok _ _ := trivial
  read_error {d d' e} _ h := by
    obtain ⟨source, sink⟩ := d
    simp only [Device.read] at h
    split at h
    · cases h
    · rename_i hread
      cases h
      exact ⟨trivial, source.inRange_of_read hread⟩
  write_ok _ _ := trivial
  write_error {d d' e byte} _ h := by
    obtain ⟨source, sink⟩ := d
    simp only [Device.write] at h
    split at h
    · cases h
    · rename_i hwrite
      cases h
      exact ⟨trivial, sink.inRange_of_write hwrite⟩

/-! ## §3 One command -/

/-- What is seen after a command. -/
def Ending.ofEntry (entry : Option Fault × Machine Ports) : Ending :=
  ⟨entry.1, entry.2.state.registers, entry.2.output, entry.2.consumed⟩

namespace Machine

/-- The same command for a machine over streams: a source that takes the place of the one before is
an open stream as well. -/
def Command.overStreams : Command → Command
  | .run p => .run p
  | .reset => .reset
  | .connect source => .connect source.overStream
  | .limit maxSteps => .limit maxSteps
  | .atEnd eof => .atEnd eof

/-- The same fault, if there is one, and machines that cannot be told apart. -/
def EntryAlike (autoFlush : Bool) (entry entry' : Option Fault × Machine Ports) : Prop :=
  entry.1 = entry'.1 ∧ entry.2.Alike (Ports.Streamed autoFlush) entry'.2

variable {autoFlush : Bool} {m m' : Machine Ports} {fuel : Nat}

/-- **A command is obeyed alike.** -/
theorem obey_overStreams (h : m.Alike (Ports.Streamed autoFlush) m') (fuel : Nat) (c : Command) :
    Option.Rel (EntryAlike autoFlush) (m.obey fuel c) (m'.obey fuel c.overStreams) := by
  cases c with
  | run p =>
    have hruns := execute_alike (Ports.streamed_simulation autoFlush) h.settings h.device fuel p
    simp only [Command.overStreams, obey]
    generalize m.execute fuel p = here, m'.execute fuel p = there at hruns ⊢
    cases hruns with
    | none => exact .none
    | some hreport => exact .some ⟨hreport.fault, hreport.machine⟩
  | reset => exact .some ⟨rfl, h.settings, by simp only [reset, h.settings], h.device⟩
  | connect source => exact .some ⟨rfl, h.settings, h.registers, rfl, h.device.sink⟩
  | limit maxSteps =>
    exact .some ⟨rfl, by simp only [setMaxSteps, h.settings], h.registers, h.device⟩
  | atEnd eof => exact .some ⟨rfl, by simp only [setEof, h.settings], h.registers, h.device⟩

/-- No command fails because of a value out of range. -/
theorem inRange_of_obey {c : Command} {entry : Option Fault × Machine Ports}
    (h : m.obey fuel c = some entry) {e : PortError} (he : entry.1 = some (.port e)) :
    e.isOutOfRange = false := by
  cases c with
  | run p =>
    obtain ⟨report, hreport, rfl⟩ := Option.map_eq_some_iff.mp h
    exact (execute_holds Ports.keeps_inRange trivial hreport).2 e he
  | reset | connect source | limit maxSteps | atEnd eof =>
    cases h
    cases he

/-! ## §4 Many commands -/

theorem EntryAlike.ofEntry_eq {entry entry' : Option Fault × Machine Ports}
    (h : EntryAlike autoFlush entry entry') : Ending.ofEntry entry' = Ending.ofEntry entry := by
  obtain ⟨hfault, hmachine⟩ := h
  have houtput : entry'.2.output = entry.2.output := by
    rw [output, hmachine.device.written, output]
  have hconsumed : entry'.2.consumed = entry.2.consumed := by
    rw [consumed, hmachine.device.source, Source.consumed_overStream, consumed]
  simp only [Ending.ofEntry, hfault, hmachine.registers, houtput, hconsumed]

/-- Commands that are obeyed in turn are obeyed alike. -/
theorem obeyAll_overStreams (h : m.Alike (Ports.Streamed autoFlush) m') (fuel : Nat)
    (commands : List Command) :
    (m'.obeyAll fuel (commands.map Command.overStreams)).map (·.map Ending.ofEntry) =
      (m.obeyAll fuel commands).map (·.map Ending.ofEntry) := by
  induction commands generalizing m m' with
  | nil => rfl
  | cons c commands ih =>
    have hobey := obey_overStreams h fuel c
    simp only [List.map_cons, obeyAll]
    generalize m.obey fuel c = here, m'.obey fuel c.overStreams = there at hobey ⊢
    cases hobey with
    | none => rfl
    | @some entry entry' hentry =>
      have hrest := congrArg (Option.map (Ending.ofEntry entry :: ·)) (ih hentry.2)
      simp only [Option.map_map] at hrest ⊢
      have hcons := hentry.ofEntry_eq
      simp only [Function.comp_def, List.map_cons, hcons]
      exact hrest

/-- Every entry of the log is what some command came to. -/
theorem exists_obey_of_mem {commands : List Command} {log : List (Option Fault × Machine Ports)}
    (hlog : m.obeyAll fuel commands = some log) {entry : Option Fault × Machine Ports}
    (hentry : entry ∈ log) : ∃ (n : Machine Ports) (c : Command), n.obey fuel c = some entry := by
  induction commands generalizing m log with
  | nil =>
    cases hlog
    cases hentry
  | cons c commands ih =>
    simp only [obeyAll] at hlog
    split at hlog
    · cases hlog
    · rename_i hobey
      obtain ⟨rest, hrest, rfl⟩ := Option.map_eq_some_iff.mp hlog
      rcases List.mem_cons.mp hentry with rfl | hentry
      · exact ⟨m, c, hobey⟩
      · exact ih hrest hentry

/-- **Memory and streams are interchangeable.** Two machines are made with the same settings, one on
bytes in memory and a buffer, the other on open streams, of which the second may be flushed after
every byte; whatever commands are given to both, the one reading from memory where the other reads
from a stream, they come to an end for the same number of turns, and after every command the fault,
the registers with the tape, the output and the number of bytes taken are the same. None of the
faults is that a value is no byte. -/
theorem overStreams_as_inMemory (settings : Settings) (input : List UInt8) (autoFlush : Bool)
    (fuel : Nat) (commands : List Command) :
    ((new settings (.overStreams input autoFlush)).obeyAll fuel
        (commands.map Command.overStreams)).map (·.map Ending.ofEntry) =
      ((new settings (.inMemory input)).obeyAll fuel commands).map (·.map Ending.ofEntry) ∧
    ∀ log, (new settings (.overStreams input autoFlush)).obeyAll fuel
        (commands.map Command.overStreams) = some log →
      ∀ entry ∈ log, ∀ e, entry.1 = some (.port e) → e.isOutOfRange = false := by
  have hports : (new settings (Ports.inMemory input)).Alike (Ports.Streamed autoFlush)
      (new settings (Ports.overStreams input autoFlush)) :=
    ⟨rfl, rfl, Ports.streamed_overStreams input autoFlush⟩
  constructor
  · exact obeyAll_overStreams hports fuel commands
  · intro log hlog entry hentry e he
    obtain ⟨n, c, hobey⟩ := exists_obey_of_mem hlog hentry
    exact inRange_of_obey hobey he

end Machine

end FoldTape
