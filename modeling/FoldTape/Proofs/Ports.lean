import FoldTape.Port.Ports

/-!
# Ports in use

What can be said about a device without knowing the machine that uses it: which of its properties
reads and writes keep, and when two devices cannot be told apart. Ports never give a byte back and
never take one back that has been written. As long as they work, they are what is left of their
input and what has come out so far.

## Architecture

- **§1 Devices**: `Device.Keeps`, `Device.Simulation`.
- **§2 Taking and adding**: `Ports.Later` holds of all ports, also of those that fail.
- **§3 Working ports**: what reads and writes of `Ports.Works` come to.
- **§4 Carrying on**: ports that carry on from where others began, `Ports.Continues`.
-/

namespace FoldTape

/-! ## §1 Devices -/

section Devices

variable {δ δ' : Type} [Device δ] [Device δ']

/-- A property `P` of devices that reads and writes of bytes keep, whether or not they succeed, and
a property `Q` of the errors that they fail with. -/
structure Device.Keeps (P : δ → Prop) (Q : PortError → Prop) : Prop where
  read_ok {d d' : δ} {byte? : Option UInt8} : P d → Device.read d = .ok byte? d' → P d'
  read_error {d d' : δ} {e : PortError} : P d → Device.read d = .error e d' → P d' ∧ Q e
  write_ok {d d' : δ} {byte : UInt8} : P d → Device.write (byte.toNat : Int) d = .ok () d' → P d'
  write_error {d d' : δ} {e : PortError} {byte : UInt8} :
    P d → Device.write (byte.toNat : Int) d = .error e d' → P d' ∧ Q e

/-- The same answer, in states that are related. -/
inductive Alike {ε σ τ α : Type} (R : σ → τ → Prop) :
    EStateM.Result ε σ α → EStateM.Result ε τ α → Prop
  | ok {a : α} {s : σ} {t : τ} : R s t → Alike R (.ok a s) (.ok a t)
  | error {e : ε} {s : σ} {t : τ} : R s t → Alike R (.error e s) (.error e t)

/-- Devices that are related answer alike, as long as bytes are written. -/
structure Device.Simulation (R : δ → δ' → Prop) : Prop where
  read {d : δ} {d' : δ'} : R d d' → Alike R (Device.read d) (Device.read d')
  write {d : δ} {d' : δ'} (byte : UInt8) :
    R d d' → Alike R (Device.write (byte.toNat : Int) d) (Device.write (byte.toNat : Int) d')

end Devices

/-! ## §2 Taking and adding -/

/-- The state that an answer leaves. -/
def leftBy {ε σ α : Type} : EStateM.Result ε σ α → σ
  | .ok _ s | .error _ s => s

@[simp] theorem leftBy_ok {ε σ α : Type} (a : α) (s : σ) :
    leftBy (.ok a s : EStateM.Result ε σ α) = s := rfl

@[simp] theorem leftBy_error {ε σ α : Type} (e : ε) (s : σ) :
    leftBy (.error e s : EStateM.Result ε σ α) = s := rfl

section Keeps

variable {δ : Type} [Device δ] {P : δ → Prop} {Q : PortError → Prop} {d : δ}

theorem Device.Keeps.read (hP : Device.Keeps P Q) (hd : P d) : P (leftBy (Device.read d)) := by
  cases hread : Device.read d with
  | ok byte? d' => exact hP.read_ok hd hread
  | error e d' => exact (hP.read_error hd hread).1

theorem Device.Keeps.write (hP : Device.Keeps P Q) (byte : UInt8) (hd : P d) :
    P (leftBy (Device.write (byte.toNat : Int) d)) := by
  cases hwrite : Device.write (byte.toNat : Int) d with
  | ok _ d' => exact hP.write_ok hd hwrite
  | error e d' => exact (hP.write_error hd hwrite).1

end Keeps

/-- Bytes have been taken off the front of the input, and counted. -/
def Source.Later (s s' : Source) : Prop :=
  ∃ taken, s.unread = taken ++ s'.unread ∧ s'.consumed = s.consumed + taken.length

theorem Source.Later.refl (s : Source) : s.Later s := ⟨[], rfl, rfl⟩

theorem Source.Later.trans {s t u : Source} (hst : s.Later t) (htu : t.Later u) : s.Later u := by
  obtain ⟨first, hunread, hconsumed⟩ := hst
  obtain ⟨second, hunread', hconsumed'⟩ := htu
  refine ⟨first ++ second, ?_, ?_⟩
  · rw [hunread, hunread', List.append_assoc]
  · rw [hconsumed', hconsumed, List.length_append, Nat.add_assoc]

theorem Source.Later.consumed_le {s s' : Source} (h : s.Later s') : s.consumed ≤ s'.consumed := by
  obtain ⟨taken, -, hconsumed⟩ := h
  exact hconsumed ▸ Nat.le_add_right _ _

/-- A read that fails takes nothing. -/
theorem Source.later_read (s : Source) : s.Later (leftBy s.read) := by
  induction s with
  | memory unread offset =>
    cases unread with
    | nil => exact .refl _
    | cons byte unread => exact ⟨[byte], rfl, rfl⟩
  | stream s =>
    obtain ⟨unread, position, isOpen⟩ := s
    cases isOpen with
    | true => exact ⟨unread.take 1, (List.take_append_drop 1 unread).symm, rfl⟩
    | false => exact .refl _
  | failing left inner ih =>
    cases left with
    | zero => exact .refl _
    | succ left =>
      simp only [Source.read]
      generalize inner.read = answer at ih ⊢
      cases answer <;> exact ih

/-- A write that fails adds nothing, unless it is the flush that fails. -/
theorem Sink.prefix_write (value : Int) (s : Sink) :
    s.written.toList <+: (leftBy (s.write value)).written.toList := by
  induction s with
  | memory written =>
    simp only [Sink.write]
    split
    · exact ⟨[UInt8.ofNat value.toNat], by simp [Sink.written]⟩
    · exact List.prefix_rfl
  | stream s autoFlush =>
    obtain ⟨written, flushes, isOpen⟩ := s
    have hadded : ∀ chunk, written.toList <+: (written.appendList chunk).toList := by
      intro chunk
      exact ⟨chunk, by simp⟩
    simp only [Sink.write]
    split
    · cases isOpen with
      | true => cases autoFlush <;> exact hadded _
      | false => exact List.prefix_rfl
    · exact List.prefix_rfl
  | failing left inner ih =>
    cases left with
    | zero => exact List.prefix_rfl
    | succ left =>
      simp only [Sink.write]
      generalize inner.write value = answer at ih ⊢
      cases answer <;> exact ih

namespace Ports

/-- What reads keep of the source, reads and writes keep. -/
theorem keeps_of_source {P : Source → Prop} (hP : ∀ s : Source, P s → P (leftBy s.read)) :
    Device.Keeps (fun d : Ports => P d.source) fun _ => True where
  read_ok := by
    intro d d' byte? hd h
    have hread := hP d.source hd
    simp only [Device.read] at h
    split at h <;> cases h
    rename_i hsource
    rwa [hsource] at hread
  read_error := by
    intro d d' e hd h
    have hread := hP d.source hd
    simp only [Device.read] at h
    split at h <;> cases h
    rename_i hsource
    rw [hsource] at hread
    exact ⟨hread, trivial⟩
  write_ok := by
    intro d d' byte hd h
    simp only [Device.write] at h
    split at h <;> cases h
    exact hd
  write_error := by
    intro d d' e byte hd h
    simp only [Device.write] at h
    split at h <;> cases h
    exact ⟨hd, trivial⟩

/-- Input has been taken off the front, and output has been added at the end. -/
structure Later (d d' : Ports) : Prop where
  source : d.source.Later d'.source
  sink : d.sink.written.toList <+: d'.sink.written.toList

theorem Later.refl (d : Ports) : d.Later d := ⟨.refl _, List.prefix_rfl⟩

theorem Later.trans {d e f : Ports} (hde : d.Later e) (hef : e.Later f) : d.Later f :=
  ⟨hde.source.trans hef.source, hde.sink.trans hef.sink⟩

theorem later_read (d : Ports) : d.Later (leftBy (Device.read d)) := by
  have hlater := d.source.later_read
  simp only [Device.read]
  generalize d.source.read = answer at hlater ⊢
  cases answer <;> exact ⟨hlater, List.prefix_rfl⟩

theorem later_write (value : Int) (d : Ports) : d.Later (leftBy (Device.write value d)) := by
  have hlater := d.sink.prefix_write value
  simp only [Device.write]
  generalize d.sink.write value = answer at hlater ⊢
  cases answer <;> exact ⟨.refl _, hlater⟩

/-- **Nothing is taken back**, whether or not reads and writes succeed. -/
theorem keeps_later (d₀ : Ports) : Device.Keeps d₀.Later fun _ => True where
  read_ok {d _ _} hd h := hd.trans (by simpa only [h, leftBy_ok] using d.later_read)
  read_error {d _ _} hd h :=
    ⟨hd.trans (by simpa only [h, leftBy_error] using d.later_read), trivial⟩
  write_ok {d _ byte} hd h :=
    hd.trans (by simpa only [h, leftBy_ok] using d.later_write byte.toNat)
  write_error {d _ _ byte} hd h :=
    ⟨hd.trans (by simpa only [h, leftBy_error] using d.later_write byte.toNat), trivial⟩

end Ports

/-! ## §3 Working ports -/

/-- The source is in memory, or a stream that is open. -/
def Source.Works : Source → Prop
  | .memory .. => True
  | .stream s => s.isOpen = true
  | .failing .. => False

/-- The sink is in memory, or a stream that is open. -/
def Sink.Works : Sink → Prop
  | .memory .. => True
  | .stream s _ => s.isOpen = true
  | .failing .. => False

/-- A source that works gives the next byte, or nothing if there is none. -/
theorem Source.Works.read {s : Source} (h : s.Works) :
    ∃ s', s.read = .ok s.unread.head? s' ∧ s'.Works ∧ s'.unread = s.unread.tail ∧
      s'.consumed = s.consumed + (s.unread.take 1).length := by
  cases s with
  | memory unread offset => cases unread <;> exact ⟨_, rfl, trivial, rfl, rfl⟩
  | stream s =>
    obtain ⟨unread, position, isOpen⟩ := s
    obtain rfl : isOpen = true := h
    cases unread <;> exact ⟨_, rfl, rfl, rfl, rfl⟩
  | failing => exact h.elim

theorem isByte_toNat (byte : UInt8) : isByte (byte.toNat : Int) = true := by
  have hbyte := byte.toNat_lt
  simp only [isByte, decide_eq_true_eq]
  omega

/-- A sink that works takes every byte. -/
theorem Sink.Works.write {s : Sink} (h : s.Works) (byte : UInt8) :
    ∃ s', s.write (byte.toNat : Int) = .ok () s' ∧ s'.Works ∧
      s'.written = s.written.push byte := by
  cases s with
  | memory written =>
    refine ⟨.memory (written.push byte), ?_, trivial, rfl⟩
    simp [Sink.write, isByte_toNat]
  | stream s autoFlush =>
    obtain ⟨written, flushes, isOpen⟩ := s
    obtain rfl : isOpen = true := h
    cases autoFlush <;>
      simp [Sink.write, isByte_toNat, OutStream.write, OutStream.flush, Sink.Works, Sink.written]
  | failing => exact h.elim

namespace Ports

/-- Both the source and the sink work. -/
structure Works (d : Ports) : Prop where
  source : d.source.Works
  sink : d.sink.Works

theorem works_inMemory (input : List UInt8) : (inMemory input).Works := ⟨trivial, trivial⟩

variable {d : Ports}

theorem Works.read (h : d.Works) :
    ∃ source, Device.read d = .ok d.source.unread.head? ⟨source, d.sink⟩ ∧ source.Works ∧
      source.unread = d.source.unread.tail ∧
      source.consumed = d.source.consumed + (d.source.unread.take 1).length := by
  obtain ⟨source, hread, hspec⟩ := h.source.read
  exact ⟨source, by simp only [Device.read, hread], hspec⟩

theorem Works.write (h : d.Works) (byte : UInt8) :
    ∃ sink, Device.write (byte.toNat : Int) d = .ok () ⟨d.source, sink⟩ ∧ sink.Works ∧
      sink.written = d.sink.written.push byte := by
  obtain ⟨sink, hwrite, hspec⟩ := h.sink.write byte
  exact ⟨sink, by simp only [Device.write, hwrite], hspec⟩

/-- **Ports that work go on to work**, and never fail. -/
theorem keeps_works : Device.Keeps Works fun _ => False where
  read_ok := by
    intro d d' byte? hd h
    obtain ⟨source, hread, hworks, -⟩ := hd.read
    rw [hread] at h
    cases h
    exact ⟨hworks, hd.sink⟩
  read_error := by
    intro d d' e hd h
    obtain ⟨source, hread, -⟩ := hd.read
    rw [hread] at h
    cases h
  write_ok := by
    intro d d' byte hd h
    obtain ⟨sink, hwrite, hworks, -⟩ := hd.write byte
    rw [hwrite] at h
    cases h
    exact ⟨hd.source, hworks⟩
  write_error := by
    intro d d' e byte hd h
    obtain ⟨sink, hwrite, -⟩ := hd.write byte
    rw [hwrite] at h
    cases h

/-! ## §4 Carrying on -/

/-- The ports `d` carry on from where the ports `e` began: after `written` had been written and
`consumed` bytes had been taken. -/
structure Continues (written : Array UInt8) (consumed : Nat) (d e : Ports) : Prop where
  works : d.Works
  works' : e.Works
  unread : d.source.unread = e.source.unread
  consumed : d.source.consumed = consumed + e.source.consumed
  written : d.sink.written = written ++ e.sink.written

/-- Ports that work carry on from ports in memory that are given the rest of the input. -/
theorem Works.continues (h : d.Works) :
    d.Continues d.sink.written d.source.consumed (inMemory d.source.unread) where
  works := h
  works' := works_inMemory _
  unread := rfl
  consumed := rfl
  written := Array.append_empty.symm

/-- **Ports that carry on cannot be told from the others**: what has gone before does not show in
what they answer. -/
theorem continues_simulation (written : Array UInt8) (consumed : Nat) :
    Device.Simulation (Continues written consumed) where
  read := by
    intro d e h
    obtain ⟨source, hread, hworks, hunread, hconsumed⟩ := h.works.read
    obtain ⟨source', hread', hworks', hunread', hconsumed'⟩ := h.works'.read
    rw [hread, hread', h.unread]
    refine .ok ⟨⟨hworks, h.works.sink⟩, ⟨hworks', h.works'.sink⟩, ?_, ?_, h.written⟩
    · rw [hunread, hunread', h.unread]
    · rw [hconsumed, hconsumed', h.consumed, h.unread, Nat.add_assoc]
  write := by
    intro d e byte h
    obtain ⟨sink, hwrite, hworks, hwritten⟩ := h.works.write byte
    obtain ⟨sink', hwrite', hworks', hwritten'⟩ := h.works'.write byte
    rw [hwrite, hwrite']
    refine .ok ⟨⟨h.works.source, hworks⟩, ⟨h.works'.source, hworks'⟩, h.unread, h.consumed, ?_⟩
    rw [hwritten, hwritten', h.written, Array.append_push]

end Ports

end FoldTape
