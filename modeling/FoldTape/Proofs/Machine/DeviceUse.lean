import FoldTape.Proofs.Machine.Parallel
import FoldTape.Proofs.Ports

/-!
# What runs do to their devices

Only input and output instructions touch the device. What single reads and writes keep, a whole run
keeps; a device that notes them tells afterwards which instructions they were made by; and two runs
whose devices correspond are the same as far as their folded input and output correspond.

## Architecture

- **§1 Folded input and output**: one induction on the operand each.
- **§2 Instructions and turns**: `State.perform_keeps`, and maps of the device alone.
- **§3 Notes**: what has been noted stays, and `Recorded.Notes` tells what is new.
- **§4 Notes of a turn**: `State.exists_notes_left`.
-/

namespace FoldTape

variable {δ δ' : Type} [Device δ] [Device δ'] {settings : Settings} {p : Program}

/-! ## §1 Folded input and output -/

/-- The same answer, which leaves another state. -/
def mapLeft {ε σ τ α : Type} (g : σ → τ) : EStateM.Result ε σ α → EStateM.Result ε τ α
  | .ok a s => .ok a (g s)
  | .error e s => .error e (g s)

section Devices

variable {P : δ → Prop} {Q : PortError → Prop} {d : δ}

/-- Writing a cell a number of times keeps what one write keeps. -/
theorem writeCell_keeps {cell : UInt8}
    (hP : ∀ d, P d → P (leftBy (Device.write (cell.toNat : Int) d))) (hd : P d) (count : Nat) :
    P (leftBy (writeCell cell count d)) := by
  induction count generalizing d with
  | zero => exact hd
  | succ count ih =>
    have hd' := hP d hd
    simp only [writeCell]
    generalize Device.write (cell.toNat : Int) d = answer at hd' ⊢
    cases answer with
    | ok _ d' => exact ih hd'
    | error e d' => exact hd'

/-- A map of devices that one write does not see, writing a cell does not see either. -/
theorem writeCell_map {φ : δ → δ'} {cell : UInt8}
    (hφ : ∀ d, Device.write (cell.toNat : Int) (φ d) =
      mapLeft φ (Device.write (cell.toNat : Int) d)) (count : Nat) (d : δ) :
    writeCell cell count (φ d) = mapLeft φ (writeCell cell count d) := by
  induction count generalizing d with
  | zero => rfl
  | succ count ih =>
    simp only [writeCell, hφ]
    cases Device.write (cell.toNat : Int) d with
    | ok _ d' => exact ih d'
    | error e d' => rfl

/-- Reading into a cell a number of times keeps what one read keeps. -/
theorem readCell_keeps (hP : ∀ d, P d → P (leftBy (Device.read d))) (hd : P d) (eof : EndPolicy)
    (cell : UInt8) (count : Nat) : P (leftBy (readCell eof cell count d)).2 := by
  induction count generalizing cell d with
  | zero => exact hd
  | succ count ih =>
    have hd' := hP d hd
    simp only [readCell]
    generalize Device.read d = answer at hd' ⊢
    cases answer with
    | error e d' => exact hd'
    | ok byte? d' =>
      cases byte? with
      | some byte => exact ih hd' byte
      | none =>
        cases eof with
        | error => exact hd'
        | zero => exact ih hd' 0

/-- A read that succeeds ends an input instruction, or goes on with the next cell: the byte, or the
zero in place of it. -/
theorem readCell_succ_cases (eof : EndPolicy) (cell : UInt8) (byte? : Option UInt8) :
    byte? = none ∧ eof = .error ∨
      ∃ next, ∀ {count : Nat} {d d' : δ}, Device.read d = .ok byte? d' →
        readCell eof cell (count + 1) d = readCell eof next count d' := by
  cases byte? with
  | some byte => exact .inr ⟨byte, fun h => by simp only [readCell, h]⟩
  | none =>
    cases eof with
    | error => exact .inl ⟨rfl, rfl⟩
    | zero => exact .inr ⟨0, fun h => by simp only [readCell, h]⟩

/-! ## §2 Instructions and turns -/

variable {s : State δ}

namespace State

section Perform

variable (eof : EndPolicy) (n : Int) (s : State δ)

theorem device_perform_output :
    ((s.perform eof ⟨.output, n⟩).left s).device =
      leftBy (writeCell s.cell n.toNat s.device) := by
  rw [perform_output]
  cases writeCell s.cell n.toNat s.device <;> rfl

theorem device_perform_input :
    ((s.perform eof ⟨.input, n⟩).left s).device =
      (leftBy (readCell eof s.cell n.toNat s.device)).2 := by
  rw [perform_input]
  cases readCell eof s.cell n.toNat s.device <;> rfl

/-- Only input and output instructions touch the device. -/
theorem device_perform {op : Operator} (houtput : op ≠ .output) (hinput : op ≠ .input) :
    ((s.perform eof ⟨op, n⟩).left s).device = s.device := by
  cases op with
  | moveRight => rw [perform_moveRight]; split <;> rfl
  | moveLeft => rw [perform_moveLeft]; split <;> rfl
  | increment | decrement | jumpIfZero | jumpIfNonzero => rfl
  | output => exact absurd rfl houtput
  | input => exact absurd rfl hinput

end Perform

/-- **What reads and writes keep, an instruction keeps.** -/
theorem perform_keeps (hP : Device.Keeps P Q) (hs : P s.device) (eof : EndPolicy)
    (i : Instruction) : P ((s.perform eof i).left s).device := by
  obtain ⟨op, n⟩ := i
  cases op with
  | output =>
    rw [device_perform_output]
    exact writeCell_keeps (fun _ => hP.write _) hs _
  | input =>
    rw [device_perform_input]
    exact readCell_keeps (fun _ => hP.read) hs _ _ _
  | moveRight | moveLeft | increment | decrement | jumpIfZero | jumpIfNonzero =>
    rw [device_perform _ _ _ (by simp) (by simp)]
    exact hs

/-- What they keep, a turn keeps. -/
theorem left_keeps (hP : Device.Keeps P Q) (hs : P s.device) :
    P (s.left settings p).device := by
  rcases turn_cases settings p s with hend | hlimit | ⟨i, hi⟩
  · rw [left_of_end hend]
    exact hs
  · rw [hlimit.left_eq]
    exact hs
  · rw [hi.left_eq]
    exact perform_keeps hP hs _ i

/-- The state with another device in place of its own. -/
def mapDevice (φ : δ → δ') (s : State δ) : State δ' := ⟨s.registers, φ s.device⟩

/-- A map of the device mirrors an instruction if it does so for what the instruction writes or
reads. -/
theorem perform_mapDevice {φ : δ → δ'} {eof eof' : EndPolicy} {i : Instruction}
    (hwrite : i.operator = .output → writeCell s.cell i.operand.toNat (φ s.device) =
      mapLeft φ (writeCell s.cell i.operand.toNat s.device))
    (hread : i.operator = .input → readCell eof' s.cell i.operand.toNat (φ s.device) =
      mapLeft (Prod.map id φ) (readCell eof s.cell i.operand.toNat s.device)) :
    (s.mapDevice φ).perform eof' i = (s.perform eof i).map (mapDevice φ) := by
  obtain ⟨op, n⟩ := i
  cases op with
  | moveRight =>
    rw [perform_moveRight, perform_moveRight, apply_ite (Turn.map _)]
    rfl
  | moveLeft =>
    rw [perform_moveLeft, perform_moveLeft, apply_ite (Turn.map _)]
    rfl
  | increment | decrement | jumpIfZero | jumpIfNonzero => rfl
  | output =>
    have hcell : (s.mapDevice φ).cell = s.cell := rfl
    rw [perform_output, perform_output, hcell]
    simp only [mapDevice, hwrite rfl]
    cases writeCell s.cell n.toNat s.device <;> rfl
  | input =>
    have hcell : (s.mapDevice φ).cell = s.cell := rfl
    rw [perform_input, perform_input, hcell]
    simp only [mapDevice, hread rfl]
    cases readCell eof s.cell n.toNat s.device <;> rfl

end State

/-- What reads and writes keep, and what holds at the start, holds in every state that is visited. -/
theorem Machine.Visits.holds {m : Machine δ} (hP : Device.Keeps P Q) (hstart : P m.state.device)
    {n : Nat} (hs : m.Visits p n s) : P s.device := by
  refine hs.induction (P := fun s => P s.device) hstart ?_
  intro s t hturn hs
  rw [← State.left_of_next hturn]
  exact State.left_keeps hP hs

end Devices

/-! ## §3 Notes -/

/-- The operator of the instructions that read or write. -/
def PortEvent.operator : PortEvent → Operator
  | .read _ => .input
  | .wrote _ => .output

/-- A new machine that notes what it reads and writes. -/
def Machine.noting (settings : Settings) (ports : Ports) : Machine (Recorded Ports) :=
  new settings ⟨ports, []⟩

namespace Recorded

/-- What keeps a property of a device keeps it under the notes as well. -/
theorem keeps {P : δ → Prop} {Q : PortError → Prop} (hP : Device.Keeps P Q) :
    Device.Keeps (fun d : Recorded δ => P d.device) Q where
  read_ok hd h := by
    simp only [Device.read] at h
    split at h <;> cases h
    rename_i hread
    exact hP.read_ok hd hread
  read_error hd h := by
    simp only [Device.read] at h
    split at h <;> cases h
    rename_i hread
    exact hP.read_error hd hread
  write_ok hd h := by
    simp only [Device.write] at h
    split at h <;> cases h
    rename_i hwrite
    exact hP.write_ok hd hwrite
  write_error hd h := by
    simp only [Device.write] at h
    split at h <;> cases h
    rename_i hwrite
    exact hP.write_error hd hwrite

/-- Later notes have been added to the earlier ones, all by instructions with this operator. -/
def Notes (op : Operator) (d d' : Recorded δ) : Prop :=
  ∃ new, d'.events = new ++ d.events ∧ ∀ e ∈ new, e.operator = op

variable {op : Operator} {d d' d'' : Recorded δ}

omit [Device δ] in
theorem Notes.refl (op : Operator) (d : Recorded δ) : Notes op d d := ⟨[], rfl, by simp⟩

omit [Device δ] in
theorem Notes.trans (h : Notes op d d') (h' : Notes op d' d'') : Notes op d d'' := by
  obtain ⟨new, hnew, hop⟩ := h
  obtain ⟨new', hnew', hop'⟩ := h'
  refine ⟨new' ++ new, ?_, ?_⟩
  · rw [hnew', hnew, List.append_assoc]
  · intro e he
    exact (List.mem_append.mp he).elim (hop' e) (hop e)

/-- How many of the noted events are of some kind. -/
def noted (kind : PortEvent → Bool) (d : Recorded δ) : Nat := d.events.countP kind

omit [Device δ] in
@[simp] theorem noted_cons (kind : PortEvent → Bool) (device : δ) (e : PortEvent)
    (events : List PortEvent) :
    noted kind ⟨device, e :: events⟩ = noted kind ⟨device, events⟩ + if kind e then 1 else 0 :=
  List.countP_cons

omit [Device δ] in
/-- Notes are not taken back. -/
theorem Notes.noted_le (h : Notes op d d') (kind : PortEvent → Bool) :
    d.noted kind ≤ d'.noted kind := by
  obtain ⟨new, hnew, -⟩ := h
  rw [noted, noted, hnew, List.countP_append]
  exact Nat.le_add_left _ _

theorem notes_read (d : Recorded δ) : Notes .input d (leftBy (Device.read d)) := by
  simp only [Device.read]
  cases Device.read d.device with
  | ok byte? device => exact ⟨[.read byte?], rfl, by simp [PortEvent.operator]⟩
  | error e device => exact .refl _ _

theorem notes_write (value : Int) (d : Recorded δ) :
    Notes .output d (leftBy (Device.write value d)) := by
  simp only [Device.write]
  cases Device.write value d.device with
  | ok _ device => exact ⟨[.wrote value], rfl, by simp [PortEvent.operator]⟩
  | error e device => exact .refl _ _

/-- Writing a cell a number of times notes writes only. -/
theorem notes_writeCell (cell : UInt8) (count : Nat) (d : Recorded δ) :
    Notes .output d (leftBy (writeCell cell count d)) :=
  writeCell_keeps (fun d' hd' => hd'.trans (notes_write _ d')) (.refl _ d) count

/-- Reading into a cell a number of times notes reads only. -/
theorem notes_readCell (eof : EndPolicy) (cell : UInt8) (count : Nat) (d : Recorded δ) :
    Notes .input d (leftBy (readCell eof cell count d)).2 :=
  readCell_keeps (fun d' hd' => hd'.trans (notes_read d')) (.refl _ d) eof cell count

section Ports

variable (d : Recorded Ports) (cell : UInt8) (count : Nat)

/-- Output leaves the source alone. -/
theorem source_writeCell : (leftBy (writeCell cell count d)).device.source = d.device.source := by
  refine writeCell_keeps (P := fun d' : Recorded Ports => d'.device.source = d.device.source)
    (fun d' hd' => ?_) rfl count
  simp only [Device.write]
  cases d'.device.sink.write cell.toNat <;> exact hd'

/-- Input leaves the sink alone. -/
theorem sink_readCell (eof : EndPolicy) :
    (leftBy (readCell eof cell count d)).2.device.sink = d.device.sink := by
  refine readCell_keeps (P := fun d' : Recorded Ports => d'.device.sink = d.device.sink)
    (fun d' hd' => ?_) rfl eof cell count
  simp only [Device.read]
  cases d'.device.source.read <;> exact hd'

end Ports

end Recorded

/-! ## §4 Notes of a turn -/

namespace State

/-- What an instruction notes. -/
theorem notes_perform (eof : EndPolicy) (i : Instruction) (s : State (Recorded δ)) :
    Recorded.Notes i.operator s.device ((s.perform eof i).left s).device := by
  obtain ⟨op, n⟩ := i
  cases op with
  | output =>
    rw [device_perform_output]
    exact Recorded.notes_writeCell _ _ _
  | input =>
    rw [device_perform_input]
    exact Recorded.notes_readCell _ _ _ _
  | moveRight | moveLeft | increment | decrement | jumpIfZero | jumpIfNonzero =>
    rw [device_perform _ _ _ (by simp) (by simp)]
    exact .refl _ _

/-- **What a turn notes**: it adds to what has been noted before, and only what its instruction is
there for. -/
theorem exists_notes_left (settings : Settings) (p : Program) (s : State (Recorded δ)) :
    ∃ new, (s.left settings p).device.events = new ++ s.device.events ∧
      ∀ e ∈ new, ∃ n, s.Fetches settings p ⟨e.operator, n⟩ := by
  rcases turn_cases settings p s with hend | hlimit | ⟨⟨op, n⟩, hi⟩
  · exact ⟨[], by rw [left_of_end hend, List.nil_append], by simp⟩
  · exact ⟨[], by rw [hlimit.left_eq, List.nil_append], by simp⟩
  · obtain ⟨new, hnew, hop⟩ := notes_perform settings.eof ⟨op, n⟩ s
    rw [hi.left_eq]
    refine ⟨new, hnew, ?_⟩
    intro e he
    rw [hop e he]
    exact ⟨n, hi⟩

variable (kind : PortEvent → Bool) {s : State (Recorded δ)}

/-- Notes are not taken back. -/
theorem noted_le_left (s : State (Recorded δ)) :
    s.device.noted kind ≤ (s.left settings p).device.noted kind := by
  obtain ⟨new, hnew, -⟩ := exists_notes_left settings p s
  rw [Recorded.noted, Recorded.noted, hnew, List.countP_append]
  exact Nat.le_add_left _ _

/-- A turn that notes something performs an instruction that is there for it. -/
theorem exists_fetches_of_noted_lt
    (h : s.device.noted kind < (s.left settings p).device.noted kind) :
    ∃ e n, kind e = true ∧ s.Fetches settings p ⟨e.operator, n⟩ := by
  obtain ⟨new, hnew, hfetches⟩ := exists_notes_left settings p s
  rw [Recorded.noted, Recorded.noted, hnew, List.countP_append] at h
  obtain ⟨e, he, hkind⟩ := List.countP_pos_iff.mp (by omega : 0 < new.countP kind)
  obtain ⟨n, hn⟩ := hfetches e he
  exact ⟨e, n, hkind, hn⟩

end State

end FoldTape
