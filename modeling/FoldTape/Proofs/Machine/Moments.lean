import FoldTape.Proofs.Machine.Trampoline
import FoldTape.Proofs.Ports

/-!
# Runs, moment by moment

A run in its smallest pieces: one turn of the kernel's loop, one stop, one byte written or read.
In between a run can be looked at, and what holds of it there is what its parts rely on. The
pieces are those that `Machine.execute` is made of, so a run comes to an end in this way exactly
if it does in that one.

## Architecture

- **§1 Moments**: the pieces, and what follows on each (`Moment.next?`).
- **§2 Sequences of moments**: `Moment.after` and `Moment.Reaches`.
- **§3 The kernel, serving, whole runs**: each part of a run is a sequence of moments.
- **§4 Devices**: what reads and writes of bytes keep, a run keeps.
- **§5 Ends**: `Machine.execute_iff_reaches_ended`, `Machine.execute_holds`.
-/

namespace FoldTape

variable {δ : Type}

/-! ## §1 Moments -/

/-- A moment of a run. -/
inductive Moment (δ : Type) where
  /-- The kernel is at the head of its loop, with registers of its own; `m` is the machine that has
  called it. -/
  | working (m : Machine δ) (r : Registers)
  /-- The kernel has stopped. -/
  | stopped (stop : Stop) (m : Machine δ)
  /-- The current cell is to be written so many times more. -/
  | writing (left : Nat) (m : Machine δ)
  /-- The current cell is to be read into so many times more. -/
  | reading (left : Nat) (m : Machine δ)
  /-- The run is over. -/
  | ended (fault? : Option Fault) (m : Machine δ)

namespace Machine

/-- The machine with the registers that the kernel hands back; the kernel's steps come on top of
those done before. -/
def takeBack (r : Registers) (m : Machine δ) : Machine δ :=
  { m with state := ⟨r.addSteps m.state.registers.steps, m.state.device⟩ }

/-- The machine calls the kernel, which counts its steps from zero. -/
def call (m : Machine δ) : Moment δ := .working m { m.state.registers with steps := 0 }

/-- The machine after the input or output instruction that it has served. -/
def complete (m : Machine δ) : Machine δ :=
  let r := m.state.registers
  { m with state := ⟨⟨r.pc + 1, r.pointer, r.steps + 1, r.tape⟩, m.state.device⟩ }

/-- The machine with a byte read into the current cell. -/
def receive (byte : UInt8) (device : δ) (m : Machine δ) : Machine δ :=
  { m with state := ⟨{ m.state.registers with tape := m.state.store byte }, device⟩ }

/-- A byte takes the place of the one before. -/
theorem receive_receive (byte value : UInt8) (device device' : δ) (m : Machine δ) :
    (m.receive byte device).receive value device' = m.receive value device' := by
  simp only [receive, State.store, Tape.store_store]

/-- Nothing has changed if the cell is as it was. -/
theorem receive_of_store_eq {cell : UInt8} {m : Machine δ}
    (hcell : m.state.store cell = m.state.registers.tape) (device : δ) :
    m.receive cell device = m.mapDevice fun _ => device := by
  rw [receive, hcell]
  rfl

theorem receive_cell (m : Machine δ) (device : δ) :
    m.receive m.state.cell device = m.mapDevice fun _ => device :=
  receive_of_store_eq (Tape.store_cell _ _) device

end Machine

namespace Moment

/-- The machine in a moment. While the kernel works, its registers are those of the kernel. -/
def machine : Moment δ → Machine δ
  | working m r => m.takeBack r
  | stopped _ m | writing _ m | reading _ m | ended _ m => m

/-- The moment that follows on one, unless the run is over. -/
def next? [Device δ] (code : Packed) : Moment δ → Option (Moment δ)
  | working m r =>
    match code.fetch? r.pc with
    | none => some (stopped .halted (m.takeBack r))
    | some (op, n) =>
      if Kernel.exhausted m.budget r.steps then some (stopped .stepLimit (m.takeBack r))
      else
        match Kernel.perform op n r with
        | .error stop r => some (stopped stop (m.takeBack r))
        | .ok _ r => some (working m r)
  | stopped .halted m => some (ended none m)
  | stopped .output m => some (writing (m.amount code) m)
  | stopped .input m => some (reading (m.amount code) m)
  | stopped .stepLimit m =>
    let r := m.state.registers
    some (ended (some (.stepLimit r.pc r.pointer (m.settings.maxSteps.getD 0))) m)
  | stopped .underflow m =>
    let r := m.state.registers
    some (ended (some (.underflow r.pc r.pointer (m.amount code))) m)
  | stopped .overflow m =>
    let r := m.state.registers
    some (ended (some (.overflow r.pc r.pointer (m.amount code) m.settings.tapeSize)) m)
  | writing 0 m => some m.complete.call
  | writing (left + 1) m =>
    match Device.write (m.state.cell.toNat : Int) m.state.device with
    | .ok _ device => some (writing left (m.mapDevice fun _ => device))
    | .error e device => some (ended (some (.port e)) (m.mapDevice fun _ => device))
  | reading 0 m => some m.complete.call
  | reading (left + 1) m =>
    match Device.read m.state.device with
    | .error e device => some (ended (some (.port e)) (m.mapDevice fun _ => device))
    | .ok (some byte) device => some (reading left (m.receive byte device))
    | .ok none device =>
      match m.settings.eof with
      | .zero => some (reading left (m.receive 0 device))
      | .error =>
        let r := m.state.registers
        some (ended (some (.endOfInput r.pc r.pointer)) (m.mapDevice fun _ => device))
  | ended .. => none

/-! ## §2 Sequences of moments -/

variable [Device δ] {code : Packed} {a b c : Moment δ}

/-- The moment that comes a number of moments later, if the run goes on for so long. -/
def after (code : Packed) : Nat → Moment δ → Option (Moment δ)
  | 0, a => some a
  | n + 1, a =>
    match a.next? code with
    | some b => b.after code n
    | none => none

/-- One moment comes some time after another. -/
def Reaches (code : Packed) (a b : Moment δ) : Prop := ∃ n, a.after code n = some b

theorem after_add (m n : Nat) (a : Moment δ) :
    a.after code (m + n) = (a.after code m).bind (·.after code n) := by
  induction m generalizing a with
  | zero => simp [after]
  | succ m ih =>
    rw [Nat.succ_add]
    simp only [after]
    cases a.next? code with
    | some b => exact ih b
    | none => rfl

theorem Reaches.refl (a : Moment δ) : Reaches code a a := ⟨0, rfl⟩

theorem Reaches.trans (hab : Reaches code a b) (hbc : Reaches code b c) : Reaches code a c := by
  obtain ⟨m, hm⟩ := hab
  obtain ⟨n, hn⟩ := hbc
  refine ⟨m + n, ?_⟩
  rw [after_add, hm, Option.bind_some, hn]

theorem Reaches.head (h : a.next? code = some b) (hbc : Reaches code b c) : Reaches code a c := by
  obtain ⟨n, hn⟩ := hbc
  refine ⟨n + 1, ?_⟩
  rw [after, h]
  exact hn

/-- What one moment hands on to the next holds of all later moments. -/
theorem Reaches.induction {motive : Moment δ → Prop}
    (step : ∀ a b, a.next? code = some b → motive a → motive b) (h : Reaches code a b)
    (ha : motive a) : motive b := by
  obtain ⟨n, hn⟩ := h
  induction n generalizing a with
  | zero =>
    cases hn
    exact ha
  | succ n ih =>
    simp only [after] at hn
    split at hn
    · rename_i hnext
      exact ih (step _ _ hnext ha) hn
    · cases hn

/-- After the end of a run nothing follows. -/
theorem after_ended {fault? : Option Fault} {m : Machine δ} {n : Nat}
    (h : (ended fault? m).after code n = some b) : n = 0 ∧ b = ended fault? m := by
  cases n with
  | zero =>
    cases h
    exact ⟨rfl, rfl⟩
  | succ n => cases h

/-- A run that is over at some moment does not last longer. -/
theorem le_of_after_ended {fault? : Option Fault} {m : Machine δ} {k n : Nat}
    (h : a.after code k = some (ended fault? m)) (hn : a.after code n = some b) : n ≤ k := by
  rcases Nat.lt_or_ge k n with hlt | hge
  · have hsplit : n = k + (n - k) := by omega
    rw [hsplit, after_add, h, Option.bind_some] at hn
    have hzero := (after_ended hn).1
    omega
  · exact hge

/-- A run is over in one way only. -/
theorem Reaches.ended_unique {fault? fault?' : Option Fault} {m m' : Machine δ}
    (h : Reaches code a (ended fault? m)) (h' : Reaches code a (ended fault?' m')) :
    fault? = fault?' ∧ m = m' := by
  obtain ⟨k, hk⟩ := h
  obtain ⟨n, hn⟩ := h'
  obtain rfl : k = n := Nat.le_antisymm (le_of_after_ended hn hk) (le_of_after_ended hk hn)
  rw [hk] at hn
  cases hn
  exact ⟨rfl, rfl⟩

/-! ## §3 The kernel, serving, whole runs -/

/-- **What a turn of the kernel's loop comes to**: it performs the instruction that it has looked up,
which is one turn of the one-instruction machine, or it stops and leaves everything as it is. -/
theorem next_working_cases {p : Program} (hp : p.Admissible) (hcode : p.pack? = some code)
    {m : Machine δ} {r : Registers} (hvalid : (m.takeBack r).state.Valid m.settings)
    (hnext : (working m r).next? code = some b) :
    (∃ r', b = working m r' ∧
      (m.takeBack r).state.turn m.settings p = .next (m.takeBack r').state) ∨
    ∃ stop, b = stopped stop (m.takeBack r) ∧
      Stop.At m.settings p (m.takeBack r).state stop := by
  simp only [next?, Program.fetch?_pack hcode] at hnext
  cases hi : p[r.pc]? with
  | none =>
    rw [hi] at hnext
    cases hnext
    exact .inr ⟨_, rfl, .halted hi⟩
  | some i =>
    rw [hi] at hnext
    simp only [Option.map_some] at hnext
    split at hnext
    · -- The budget is used up exactly at the limit.
      rename_i hexhausted
      cases hnext
      exact .inr ⟨_, rfl,
        .stepLimit ⟨⟨i, hi⟩, (Kernel.exhausted_budget_iff hvalid).mp hexhausted⟩⟩
    · rename_i hleft
      have hfetch : State.Fetches m.settings p (m.takeBack r).state i :=
        ⟨hi, mt (Kernel.exhausted_budget_iff hvalid).mpr hleft⟩
      have hrange := hp.of_getElem? hi
      split at hnext
      · rename_i hperform
        cases hnext
        obtain ⟨rfl, hat⟩ := Kernel.perform_error hrange hperform hfetch
        exact .inr ⟨_, rfl, hat⟩
      · rename_i r' hperform
        cases hnext
        refine .inl ⟨r', rfl, hfetch.turn_eq.trans ?_⟩
        exact Kernel.perform_ok hrange hperform m.settings.eof m.state.registers.steps
          m.state.device

/-- A call of the kernel. -/
theorem reaches_of_kernel_run {m : Machine δ} {fuel : Nat} {r r' : Registers} {stop : Stop}
    (h : Kernel.run code m.budget fuel r = some (stop, r')) :
    Reaches code (working m r) (stopped stop (m.takeBack r')) := by
  induction fuel generalizing r with
  | zero => cases h
  | succ fuel ih =>
    simp only [Kernel.run] at h
    split at h
    · rename_i hfetch
      cases h
      exact .head (by simp only [next?, hfetch]) (.refl _)
    · rename_i hfetch
      split at h
      · rename_i hexhausted
        cases h
        exact .head (by simp only [next?, hfetch, hexhausted, if_true]) (.refl _)
      · rename_i hleft
        split at h
        · rename_i hperform
          cases h
          exact .head (by simp only [next?, hfetch, if_neg hleft, hperform]) (.refl _)
        · rename_i hperform
          exact .head (by simp only [next?, hfetch, if_neg hleft, hperform]) (ih h)

/-- The moment that writing comes to. -/
def ofWriting (m : Machine δ) : EStateM.Result PortError δ Unit → Moment δ
  | .ok _ device => (m.mapDevice fun _ => device).complete.call
  | .error e device => ended (some (.port e)) (m.mapDevice fun _ => device)

/-- The moment that reading comes to. -/
def ofReading (m : Machine δ) : EStateM.Result ReadFailure (UInt8 × δ) Unit → Moment δ
  | .ok _ (cell, device) => (m.receive cell device).complete.call
  | .error e (cell, device) =>
    ended (some (e.fault m.state.registers.pc m.state.registers.pointer)) (m.receive cell device)

/-- The moment that serving a stop comes to. -/
def ofServed : Machine.Served δ → Moment δ
  | .goOn m => m.call
  | .over fault? m => ended fault? m

omit [Device δ] in
/-- The devices on the way do not matter to what writing comes to. -/
theorem ofWriting_mapDevice (m : Machine δ) (device : δ)
    (r : EStateM.Result PortError δ Unit) :
    ofWriting (m.mapDevice fun _ => device) r = ofWriting m r := by
  cases r <;> rfl

/-- Writing byte by byte comes to what writing the cell does. -/
theorem reaches_ofWriting (n : Nat) (m : Machine δ) :
    Reaches code (writing n m) (ofWriting m (writeCell m.state.cell n m.state.device)) := by
  induction n generalizing m with
  | zero => exact .head rfl (.refl _)
  | succ n ih =>
    rw [writeCell]
    cases hwrite : Device.write (m.state.cell.toNat : Int) m.state.device with
    | ok _ device =>
      have hrest := ih (m.mapDevice fun _ => device)
      rw [ofWriting_mapDevice] at hrest
      exact .head (by simp only [next?, hwrite]) hrest
    | error e device => exact .head (by simp only [next?, hwrite, ofWriting]) (.refl _)

omit [Device δ] in
/-- The bytes on the way do not matter to what reading comes to. -/
theorem ofReading_receive (m : Machine δ) (byte : UInt8) (device : δ)
    (r : EStateM.Result ReadFailure (UInt8 × δ) Unit) :
    ofReading (m.receive byte device) r = ofReading m r := by
  cases r with
  | ok _ r => rw [ofReading, Machine.receive_receive, ofReading]
  | error e r => rw [ofReading, Machine.receive_receive, ofReading]; rfl

/-- Reading byte by byte, each into the cell, comes to what reading into the cell at the end
does. -/
theorem reaches_ofReading {cell : UInt8} (n : Nat) (m : Machine δ)
    (hcell : m.state.store cell = m.state.registers.tape) :
    Reaches code (reading n m)
      (ofReading m (readCell m.settings.eof cell n m.state.device)) := by
  induction n generalizing m cell with
  | zero =>
    rw [readCell, ofReading, m.receive_of_store_eq hcell]
    exact .head rfl (.refl _)
  | succ n ih =>
    have hkept := m.receive_of_store_eq hcell
    have hnext : ∀ byte device, Reaches code (reading n (m.receive byte device))
        (ofReading m (readCell m.settings.eof byte n device)) := by
      intro byte device
      have hstored : (m.receive byte device).state.store byte =
          (m.receive byte device).state.registers.tape := by
        simp only [Machine.receive, State.store, Tape.store_store]
      rw [← ofReading_receive m byte device]
      exact ih (m.receive byte device) hstored
    cases hread : Device.read m.state.device with
    | error e device =>
      simp only [readCell, hread, ofReading, hkept]
      exact .head (by simp only [next?, hread, ReadFailure.fault]) (.refl _)
    | ok byte? device =>
      cases byte? with
      | some byte =>
        simp only [readCell, hread]
        exact .head (by simp only [next?, hread]) (hnext byte device)
      | none =>
        cases heof : m.settings.eof with
        | zero =>
          rw [heof] at hnext
          simp only [readCell, hread]
          exact .head (by simp only [next?, hread, heof]) (hnext 0 device)
        | error =>
          simp only [readCell, hread, ofReading, hkept]
          exact .head (by simp only [next?, hread, heof, ReadFailure.fault]) (.refl _)

/-- Serving an output instruction is writing the cell. -/
theorem ofServed_serve_output (m : Machine δ) :
    ofServed (m.serve code .output) =
      ofWriting m (writeCell m.state.cell (m.amount code) m.state.device) := by
  show ofServed (match writeCell m.state.cell (m.amount code) m.state.device with
    | .ok _ _ => _
    | .error _ _ => _) = _
  cases writeCell m.state.cell (m.amount code) m.state.device <;> rfl

/-- Serving an input instruction is reading into the cell. -/
theorem ofServed_serve_input (m : Machine δ) :
    ofServed (m.serve code .input) =
      ofReading m (readCell m.settings.eof m.state.cell (m.amount code) m.state.device) := by
  show ofServed (match readCell m.settings.eof m.state.cell (m.amount code) m.state.device with
    | .ok _ (_, _) => _
    | .error _ (_, _) => _) = _
  cases readCell m.settings.eof m.state.cell (m.amount code) m.state.device <;> rfl

/-- Serving a stop. -/
theorem reaches_ofServed (stop : Stop) (m : Machine δ) :
    Reaches code (stopped stop m) (ofServed (m.serve code stop)) := by
  cases stop with
  | halted | stepLimit | underflow | overflow => exact .head rfl (.refl _)
  | output =>
    rw [ofServed_serve_output]
    exact .head rfl (reaches_ofWriting (m.amount code) m)
  | input =>
    rw [ofServed_serve_input]
    exact .head rfl (reaches_ofReading (m.amount code) m (Tape.store_cell _ _))

/-- A burst is a call of the kernel. -/
theorem reaches_of_burst {m m' : Machine δ} {fuel : Nat} {stop : Stop}
    (h : m.burst code fuel = some (stop, m')) : Reaches code m.call (stopped stop m') := by
  simp only [Machine.burst] at h
  split at h
  · cases h
  · rename_i hrun
    cases h
    exact reaches_of_kernel_run hrun

/-- The kernel and the machine taking turns. -/
theorem reaches_of_takeTurns {m : Machine δ} {fuel : Nat} {bursts : List Burst}
    {report : Report δ} (h : m.takeTurns code fuel bursts = some report) :
    Reaches code m.call (ended report.fault? report.machine) := by
  induction fuel generalizing m bursts with
  | zero => cases h
  | succ fuel ih =>
    simp only [Machine.takeTurns] at h
    split at h
    · cases h
    · rename_i stop m₁ hburst
      have hserved := (reaches_of_burst hburst).trans (reaches_ofServed stop m₁)
      split at h
      · rename_i hserve
        cases h
        rw [hserve] at hserved
        exact hserved
      · rename_i m₂ hserve
        rw [hserve] at hserved
        exact hserved.trans (ih h)

/-! ## §4 Devices -/

/-- The device of a moment is as it should be, and so is the error that has ended the run, if one
has. -/
def Holds (P : δ → Prop) (Q : PortError → Prop) (a : Moment δ) : Prop :=
  P a.machine.state.device ∧ ∀ e m, a = ended (some (.port e)) m → Q e

/-- What reads and writes of bytes keep, the next moment keeps. -/
theorem Holds.next {P : δ → Prop} {Q : PortError → Prop} (hP : Device.Keeps P Q)
    (ha : a.Holds P Q) (hnext : a.next? code = some b) : b.Holds P Q := by
  obtain ⟨ha, -⟩ := ha
  cases a with
  | working m r =>
    -- The kernel knows nothing of the device.
    simp only [next?] at hnext
    split at hnext
    · cases hnext
      exact ⟨ha, nofun⟩
    · split at hnext
      · cases hnext
        exact ⟨ha, nofun⟩
      · split at hnext <;> cases hnext <;> exact ⟨ha, nofun⟩
  | stopped stop m => cases stop <;> cases hnext <;> exact ⟨ha, nofun⟩
  | writing left m =>
    cases left with
    | zero =>
      cases hnext
      exact ⟨ha, nofun⟩
    | succ left =>
      simp only [next?] at hnext
      split at hnext
      · rename_i hwrite
        cases hnext
        exact ⟨hP.write_ok ha hwrite, nofun⟩
      · rename_i hwrite
        cases hnext
        obtain ⟨hdevice, he⟩ := hP.write_error ha hwrite
        refine ⟨hdevice, ?_⟩
        rintro e m ⟨⟩
        exact he
  | reading left m =>
    cases left with
    | zero =>
      cases hnext
      exact ⟨ha, nofun⟩
    | succ left =>
      simp only [next?] at hnext
      split at hnext
      · rename_i hread
        cases hnext
        obtain ⟨hdevice, he⟩ := hP.read_error ha hread
        refine ⟨hdevice, ?_⟩
        rintro e m ⟨⟩
        exact he
      · rename_i hread
        cases hnext
        exact ⟨hP.read_ok ha hread, nofun⟩
      · rename_i hread
        have hdevice := hP.read_ok ha hread
        split at hnext <;> cases hnext <;> exact ⟨hdevice, nofun⟩
  | ended fault? m => cases hnext

/-- What holds of the device at first holds of it all the time. -/
theorem Reaches.holds {P : δ → Prop} {Q : PortError → Prop} (hP : Device.Keeps P Q)
    {m : Machine δ} (h : Reaches code m.call b) (hm : P m.state.device) : b.Holds P Q :=
  h.induction (fun _ _ hnext ha => ha.next hP hnext) ⟨hm, nofun⟩

/-! ## §5 Ends -/

/-- A kernel that has not stopped yet has gone on for as many moments. -/
theorem exists_after_of_kernel_run {m : Machine δ} {fuel : Nat} {r : Registers}
    (h : Kernel.run code m.budget fuel r = none) :
    ∃ b, (working m r).after code fuel = some b := by
  induction fuel generalizing r with
  | zero => exact ⟨_, rfl⟩
  | succ fuel ih =>
    simp only [Kernel.run] at h
    split at h
    · cases h
    · rename_i hfetch
      split at h
      · cases h
      · rename_i hleft
        split at h
        · cases h
        · rename_i r' hperform
          obtain ⟨b, hb⟩ := ih h
          refine ⟨b, ?_⟩
          have hnext : (working m r).next? code = some (working m r') := by
            simp only [next?, hfetch, if_neg hleft, hperform]
          rw [after, hnext]
          exact hb

/-- A run that has not ended yet has gone on for as many moments. -/
theorem exists_after_of_takeTurns {m : Machine δ} {fuel : Nat} {bursts : List Burst}
    (h : m.takeTurns code fuel bursts = none) :
    ∃ n b, fuel ≤ n ∧ m.call.after code n = some b := by
  induction fuel generalizing m bursts with
  | zero => exact ⟨0, m.call, Nat.le_refl 0, rfl⟩
  | succ fuel ih =>
    simp only [Machine.takeTurns] at h
    split at h
    · rename_i hburst
      simp only [Machine.burst] at hburst
      split at hburst
      · rename_i hrun
        obtain ⟨b, hb⟩ := exists_after_of_kernel_run hrun
        exact ⟨fuel + 1, b, Nat.le_refl _, hb⟩
      · cases hburst
    · rename_i stop m₁ hburst
      split at h
      · cases h
      · -- The kernel's stop is one moment at least.
        rename_i m₂ hserve
        obtain ⟨j, hj⟩ := reaches_of_burst hburst
        obtain ⟨k, hk⟩ : Reaches code (stopped stop m₁) m₂.call := by
          rw [← ofServed, ← hserve]
          exact reaches_ofServed stop m₁
        obtain ⟨n, b, hn, hb⟩ := ih h
        have hpositive : 0 < j := by
          rcases Nat.eq_zero_or_pos j with rfl | hpos
          · cases hj
          · exact hpos
        refine ⟨j + k + n, b, by omega, ?_⟩
        rw [Nat.add_assoc, after_add, hj, Option.bind_some, after_add, hk, Option.bind_some, hb]

end Moment

/-- **A run, moment by moment**: a program that can be packed is executed to an end exactly if the
moments from the first call of the kernel on lead to that end. -/
theorem Machine.execute_iff_reaches_ended [Device δ] {p : Program} {code : Packed}
    (hcode : p.pack? = some code) (m : Machine δ) (fault? : Option Fault) (m' : Machine δ) :
    (∃ fuel report, m.execute fuel p = some report ∧ report.fault? = fault? ∧
        report.machine = m') ↔
      Moment.Reaches code m.reset.call (.ended fault? m') := by
  constructor
  · rintro ⟨fuel, report, h, rfl, rfl⟩
    simp only [execute, hcode] at h
    exact Moment.reaches_of_takeTurns h
  · rintro ⟨k, hk⟩
    -- With more turns than there are moments the run has ended.
    cases h : m.reset.takeTurns code (k + 1) [] with
    | none =>
      obtain ⟨n, b, hn, hb⟩ := Moment.exists_after_of_takeTurns h
      have hle := Moment.le_of_after_ended hk hb
      omega
    | some report =>
      obtain ⟨hfault, hmachine⟩ :=
        Moment.Reaches.ended_unique (Moment.reaches_of_takeTurns h) ⟨k, hk⟩
      refine ⟨k + 1, report, ?_, hfault, hmachine⟩
      simp only [execute, hcode]
      exact h

/-- **What reads and writes keep, a run keeps**, and it fails for no other reason of the device than
they do. -/
theorem Machine.execute_holds [Device δ] {P : δ → Prop} {Q : PortError → Prop}
    (hP : Device.Keeps P Q) {m : Machine δ} (hm : P m.state.device) {fuel : Nat} {p : Program}
    {report : Report δ} (h : m.execute fuel p = some report) :
    P report.machine.state.device ∧ ∀ e, report.fault? = some (.port e) → Q e := by
  cases hcode : p.pack? with
  | none =>
    simp only [execute, hcode] at h
    cases h
    refine ⟨hm, ?_⟩
    rintro e ⟨⟩
  | some code =>
    have hended := (execute_iff_reaches_ended hcode m _ _).mp ⟨fuel, report, h, rfl, rfl⟩
    obtain ⟨hdevice, hfault⟩ := hended.holds hP hm
    refine ⟨hdevice, ?_⟩
    intro e he
    exact hfault e report.machine (by rw [he])

end FoldTape
