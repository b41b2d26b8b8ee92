import FoldTape.Machine.Kernel
import FoldTape.Machine.Transfer

/-!
# Running programs on a machine

A machine keeps its settings, its registers and its device between runs. A run begins with
cleared registers and a blank tape, while settings and device stay as they are. Then the kernel
and the machine take turns: the kernel runs until it needs the device or cannot go on, the
machine serves the request, and so forth. The budget that the kernel gets is what is left of
the allowed steps.
-/

namespace FoldTape

/-- A machine: its settings and the state that its last run has left. -/
structure Machine (δ : Type) where
  settings : Settings
  state : State δ

/-- One call of the kernel: the budget it was given, why it stopped, and where. The steps are
those of the whole run so far. -/
structure Burst where
  budget : Int
  stop : Stop
  pc : Nat
  pointer : Nat
  steps : Nat
  deriving DecidableEq, Repr

/-- What a finished run comes to. -/
structure Report (δ : Type) where
  /-- The fault that ended the run, unless the program ran to its end. -/
  fault? : Option Fault
  /-- The machine as the run has left it. -/
  machine : Machine δ
  /-- The calls of the kernel, in order. -/
  bursts : List Burst

namespace Machine

variable {δ : Type}

/-! ## §1 Between runs -/

/-- A machine with a blank tape. -/
def new (settings : Settings) (device : δ) : Machine δ :=
  ⟨settings, ⟨.start settings.tapeSize, device⟩⟩

/-- Clears the registers and the tape; settings and device stay. -/
def reset (m : Machine δ) : Machine δ :=
  { m with state := { m.state with registers := .start m.settings.tapeSize } }

/-- Sets the number of allowed steps. -/
def setMaxSteps (maxSteps : Option Int) (m : Machine δ) : Machine δ :=
  { m with settings := { m.settings with maxSteps } }

/-- Sets what reading at the end of the input does. -/
def setEof (eof : EndPolicy) (m : Machine δ) : Machine δ :=
  { m with settings := { m.settings with eof } }

/-- Changes the device. -/
def mapDevice (f : δ → δ) (m : Machine δ) : Machine δ :=
  { m with state := { m.state with device := f m.state.device } }

/-! ## §2 Turns of the kernel and of the machine -/

/-- The budget of the next call of the kernel: what is left of the allowed steps, and a
negative number if there is no limit. -/
def budget (m : Machine δ) : Int :=
  match m.settings.maxSteps with
  | none => -1
  | some limit => limit - m.state.registers.steps

/-- Lets the kernel run until it stops. -/
def burst (code : Packed) (fuel : Nat) (m : Machine δ) : Option (Stop × Machine δ) :=
  let budget := m.budget
  match m with
  | ⟨settings, ⟨⟨pc, pointer, steps, tape⟩, device⟩⟩ =>
    match Kernel.run code budget fuel ⟨pc, pointer, 0, tape⟩ with
    | none => none
    | some (stop, ⟨pc, pointer, more, tape⟩) =>
      some (stop, ⟨settings, ⟨⟨pc, pointer, steps + more, tape⟩, device⟩⟩)

/-- What serving the kernel comes to. -/
inductive Served (δ : Type) where
  /-- The kernel can go on. -/
  | goOn (m : Machine δ)
  /-- The run is over. -/
  | over (fault? : Option Fault) (m : Machine δ)

/-- The operand of the instruction in front of which the kernel has stopped. -/
def amount (code : Packed) (m : Machine δ) : Nat :=
  match code.fetch? m.state.registers.pc with
  | some (_, n) => n.toNatClampNeg
  | none => 0

/-- Serves the kernel after a stop: performs the input or output instruction it stopped at, or
ends the run. -/
def serve [Device δ] (code : Packed) (stop : Stop) (m : Machine δ) : Served δ :=
  let amount := m.amount code
  match m with
  | ⟨settings, ⟨⟨pc, pointer, steps, tape⟩, device⟩⟩ =>
    match stop with
    | .halted => .over none ⟨settings, ⟨⟨pc, pointer, steps, tape⟩, device⟩⟩
    | .output =>
      match writeCell (tape.cell pointer) amount device with
      | .ok _ device => .goOn ⟨settings, ⟨⟨pc + 1, pointer, steps + 1, tape⟩, device⟩⟩
      | .error e device =>
        .over (some (.port e)) ⟨settings, ⟨⟨pc, pointer, steps, tape⟩, device⟩⟩
    | .input =>
      match readCell settings.eof (tape.cell pointer) amount device with
      | .ok _ (cell, device) =>
        .goOn ⟨settings, ⟨⟨pc + 1, pointer, steps + 1, tape.store pointer cell⟩, device⟩⟩
      | .error e (cell, device) =>
        .over (some (e.fault pc pointer))
          ⟨settings, ⟨⟨pc, pointer, steps, tape.store pointer cell⟩, device⟩⟩
    | .stepLimit =>
      .over (some (.stepLimit pc pointer (settings.maxSteps.getD 0)))
        ⟨settings, ⟨⟨pc, pointer, steps, tape⟩, device⟩⟩
    | .underflow =>
      .over (some (.underflow pc pointer amount))
        ⟨settings, ⟨⟨pc, pointer, steps, tape⟩, device⟩⟩
    | .overflow =>
      .over (some (.overflow pc pointer amount settings.tapeSize))
        ⟨settings, ⟨⟨pc, pointer, steps, tape⟩, device⟩⟩

/-- The kernel and the machine take turns until the run is over. `bursts` are the calls of the
kernel so far, last one first. There is no result if `fuel` does not suffice. -/
def takeTurns [Device δ] (code : Packed) :
    Nat → List Burst → Machine δ → Option (Report δ)
  | 0, _, _ => none
  | fuel + 1, bursts, m =>
    let budget := m.budget
    match m.burst code (fuel + 1) with
    | none => none
    | some (stop, m) =>
      let r := m.state.registers
      let bursts := ⟨budget, stop, r.pc, r.pointer, r.steps⟩ :: bursts
      match m.serve code stop with
      | .over fault? m => some ⟨fault?, m, bursts.reverse⟩
      | .goOn m => takeTurns code fuel bursts m

/-- A burst that ends is the same with more turns allowed. -/
theorem burst_mono {code : Packed} {fuel more : Nat} {m : Machine δ}
    {stopped : Stop × Machine δ} (hle : fuel ≤ more) (h : m.burst code fuel = some stopped) :
    m.burst code more = some stopped := by
  simp only [burst] at h ⊢
  split at h
  · cases h
  · rename_i ended
    rw [Kernel.run_mono hle ended]
    exact h

/-- **A finished run is final**: with more turns allowed its report is the same. -/
theorem takeTurns_mono [Device δ] {code : Packed} {fuel more : Nat} {bursts : List Burst}
    {m : Machine δ} {report : Report δ} (hle : fuel ≤ more)
    (h : m.takeTurns code fuel bursts = some report) :
    m.takeTurns code more bursts = some report := by
  induction fuel generalizing more bursts m with
  | zero => simp [takeTurns] at h
  | succ fuel ih =>
    obtain ⟨more, rfl⟩ : ∃ k, more = k + 1 := ⟨more - 1, by omega⟩
    simp only [takeTurns] at h ⊢
    split at h
    · cases h
    · rename_i ended
      rw [burst_mono hle ended]
      dsimp only
      split at h
      · exact h
      · exact ih (by omega) h

/-! ## §3 Runs -/

/-- Runs a program from cleared registers. A program that cannot be packed fails after that,
with nothing done. There is no result if `fuel` does not suffice for the run. -/
def execute [Device δ] (fuel : Nat) (p : Program) (m : Machine δ) : Option (Report δ) :=
  let m := m.reset
  match p.pack? with
  | none => some ⟨some .operandTooLarge, m, []⟩
  | some code => m.takeTurns code fuel []

/-- A report on a run does not depend on how many turns were allowed. -/
theorem execute_mono [Device δ] {fuel more : Nat} {p : Program} {m : Machine δ}
    {report : Report δ} (hle : fuel ≤ more) (h : m.execute fuel p = some report) :
    m.execute more p = some report := by
  simp only [execute] at h ⊢
  split at h
  · exact h
  · exact takeTurns_mono hle h

end Machine

end FoldTape
