import FoldTape.Instruction
import FoldTape.Machine.Transfer

/-!
# The machine, one instruction at a time

What each instruction means, in plain arithmetic and without a kernel: the machine halts when
the program counter is past the program; otherwise the step limit is looked at, and only then
the instruction. Every completed instruction is one step, whatever its operand.

Runs are indexed by the number of completed steps. `after_add` splits a run at any number of
steps.
-/

namespace FoldTape

variable {δ : Type} [Device δ]

/-! ## §1 One instruction -/

/-- What one turn of the machine comes to. -/
inductive Turn (δ : Type) where
  /-- The instruction has been completed. -/
  | next (s : State δ)
  /-- There is no instruction left. -/
  | halted
  /-- The instruction could not be completed. -/
  | failed (fault : Fault) (s : State δ)

/-- A cell after adding `amount` to it. -/
def addToCell (cell : UInt8) (amount : Nat) : UInt8 :=
  UInt8.ofNat ((cell.toNat + amount) % 256)

/-- A cell after subtracting `amount` from it. -/
def subtractFromCell (cell : UInt8) (amount : Nat) : UInt8 :=
  UInt8.ofNat (((cell.toNat : Int) - amount) % 256).toNat

/-- Performs one instruction. -/
def State.perform (eof : EndPolicy) (i : Instruction) (s : State δ) : Turn δ :=
  let r := s.registers
  let n := i.operand.toNat
  let cell := r.tape.cell r.pointer
  let done (pc pointer : Nat) (tape : Tape) (device : δ) : Turn δ :=
    .next ⟨⟨pc, pointer, r.steps + 1, tape⟩, device⟩
  match i.operator with
  | .moveRight =>
    if r.pointer + n < r.tape.size then done (r.pc + 1) (r.pointer + n) r.tape s.device
    else .failed (.overflow r.pc r.pointer n r.tape.size) s
  | .moveLeft =>
    if n ≤ r.pointer then done (r.pc + 1) (r.pointer - n) r.tape s.device
    else .failed (.underflow r.pc r.pointer n) s
  | .increment => done (r.pc + 1) r.pointer (r.tape.store r.pointer (addToCell cell n)) s.device
  | .decrement =>
    done (r.pc + 1) r.pointer (r.tape.store r.pointer (subtractFromCell cell n)) s.device
  | .output =>
    match writeCell cell n s.device with
    | .ok _ device => done (r.pc + 1) r.pointer r.tape device
    | .error e device => .failed (.port e) ⟨r, device⟩
  | .input =>
    match readCell eof cell n s.device with
    | .ok _ (cell, device) => done (r.pc + 1) r.pointer (r.tape.store r.pointer cell) device
    | .error e (cell, device) =>
      .failed (e.fault r.pc r.pointer) ⟨{ r with tape := r.tape.store r.pointer cell }, device⟩
  | .jumpIfZero => done (if cell = 0 then n else r.pc + 1) r.pointer r.tape s.device
  | .jumpIfNonzero => done (if cell = 0 then r.pc + 1 else n) r.pointer r.tape s.device

/-- One turn: the end of the program is looked at first, then the limit, then the
instruction. -/
def State.turn (settings : Settings) (p : Program) (s : State δ) : Turn δ :=
  match p[s.registers.pc]? with
  | none => .halted
  | some i =>
    match settings.maxSteps with
    | some limit =>
      if limit = s.registers.steps then
        .failed (.stepLimit s.registers.pc s.registers.pointer limit) s
      else s.perform settings.eof i
    | none => s.perform settings.eof i

/-! ## §2 Runs by the number of steps -/

/-- The state after a number of completed steps, if the run gets that far. -/
def State.after (settings : Settings) (p : Program) : Nat → State δ → Option (State δ)
  | 0, s => some s
  | n + 1, s =>
    match s.turn settings p with
    | .next s => s.after settings p n
    | .halted | .failed .. => none

/-- **Runs can be split**: `m + n` steps are `m` steps and then `n` steps. -/
theorem State.after_add (settings : Settings) (p : Program) (m n : Nat) (s : State δ) :
    s.after settings p (m + n) = (s.after settings p m).bind (·.after settings p n) := by
  induction m generalizing s with
  | zero => simp [State.after]
  | succ m ih =>
    rw [Nat.succ_add]
    simp only [State.after]
    cases s.turn settings p with
    | next s => exact ih s
    | halted => rfl
    | failed => rfl

/-- The fault that ends a run, unless the program ends, and the state that is left. There is no
result if the run takes `fuel` turns or more. -/
def State.runToEnd (settings : Settings) (p : Program) :
    Nat → State δ → Option (Option Fault × State δ)
  | 0, _ => none
  | fuel + 1, s =>
    match s.turn settings p with
    | .next s => s.runToEnd settings p fuel
    | .halted => some (none, s)
    | .failed fault s => some (some fault, s)

/-- **The end of a run is final**: with more turns allowed it is the same. -/
theorem State.runToEnd_mono {settings : Settings} {p : Program} {fuel more : Nat} {s : State δ}
    {ended : Option Fault × State δ} (hle : fuel ≤ more)
    (h : s.runToEnd settings p fuel = some ended) : s.runToEnd settings p more = some ended := by
  induction fuel generalizing more s with
  | zero => simp [State.runToEnd] at h
  | succ fuel ih =>
    obtain ⟨more, rfl⟩ : ∃ k, more = k + 1 := ⟨more - 1, by omega⟩
    simp only [State.runToEnd] at h ⊢
    split at h
    · exact ih (by omega) h
    · exact h
    · exact h

end FoldTape
