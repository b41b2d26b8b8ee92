import FoldTape.Machine.Execution
import FoldTape.Proofs.Ports

/-!
# Machines on different devices

A machine knows nothing of its device but the answers that it gives. If two devices answer alike,
and go on to answer alike in the states that they are in afterwards, then machines with the same
settings do the same on either of them.

## Architecture

- **§1 Folded input and output**: one induction on the operand each.
- **§2 Bursts and stops**: what a machine does between two calls of the kernel.
- **§3 Runs**: `Machine.execute_alike`, by induction on the turns.
-/

namespace FoldTape

variable {δ δ' : Type} {R : δ → δ' → Prop} [Device δ] [Device δ']

/-! ## §1 Folded input and output -/

/-- Writing a cell a number of times. -/
theorem writeCell_alike (hR : Device.Simulation R) {d : δ} {d' : δ'} (h : R d d') (cell : UInt8)
    (count : Nat) : Alike R (writeCell cell count d) (writeCell cell count d') := by
  induction count generalizing d d' with
  | zero => exact .ok h
  | succ count ih =>
    simp only [writeCell]
    have hwrite := hR.write cell h
    generalize Device.write (cell.toNat : Int) d = a, Device.write (cell.toNat : Int) d' = a'
      at hwrite ⊢
    cases hwrite with
    | ok h => exact ih h
    | error h => exact .error h

/-- Reading into a cell a number of times: the cell is the same afterwards. -/
theorem readCell_alike (hR : Device.Simulation R) {d : δ} {d' : δ'} (h : R d d') (eof : EndPolicy)
    (cell : UInt8) (count : Nat) :
    Alike (fun s t : UInt8 × _ => s.1 = t.1 ∧ R s.2 t.2) (readCell eof cell count d)
      (readCell eof cell count d') := by
  induction count generalizing cell d d' with
  | zero => exact .ok ⟨rfl, h⟩
  | succ count ih =>
    simp only [readCell]
    have hread := hR.read h
    generalize Device.read d = a, Device.read d' = a' at hread ⊢
    cases hread with
    | error h => exact .error ⟨rfl, h⟩
    | @ok byte? _ _ h =>
      cases byte? with
      | some byte => exact ih h byte
      | none =>
        cases eof with
        | error => exact .error ⟨rfl, h⟩
        | zero => exact ih h 0

/-! ## §2 Bursts and stops -/

namespace Machine

/-- The same settings and registers, on devices that are related. -/
structure Alike (R : δ → δ' → Prop) (m : Machine δ) (m' : Machine δ') : Prop where
  settings : m.settings = m'.settings
  registers : m.state.registers = m'.state.registers
  device : R m.state.device m'.state.device

/-- The kernel can go on, or the run is over in the same way. -/
inductive Served.Alike (R : δ → δ' → Prop) : Served δ → Served δ' → Prop
  | goOn {m : Machine δ} {m' : Machine δ'} : m.Alike R m' → Alike R (.goOn m) (.goOn m')
  | over {fault? : Option Fault} {m : Machine δ} {m' : Machine δ'} :
      m.Alike R m' → Alike R (.over fault? m) (.over fault? m')

variable {m : Machine δ} {m' : Machine δ'} {code : Packed}

omit [Device δ] [Device δ'] in
/-- The kernel has nothing to do with the device. -/
theorem burst_alike (h : m.Alike R m') (code : Packed) (fuel : Nat) :
    Option.Rel (fun a b => a.1 = b.1 ∧ a.2.Alike R b.2) (m.burst code fuel)
      (m'.burst code fuel) := by
  obtain ⟨settings, registers, device⟩ := m
  obtain ⟨_, _, device'⟩ := m'
  obtain ⟨rfl, rfl, h⟩ := h
  simp only [burst, budget]
  split
  · exact .none
  · exact .some ⟨rfl, rfl, rfl, h⟩

/-- Serving a stop. -/
theorem serve_alike (hR : Device.Simulation R) (h : m.Alike R m') (code : Packed) (stop : Stop) :
    Served.Alike R (m.serve code stop) (m'.serve code stop) := by
  -- The operand is looked up at the program counter, so it is the same for both.
  have hamount : m'.amount code = m.amount code := by simp only [amount, h.registers]
  obtain ⟨settings, ⟨⟨pc, pointer, steps, tape⟩, d⟩⟩ := m
  obtain ⟨_, ⟨_, d'⟩⟩ := m'
  obtain ⟨rfl, rfl, h⟩ := h
  simp only [serve, hamount]
  generalize amount code ⟨settings, ⟨⟨pc, pointer, steps, tape⟩, d⟩⟩ = count
  cases stop with
  | halted | stepLimit | underflow | overflow => exact .over ⟨rfl, rfl, h⟩
  | output =>
    have hwrite := writeCell_alike hR h (tape.cell pointer) count
    generalize writeCell _ count d = a, writeCell _ count d' = a' at hwrite ⊢
    cases hwrite with
    | ok h => exact .goOn ⟨rfl, rfl, h⟩
    | error h => exact .over ⟨rfl, rfl, h⟩
  | input =>
    have hread := readCell_alike hR h settings.eof (tape.cell pointer) count
    generalize readCell _ _ count d = a, readCell _ _ count d' = a' at hread ⊢
    cases hread with
    | ok h =>
      obtain ⟨hcell, h⟩ := h
      exact .goOn ⟨rfl, by simp only [hcell], h⟩
    | error h =>
      obtain ⟨hcell, h⟩ := h
      exact .over ⟨rfl, by simp only [hcell], h⟩

end Machine

/-! ## §3 Runs -/

/-- Reports that differ in the devices only. -/
structure Report.Alike (R : δ → δ' → Prop) (r : Report δ) (r' : Report δ') : Prop where
  fault : r.fault? = r'.fault?
  machine : r.machine.Alike R r'.machine
  bursts : r.bursts = r'.bursts

namespace Machine

variable {m : Machine δ} {m' : Machine δ'}

/-- The kernel and the machine taking turns. -/
theorem takeTurns_alike (hR : Device.Simulation R) (h : m.Alike R m') (code : Packed) (fuel : Nat)
    (bursts : List Burst) :
    Option.Rel (Report.Alike R) (m.takeTurns code fuel bursts) (m'.takeTurns code fuel bursts) := by
  induction fuel generalizing m m' bursts with
  | zero => exact .none
  | succ fuel ih =>
    have hbudget : m.budget = m'.budget := by
      simp only [budget, h.settings, h.registers]
    have hburst := burst_alike h code (fuel + 1)
    simp only [takeTurns, hbudget]
    generalize m.burst code (fuel + 1) = b, m'.burst code (fuel + 1) = b' at hburst ⊢
    cases hburst with
    | none => exact .none
    | some hstopped =>
      rename_i stopped stopped'
      obtain ⟨stop, n⟩ := stopped
      obtain ⟨_, n'⟩ := stopped'
      obtain ⟨rfl, (h : n.Alike R n')⟩ := hstopped
      have hserve := serve_alike hR h code stop
      simp only [h.registers]
      generalize n.serve code stop = s, n'.serve code stop = s' at hserve ⊢
      rcases hserve with h | h
      · exact ih h _
      · exact .some ⟨rfl, h, rfl⟩

/-- **Machines on devices that answer alike run alike**, if their settings are the same. What
earlier runs have left in the registers does not matter. -/
theorem execute_alike (hR : Device.Simulation R) (hsettings : m.settings = m'.settings)
    (hdevice : R m.state.device m'.state.device) (fuel : Nat) (p : Program) :
    Option.Rel (Report.Alike R) (m.execute fuel p) (m'.execute fuel p) := by
  have hreset : m.reset.Alike R m'.reset := ⟨hsettings, by simp only [reset, hsettings], hdevice⟩
  simp only [execute]
  cases p.pack? with
  | none => exact .some ⟨rfl, hreset, rfl⟩
  | some code => exact takeTurns_alike hR hreset code fuel []

end Machine

end FoldTape
