import FoldTape.Proofs.Folding.Layout
import FoldTape.Proofs.Machine.Endings

/-!
# Runs that end

Two loops make up a run, and neither of them has a bound of its own: the kernel goes on until it
stops, and the machine calls it again after every instruction that it has served. One measure does
for both. Each turn of the kernel that goes on completes an instruction, and so does each call of
the kernel after which the run goes on, if not before the kernel has stopped, then when the machine
serves the instruction that it has stopped at. So whatever bounds the completed steps bounds the
turns of the kernel and the calls as well.

There are two such bounds. A limit is one. In a program whose jumps all lead forward the other is
the number of its instructions, since no address is come to twice.

## Architecture

- **§1 Jumps that lead forward**: `Program.JumpsForward`, and texts without brackets.
- **§2 Steps**: a bound on what is left of a run that moves forward.
- **§3 Calls**: there is at most one call of the kernel more than there are steps.
- **§4 Machines**: `Machine.execute_terminates`.
-/

namespace FoldTape

variable {δ : Type} [Device δ] {settings : Settings} {p : Program} {s t : State δ} {n : Nat}

/-! ## §1 Jumps that lead forward -/

/-- Every jump leads to an address behind its own. -/
def Program.JumpsForward (p : Program) : Prop :=
  ∀ (a : Nat) (i : Instruction), p[a]? = some i → i.operator.isJump = true → (a : Int) < i.operand

/-- There is no bracket in a text. -/
def HasNoBracket (text : List Char) : Prop := '[' ∉ text ∧ ']' ∉ text

/-- A text without brackets is compiled, since there is nothing to blame. -/
theorem HasNoBracket.exists_compile {text : List Char} (h : HasNoBracket text) :
    ∃ q, compile text = .ok q := by
  cases hcompile : compile text with
  | ok q => exact ⟨q, rfl⟩
  | error u =>
    rcases bracket_of_compile_error hcompile with hbracket | hbracket
    · exact absurd (List.mem_of_getElem? hbracket) h.1
    · exact absurd (List.mem_of_getElem? hbracket) h.2

/-- What a text without brackets is compiled to has no jumps, and so none that leads back. -/
theorem HasNoBracket.jumpsForward {text : List Char} {q : Program} (h : HasNoBracket text)
    (hq : compile text = .ok q) : q.JumpsForward := by
  obtain ⟨loops, hdescribes⟩ := describes_of_compile hq
  rintro a ⟨op, operand⟩ hi hjump
  -- A jump has a block, and that block is a bracket of the text.
  have hblock : (blocks text)[a]? = some [op.symbol] := by
    rw [hdescribes.getElem?_blocks, hi, Option.map_some, render_jump hjump]
  obtain ⟨position, hsymbol, -⟩ := exists_position_of_singleton hblock
  have hmem := List.mem_of_getElem? hsymbol
  rcases isJump_iff.mp hjump with hop | hop
  · exact absurd (hop ▸ hmem) h.1
  · exact absurd (hop ▸ hmem) h.2

/-! ## §2 Steps -/

namespace State

/-- If all jumps lead forward, then so does every turn. -/
theorem pc_lt_of_turn_next (hforward : p.JumpsForward) (h : s.turn settings p = .next t) :
    s.registers.pc < t.registers.pc := by
  obtain ⟨i, hi, hperform⟩ := turn_eq_next_iff.mp h
  have houtcome := perform_outcome settings.eof i s
  rw [hperform] at houtcome
  cases houtcome with
  | @next pc _ _ _ hpc =>
    show s.registers.pc < pc
    rcases hpc with rfl | ⟨hjump, rfl⟩
    · exact Nat.lt_succ_self _
    · have hlt := hforward _ i hi.1 hjump
      omega

/-- **A run that moves forward ends**: it has no more turns left than there are addresses ahead, and
one in which it finds that there are none. -/
theorem exists_runToEnd_of_forward (hforward : p.JumpsForward)
    (h : p.size ≤ s.registers.pc + n) : ∃ ended, s.runToEnd settings p (n + 1) = some ended := by
  induction n generalizing s with
  | zero =>
    -- The program counter is at the end already, or past it.
    have hend : p[s.registers.pc]? = none := Array.getElem?_eq_none h
    rw [runToEnd, turn_of_end hend]
    exact ⟨_, rfl⟩
  | succ n ih =>
    rw [runToEnd]
    split
    · rename_i t hnext
      have hlt := pc_lt_of_turn_next hforward hnext
      apply ih
      omega
    · exact ⟨_, rfl⟩
    · exact ⟨_, rfl⟩

/-- A run that ends within a number of turns completes fewer steps. -/
theorem steps_lt_of_runToEnd {fuel : Nat} {fault? : Option Fault}
    (h : s.runToEnd settings p fuel = some (fault?, t)) :
    t.registers.steps < s.registers.steps + fuel := by
  obtain ⟨k, r, hafter, hstops⟩ := exists_runToEnd_iff.mp ⟨fuel, h⟩
  have hlt := lt_of_after_of_runToEnd hafter h
  -- The last turn counts as no step.
  rw [hstops.steps_eq, steps_of_after hafter]
  omega

end State

/-! ## §3 Calls -/

namespace Machine

variable {code : Packed} {m : Machine δ} {report : Report δ}

/-- **Every call of the kernel but the last one goes with a step.** If the kernel has done nothing,
then the machine has served an instruction. -/
theorem length_bursts_le (hp : p.Admissible) (hcode : p.pack? = some code) {fuel : Nat}
    {bursts : List Burst} (hm : m.state.Valid m.settings)
    (h : m.takeTurns code fuel bursts = some report) :
    report.bursts.length + m.state.registers.steps ≤
      bursts.length + report.machine.state.registers.steps + 1 := by
  induction fuel generalizing m bursts with
  | zero => cases h
  | succ fuel ih =>
    simp only [takeTurns] at h
    split at h
    · cases h
    · rename_i stop m₁ hburst
      split at h
      · -- The last call: what has been done before stays done.
        rename_i hserve
        cases h
        obtain ⟨-, turns, hend⟩ := last_round_sound hp hcode hm hburst hserve
        obtain ⟨k, r, hafter, hstops⟩ := State.exists_runToEnd_iff.mp ⟨turns, hend⟩
        have hsteps := State.steps_of_after hafter
        have hlast := hstops.steps_eq
        simp only [List.length_reverse, List.length_cons]
        omega
      · -- One call more, and at least one step.
        rename_i m₂ hserve
        obtain ⟨hsettings, hm₂, k, hafter⟩ := round_sound hp hcode hm hburst hserve
        have hsteps := State.steps_of_after hafter
        rw [← hsettings] at hm₂
        have hrest := ih hm₂ h
        simp only [List.length_cons] at hrest
        omega

/-! ## §4 Machines -/

/-- The run of a program is over after so many steps at most. Neither the loop of the kernel nor
that of the machine takes more than one turn more, and the kernel is called no more often. -/
def FinishesWithin (m : Machine δ) (p : Program) (steps : Nat) : Prop :=
  ∃ report, m.execute (steps + 1) p = some report ∧
    report.machine.state.registers.steps ≤ steps ∧ report.bursts.length ≤ steps + 1

/-- A run of the one-instruction machine bounds both loops. -/
theorem finishesWithin_of_runToEnd (hp : p.Admissible) {ended : Option Fault × State δ}
    (h : m.reset.state.runToEnd m.settings p (n + 1) = some ended) : m.FinishesWithin p n := by
  obtain ⟨code, hcode⟩ := hp.exists_pack
  have hvalid : m.reset.state.Valid m.reset.settings := State.Valid.start m.settings _
  have hcomplete : ∃ report, m.reset.takeTurns code (n + 1) [] = some report :=
    takeTurns_complete hp hcode hvalid h
  obtain ⟨report, hreport⟩ := hcomplete
  obtain ⟨-, turns, hend⟩ := takeTurns_sound hp hcode hvalid hreport
  -- A run has one end, so the report is about the end that is known.
  cases State.runToEnd_unique h hend
  have hsteps : report.machine.state.registers.steps < 0 + (n + 1) := State.steps_lt_of_runToEnd h
  have hcalls : report.bursts.length + 0 ≤ 0 + report.machine.state.registers.steps + 1 :=
    length_bursts_le hp hcode hvalid hreport
  refine ⟨report, ?_, by omega, by omega⟩
  simp only [execute, hcode]
  exact hreport

/-- A limit bounds a run. -/
theorem finishesWithin_limit (hp : p.Admissible) (m : Machine δ) (limit : Nat) :
    (m.setMaxSteps (some limit)).FinishesWithin p limit := by
  have hlimit : (m.setMaxSteps (some limit)).settings.maxSteps =
      some (((Registers.start m.settings.tapeSize).steps + limit : Nat) : Int) := by
    rw [Registers.start, Nat.zero_add]
    rfl
  obtain ⟨ended, hend⟩ := State.exists_runToEnd_of_limit (p := p)
    (s := ⟨.start m.settings.tapeSize, m.state.device⟩) hlimit
  exact finishesWithin_of_runToEnd hp hend

/-- The number of its instructions bounds a run that moves forward, with or without a limit. -/
theorem finishesWithin_size (hp : p.Admissible) (hforward : p.JumpsForward) (m : Machine δ) :
    m.FinishesWithin p p.size := by
  have hstart : p.size ≤ m.reset.state.registers.pc + p.size := Nat.le_add_left _ _
  obtain ⟨ended, hend⟩ := State.exists_runToEnd_of_forward hforward hstart
  exact finishesWithin_of_runToEnd hp hend

/-- **Runs end.** On every machine, whatever it is connected to:

- with a limit on the steps every program returns or fails, after no more steps than are allowed;
- without a limit a program whose jumps all lead forward returns or fails, after no more steps than
  it has instructions;
- so does what a text without brackets is compiled to.

The kernel is called at most once more than there may be steps, and its own loop takes no more turns
than that either. -/
theorem execute_terminates (hp : p.Admissible) (m : Machine δ) :
    (∀ limit : Nat, (m.setMaxSteps (some limit)).FinishesWithin p limit) ∧
    (p.JumpsForward → (m.setMaxSteps none).FinishesWithin p p.size) ∧
    (∀ text : List Char, HasNoBracket text → text.length < int64Bound →
      ∃ q, compile text = .ok q ∧ (m.setMaxSteps none).FinishesWithin q q.size) := by
  refine ⟨finishesWithin_limit hp m, ?_, ?_⟩
  · intro hforward
    exact finishesWithin_size hp hforward (m.setMaxSteps none)
  · intro text hbracket hlength
    obtain ⟨q, hq⟩ := hbracket.exists_compile
    have hadmissible := admissible_of_compile hq hlength
    exact ⟨q, hq, finishesWithin_size hadmissible (hbracket.jumpsForward hq) (m.setMaxSteps none)⟩

/-- A loop that does not end by itself is cut off after three steps, and a jump far past the end of
a program is one step. -/
theorem execute_terminates_loop :
    Program.Admissible #[⟨.increment, 1⟩, ⟨.jumpIfNonzero, 0⟩] ∧
    ((Machine.new { tapeSize := 1 } (Ports.inMemory [])).setMaxSteps (some 3)).FinishesWithin
      #[⟨.increment, 1⟩, ⟨.jumpIfNonzero, 0⟩] 3 ∧
    Program.JumpsForward #[⟨.jumpIfZero, 7⟩] ∧
    ((Machine.new { tapeSize := 1 } (Ports.inMemory [])).setMaxSteps none).FinishesWithin
      #[⟨.jumpIfZero, 7⟩] 1 := by
  have hp : Program.Admissible #[⟨.increment, 1⟩, ⟨.jumpIfNonzero, 0⟩] := by decide
  have hforward : Program.JumpsForward #[⟨.jumpIfZero, 7⟩] := by
    intro a i hi _
    cases a with
    | zero =>
      cases hi
      decide
    | succ a => cases hi
  exact ⟨hp, (execute_terminates hp _).1 3, hforward,
    (execute_terminates (by decide) _).2.1 hforward⟩

end Machine

end FoldTape
