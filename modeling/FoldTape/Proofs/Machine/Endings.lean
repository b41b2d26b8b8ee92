import FoldTape.Proofs.Machine.Trampoline

/-!
# How runs end

A run is a number of completed steps and one last turn, which finds the end of the program or
fails. Statements about ends are made about the machine that takes turns with its kernel
(`Machine.Ends`) and proved along the steps of the one-instruction machine.

Main statements:

- `State.perform_outcome`: the three things that an instruction can come to;
- `State.exists_runToEnd_iff`: completed steps and a last turn;
- `Machine.ends_iff`: the same for the machine.
-/

namespace FoldTape

variable {δ : Type} [Device δ] {settings : Settings} {p : Program} {s t : State δ}

/-! ## §1 What an instruction comes to -/

/-- Whether a fault is a move that would leave the tape. -/
def Fault.isTapeFault : Fault → Bool
  | underflow .. | overflow .. => true
  | endOfInput .. | stepLimit .. | port _ | operandTooLarge => false

/-- What an instruction can come to. -/
inductive State.Outcome (i : Instruction) (s : State δ) : Turn δ → Prop where
  /-- It is completed: one step more, a tape of the same length, a pointer that has not left it,
  and the next instruction or, for a jump, the one at the operand. -/
  | next {pc pointer : Nat} {tape : Tape} {device : δ} :
      pc = s.registers.pc + 1 ∨ i.operator.isJump = true ∧ pc = i.operand.toNat →
      (s.registers.pointer < s.registers.tape.size → pointer < s.registers.tape.size) →
      tape.size = s.registers.tape.size →
      Outcome i s (.next (s.advance pc pointer tape device))
  /-- It is a move that would leave the tape. Nothing has been done. -/
  | offTape {fault : Fault} : fault.isTapeFault = true → Outcome i s (.failed fault s)
  /-- It is input or output that was cut off. The tape and the device may have changed. -/
  | cutOff {failure : ReadFailure} {tape : Tape} {device : δ} :
      tape.size = s.registers.tape.size →
      Outcome i s (.failed (failure.fault s.registers.pc s.registers.pointer)
        ⟨{ s.registers with tape }, device⟩)

namespace State

/-- **What an instruction comes to**, for every operator. -/
theorem perform_outcome (eof : EndPolicy) (i : Instruction) (s : State δ) :
    s.Outcome i (s.perform eof i) := by
  obtain ⟨op, n⟩ := i
  cases op with
  | moveRight =>
    rw [perform_moveRight]
    split
    · rename_i hroom
      exact .next (.inl rfl) (fun _ => hroom) rfl
    · exact .offTape rfl
  | moveLeft =>
    rw [perform_moveLeft]
    split
    · -- To the left the pointer only gets smaller.
      exact .next (.inl rfl) (fun h => by omega) rfl
    · exact .offTape rfl
  | increment | decrement => exact .next (.inl rfl) id Array.size_setIfInBounds
  | output =>
    rw [perform_output]
    split
    · exact .next (.inl rfl) id rfl
    · rename_i e device _
      exact @Outcome.cutOff _ _ s (.port e) _ device rfl
  | input =>
    rw [perform_input]
    split
    · exact .next (.inl rfl) id Array.size_setIfInBounds
    · exact .cutOff Array.size_setIfInBounds
  | jumpIfZero =>
    refine .next ?_ id rfl
    split
    · exact .inr ⟨rfl, rfl⟩
    · exact .inl rfl
  | jumpIfNonzero =>
    refine .next ?_ id rfl
    split
    · exact .inl rfl
    · exact .inr ⟨rfl, rfl⟩

/-- A turn that fetches an instruction comes to what the instruction comes to. -/
theorem Fetches.outcome {i : Instruction} (h : s.Fetches settings p i) :
    s.Outcome i (s.turn settings p) :=
  h.turn_eq ▸ perform_outcome settings.eof i s

/-! ## §2 Completed steps -/

/-- Every turn that goes on counts as one step. -/
theorem steps_of_turn_next (h : s.turn settings p = .next t) :
    t.registers.steps = s.registers.steps + 1 := by
  obtain ⟨i, -, hperform⟩ := turn_eq_next_iff.mp h
  exact (perform_next hperform).1

theorem steps_of_after {n : Nat} (h : s.after settings p n = some t) :
    t.registers.steps = s.registers.steps + n := by
  induction n generalizing s with
  | zero =>
    cases h
    rfl
  | succ n ih =>
    simp only [after] at h
    split at h
    · rename_i next
      rw [ih h, steps_of_turn_next next]
      omega
    · cases h
    · cases h

/-- A turn that others follow goes on. -/
theorem exists_next_of_lt {k n : Nat} (hlt : k < n) (h : s.after settings p n = some t)
    {r : State δ} (hr : s.after settings p k = some r) :
    ∃ q, r.turn settings p = .next q ∧ q.after settings p (n - k - 1) = some t := by
  obtain ⟨rest, rfl⟩ : ∃ rest, n = k + (rest + 1) := ⟨n - k - 1, by omega⟩
  have hrest : k + (rest + 1) - k - 1 = rest := by omega
  rw [after_add, hr, Option.bind_some, after] at h
  rw [hrest]
  split at h
  · rename_i q hnext
    exact ⟨q, hnext, h⟩
  · cases h
  · cases h

/-! ## §3 The last turn -/

/-- The next turn is the last one: it ends the run with this fault, if any, and leaves `t`. -/
def Stops (settings : Settings) (p : Program) (s : State δ) (fault? : Option Fault)
    (t : State δ) : Prop :=
  s.runToEnd settings p 1 = some (fault?, t)

theorem stops_some_iff {fault : Fault} :
    s.Stops settings p (some fault) t ↔ s.turn settings p = .failed fault t := by
  rw [Stops, runToEnd]
  cases s.turn settings p with
  | next r => simp [runToEnd]
  | halted => simp
  | failed fault' r => simp

theorem stops_none_iff : s.Stops settings p none t ↔ p[s.registers.pc]? = none ∧ t = s := by
  constructor
  · intro h
    rw [Stops, runToEnd] at h
    rcases turn_cases settings p s with hend | hlimit | ⟨i, hi⟩
    · rw [turn_of_end hend] at h
      cases h
      exact ⟨hend, rfl⟩
    · rw [hlimit.turn_eq] at h
      cases h
    · -- An instruction completes or fails; it does not find the end.
      have houtcome := hi.outcome
      generalize s.turn settings p = turn at h houtcome
      cases houtcome <;> cases h
  · rintro ⟨hend, rfl⟩
    rw [Stops, runToEnd, turn_of_end hend]

theorem Stops.ne_next {fault? : Option Fault} (h : s.Stops settings p fault? t) (q : State δ) :
    s.turn settings p ≠ .next q := by
  intro hnext
  rw [Stops, runToEnd, hnext] at h
  cases h

/-- The last turn counts as no step. -/
theorem Stops.steps_eq {fault? : Option Fault} (h : s.Stops settings p fault? t) :
    t.registers.steps = s.registers.steps := by
  cases fault? with
  | none => rw [(stops_none_iff.mp h).2]
  | some fault =>
    rw [stops_some_iff] at h
    rcases turn_cases settings p s with hend | hlimit | ⟨i, hi⟩
    · rw [turn_of_end hend] at h
      cases h
    · rw [hlimit.turn_eq] at h
      cases h
      rfl
    · have houtcome := hi.outcome
      rw [h] at houtcome
      cases houtcome <;> rfl

/-- A turn goes on, or it is the last one. -/
theorem turn_next_or_stops (settings : Settings) (p : Program) (s : State δ) :
    (∃ t, s.turn settings p = .next t) ∨ ∃ fault? t, s.Stops settings p fault? t := by
  cases h : s.turn settings p with
  | next t => exact .inl ⟨t, rfl⟩
  | halted => exact .inr ⟨none, s, by rw [Stops, runToEnd, h]⟩
  | failed fault t => exact .inr ⟨some fault, t, stops_some_iff.mpr h⟩

/-- **A run that ends** is completed steps and a last turn. -/
theorem exists_runToEnd_iff {fault? : Option Fault} :
    (∃ turns, s.runToEnd settings p turns = some (fault?, t)) ↔
      ∃ n r, s.after settings p n = some r ∧ r.Stops settings p fault? t := by
  constructor
  · rintro ⟨turns, h⟩
    induction turns generalizing s with
    | zero => cases h
    | succ turns ih =>
      rcases turn_next_or_stops settings p s with ⟨r, hnext⟩ | ⟨fault', r, hstops⟩
      · simp only [runToEnd, hnext] at h
        obtain ⟨n, r', hafter, hstops⟩ := ih h
        refine ⟨n + 1, r', ?_, hstops⟩
        simpa only [after, hnext] using hafter
      · -- The last turn ends the run at once, and a run has one end.
        cases runToEnd_unique h hstops
        exact ⟨0, s, rfl, hstops⟩
  · rintro ⟨n, r, hafter, hstops⟩
    refine ⟨n + 1, ?_⟩
    rw [runToEnd_add hafter]
    exact hstops

/-- A run gets as far as `n` steps, or it has ended before. -/
theorem exists_after_or_stops (settings : Settings) (p : Program) (s : State δ) (n : Nat) :
    (∃ t, s.after settings p n = some t) ∨
      ∃ k r fault? t, k < n ∧ s.after settings p k = some r ∧ r.Stops settings p fault? t := by
  induction n with
  | zero => exact .inl ⟨s, rfl⟩
  | succ n ih =>
    rcases ih with ⟨r, hafter⟩ | ⟨k, r, fault?, t, hk, hafter, hstops⟩
    · rcases turn_next_or_stops settings p r with ⟨t, hnext⟩ | ⟨fault?, t, hstops⟩
      · refine .inl ⟨t, ?_⟩
        rw [after_add, hafter, Option.bind_some, after, hnext]
        rfl
      · exact .inr ⟨n, r, fault?, t, Nat.lt_succ_self n, hafter, hstops⟩
    · exact .inr ⟨k, r, fault?, t, Nat.lt_succ_of_lt hk, hafter, hstops⟩

end State

/-! ## §4 Machines -/

namespace Machine

/-- The run of a program on a machine comes to an end: with this fault, if any, and in this
state. -/
def Ends (m : Machine δ) (p : Program) (fault? : Option Fault) (t : State δ) : Prop :=
  ∃ fuel report, m.execute fuel p = some report ∧ report.fault? = fault? ∧
    report.machine.state = t

/-- **The run of a machine**: from cleared registers, completed steps and a last turn. -/
theorem ends_iff (hp : p.Admissible) {m : Machine δ} {fault? : Option Fault} :
    m.Ends p fault? t ↔
      ∃ n r, m.reset.state.after m.settings p n = some r ∧ r.Stops m.settings p fault? t :=
  (execute_iff_runToEnd hp m fault? t).trans State.exists_runToEnd_iff

end Machine

end FoldTape
