import FoldTape.Proofs.Machine.Endings

/-!
# Runs with a limit on the steps

A limit cuts a run off and does nothing else. Below the limit a turn does not notice it. At the
limit the end of the program is looked at first, so a run that has just ended is not cut off;
but a run that is about to fail is, since the limit comes before the instruction.

## Architecture

- **§1 Turns**: below the limit and at the limit.
- **§2 Runs**: a run up to the limit is the run without it (`State.after_limited`), and there are
  two ways for it to end: before the limit or by it.
- **§3 Machines**: `Machine.limit_truncates`.
-/

namespace FoldTape

/-- The settings without a limit on the steps. -/
abbrev Settings.unlimited (settings : Settings) : Settings := { settings with maxSteps := none }

/-- The settings with a limit on the steps. -/
abbrev Settings.limited (settings : Settings) (limit : Nat) : Settings :=
  { settings with maxSteps := some (limit : Int) }

variable {δ : Type} [Device δ] {settings : Settings} {p : Program} {s t u : State δ} {limit : Nat}

namespace State

/-! ## §1 Turns -/

/-- The fault of a run that is cut off in this state. -/
def limitFault (limit : Nat) (s : State δ) : Fault :=
  .stepLimit s.registers.pc s.registers.pointer limit

/-- Short of the limit a turn is as without it. -/
theorem turn_limited_of_ne (h : s.registers.steps ≠ limit) :
    s.turn (settings.limited limit) p = s.turn settings.unlimited p := by
  have hne : (limit : Int) ≠ s.registers.steps := by omega
  simp only [turn, if_neg hne]

/-- At the limit nothing is performed any more. -/
theorem turn_limited_of_eq (h : s.registers.steps = limit) {i : Instruction}
    (hi : p[s.registers.pc]? = some i) :
    s.turn (settings.limited limit) p = .failed (s.limitFault limit) s := by
  have heq : (limit : Int) = s.registers.steps := by omega
  simp only [turn, hi, if_pos heq, limitFault]

theorem stops_limited_of_ne {fault? : Option Fault} (h : s.registers.steps ≠ limit) :
    s.Stops (settings.limited limit) p fault? t ↔ s.Stops settings.unlimited p fault? t := by
  cases fault? with
  | none => rw [stops_none_iff, stops_none_iff]
  | some fault => rw [stops_some_iff, stops_some_iff, turn_limited_of_ne h]

/-- Only the limit cuts a run off. -/
theorem eq_of_stops_stepLimit {pc pointer : Nat} {bound : Int}
    (h : s.Stops (settings.limited limit) p (some (.stepLimit pc pointer bound)) t) :
    s.registers.steps = limit ∧ t = s ∧ .stepLimit pc pointer bound = s.limitFault limit := by
  rw [stops_some_iff] at h
  rcases turn_cases (settings.limited limit) p s with hend | hlimit | ⟨i, hi⟩
  · rw [turn_of_end hend] at h
    cases h
  · have hsteps : s.registers.steps = limit :=
      (Int.natCast_inj.mp (Option.some.inj hlimit.2)).symm
    rw [hlimit.turn_eq] at h
    cases h
    exact ⟨hsteps, rfl, by rw [limitFault, hsteps]⟩
  · -- The faults of instructions are others.
    have houtcome := hi.outcome
    rw [h] at houtcome
    generalize hfault : Fault.stepLimit pc pointer bound = fault at houtcome
    cases houtcome with
    | offTape htape =>
      rw [← hfault] at htape
      cases htape
    | @cutOff failure => cases failure <;> cases hfault

/-! ## §2 Runs -/

/-- **Up to the limit a run is as without it.** -/
theorem after_limited {n : Nat} (h : s.registers.steps + n ≤ limit) :
    s.after (settings.limited limit) p n = s.after settings.unlimited p n := by
  induction n generalizing s with
  | zero => rfl
  | succ n ih =>
    rw [after, after, turn_limited_of_ne (by omega)]
    cases hturn : s.turn settings.unlimited p with
    | next t =>
      have hsteps := steps_of_turn_next hturn
      exact ih (by omega)
    | halted => rfl
    | failed => rfl

/-- A run that goes on after `k` steps has an instruction to perform there. -/
theorem exists_instruction_of_lt {k n : Nat} (hlt : k < n)
    (h : s.after settings p n = some t) :
    ∃ r i, s.after settings p k = some r ∧ p[r.registers.pc]? = some i := by
  obtain ⟨rest, rfl⟩ : ∃ rest, n = k + (rest + 1) := ⟨n - k - 1, by omega⟩
  rw [after_add, Option.bind_eq_some_iff] at h
  obtain ⟨r, hafter, hrest⟩ := h
  simp only [after] at hrest
  split at hrest
  · rename_i hnext
    obtain ⟨i, ⟨hi, -⟩, -⟩ := turn_eq_next_iff.mp hnext
    exact ⟨r, i, hafter, hi⟩
  · cases hrest
  · cases hrest

/-- A run that is about to fail has an instruction to perform. -/
theorem Stops.exists_instruction {fault : Fault} (h : s.Stops settings p (some fault) t) :
    ∃ i, p[s.registers.pc]? = some i := by
  cases hi : p[s.registers.pc]? with
  | some i => exact ⟨i, rfl⟩
  | none =>
    rw [stops_some_iff, turn_of_end hi] at h
    cases h

/-- A fault of the tape leaves the state as it was. -/
theorem Stops.eq_of_isTapeFault {fault : Fault} (h : s.Stops settings p (some fault) t)
    (hfault : fault.isTapeFault = true) : t = s := by
  rw [stops_some_iff] at h
  rcases turn_cases settings p s with hend | hlimit | ⟨i, hi⟩
  · rw [turn_of_end hend] at h
    cases h
  · rw [hlimit.turn_eq] at h
    cases h
    rfl
  · have houtcome := hi.outcome
    rw [h] at houtcome
    cases houtcome with
    | offTape => rfl
    | @cutOff failure => cases failure <;> cases hfault

end State

/-! ## §3 Machines -/

namespace Machine

variable {m : Machine δ} {fault? : Option Fault}

/-- With a limit on its steps the run of a program is cut off in this state. -/
def RunsOut (m : Machine δ) (p : Program) (limit : Nat) (t : State δ) : Prop :=
  (m.setMaxSteps (some limit)).Ends p (some (t.limitFault limit)) t

/-- A run that gets to the limit and has more to do is cut off there. -/
theorem runsOut_of_after (hp : p.Admissible)
    (h : m.reset.state.after m.settings.unlimited p limit = some t) {i : Instruction}
    (hi : p[t.registers.pc]? = some i) : m.RunsOut p limit t := by
  have hsteps : t.registers.steps = 0 + limit := State.steps_of_after h
  refine (ends_iff hp).mpr ⟨limit, t, ?_, ?_⟩
  · rw [← h]
    exact State.after_limited (Nat.le_of_eq (Nat.zero_add limit))
  · exact State.stops_some_iff.mpr (State.turn_limited_of_eq (by omega) hi)

/-- A run that ends below the limit ends in the same way with it. -/
theorem Ends.limited_of_lt (hp : p.Admissible) (h : (m.setMaxSteps none).Ends p fault? t)
    (hlt : t.registers.steps < limit) : (m.setMaxSteps (some limit)).Ends p fault? t := by
  obtain ⟨n, r, hafter, hstops⟩ := (ends_iff hp).mp h
  have hn : r.registers.steps = 0 + n := State.steps_of_after hafter
  have hsteps := hstops.steps_eq
  refine (ends_iff hp).mpr ⟨n, r, ?_, ?_⟩
  · rw [← hafter]
    exact State.after_limited (by show 0 + n ≤ limit; omega)
  · exact (State.stops_limited_of_ne (by omega)).mpr hstops

/-- A program that is at its end when the limit is reached has ended. -/
theorem Ends.limited_of_eq (hp : p.Admissible) (h : (m.setMaxSteps none).Ends p none t) :
    (m.setMaxSteps (some t.registers.steps)).Ends p none t := by
  obtain ⟨n, r, hafter, hstops⟩ := (ends_iff hp).mp h
  obtain ⟨hend, rfl⟩ := State.stops_none_iff.mp hstops
  have hn : t.registers.steps = 0 + n := State.steps_of_after hafter
  refine (ends_iff hp).mpr ⟨n, t, ?_, State.stops_none_iff.mpr ⟨hend, rfl⟩⟩
  rw [← hafter]
  exact State.after_limited (Nat.le_of_eq hn.symm)

/-- A run that takes more steps than the limit is cut off. -/
theorem Ends.runsOut_of_lt (hp : p.Admissible) (h : (m.setMaxSteps none).Ends p fault? t)
    (hlt : limit < t.registers.steps) : ∃ u, m.RunsOut p limit u := by
  obtain ⟨n, r, hafter, hstops⟩ := (ends_iff hp).mp h
  have hn : r.registers.steps = 0 + n := State.steps_of_after hafter
  have hsteps := hstops.steps_eq
  obtain ⟨u, i, hu, hi⟩ := State.exists_instruction_of_lt (k := limit) (by omega) hafter
  exact ⟨u, runsOut_of_after hp hu hi⟩

/-- A run that fails when the limit is reached is cut off before it fails. -/
theorem Ends.runsOut_of_fault (hp : p.Admissible) {fault : Fault}
    (h : (m.setMaxSteps none).Ends p (some fault) t) :
    ∃ u, m.RunsOut p t.registers.steps u ∧ (fault.isTapeFault = true → u = t) := by
  obtain ⟨n, r, hafter, hstops⟩ := (ends_iff hp).mp h
  obtain ⟨i, hi⟩ := hstops.exists_instruction
  have hn : r.registers.steps = 0 + n := State.steps_of_after hafter
  have hsteps : t.registers.steps = n := by
    rw [hstops.steps_eq, hn, Nat.zero_add]
  rw [hsteps]
  exact ⟨r, runsOut_of_after hp hafter hi, fun hfault => (hstops.eq_of_isTapeFault hfault).symm⟩

/-- A run that does not end without a limit is cut off by every one. -/
theorem runsOut_of_not_ends (hp : p.Admissible)
    (h : ¬ ∃ fault? t, (m.setMaxSteps none).Ends p fault? t) (limit : Nat) :
    ∃ u, m.RunsOut p limit u := by
  rcases State.exists_after_or_stops m.settings.unlimited p m.reset.state (limit + 1) with
    ⟨t, hafter⟩ | ⟨k, r, fault?, t, -, hafter, hstops⟩
  · obtain ⟨u, i, hu, hi⟩ := State.exists_instruction_of_lt (Nat.lt_succ_self limit) hafter
    exact ⟨u, runsOut_of_after hp hu hi⟩
  · exact absurd ⟨fault?, t, (ends_iff hp).mpr ⟨k, r, hafter, hstops⟩⟩ h

/-- **What is left when a run is cut off**: the state of the run without a limit after as many
steps as the limit allows, which the fault describes. -/
theorem Ends.eq_of_stepLimit (hp : p.Admissible) {pc pointer : Nat} {bound : Int}
    (h : (m.setMaxSteps (some limit)).Ends p (some (.stepLimit pc pointer bound)) t) :
    m.reset.state.after m.settings.unlimited p limit = some t ∧
      .stepLimit pc pointer bound = t.limitFault limit := by
  obtain ⟨n, r, hafter, hstops⟩ := (ends_iff hp).mp h
  obtain ⟨hlimit, rfl, hfault⟩ := State.eq_of_stops_stepLimit hstops
  have hn : t.registers.steps = 0 + n := State.steps_of_after hafter
  obtain rfl : n = limit := by omega
  refine ⟨?_, hfault⟩
  rw [← hafter]
  exact (State.after_limited (Nat.le_of_eq (Nat.zero_add n))).symm

/-- **A limit on the steps is pure truncation.** For every program, every device and every limit:

- a run that returns after `N` steps returns in the same state with every limit from `N` on, and is
  cut off by every smaller one;
- a run that fails after `N` steps fails in the same way, in the same state, with every limit
  beyond `N`, and is cut off by every other;
- a run that does not end is cut off by every limit;
- a run that is cut off has completed as many steps as the limit says, and is left in the state in
  which the run without a limit is after these;
- a move off the tape leaves the state in which a limit of as many steps cuts the run off. -/
theorem limit_truncates (hp : p.Admissible) (m : Machine δ) :
    (∀ t, (m.setMaxSteps none).Ends p none t → ∀ limit : Nat,
      (t.registers.steps ≤ limit → (m.setMaxSteps (some limit)).Ends p none t) ∧
      (limit < t.registers.steps → ∃ u, m.RunsOut p limit u)) ∧
    (∀ fault t, (m.setMaxSteps none).Ends p (some fault) t → ∀ limit : Nat,
      (t.registers.steps < limit → (m.setMaxSteps (some limit)).Ends p (some fault) t) ∧
      (limit ≤ t.registers.steps → ∃ u, m.RunsOut p limit u)) ∧
    ((¬ ∃ fault? t, (m.setMaxSteps none).Ends p fault? t) →
      ∀ limit : Nat, ∃ u, m.RunsOut p limit u) ∧
    (∀ (limit : Nat) pc pointer bound t,
      (m.setMaxSteps (some limit)).Ends p (some (.stepLimit pc pointer bound)) t →
      t.registers.steps = limit ∧ pc = t.registers.pc ∧ pointer = t.registers.pointer ∧
        bound = limit ∧
        State.after { m.settings with maxSteps := none } p limit
          ⟨.start m.settings.tapeSize, m.state.device⟩ = some t) ∧
    (∀ fault t, fault.isTapeFault = true → (m.setMaxSteps none).Ends p (some fault) t →
      m.RunsOut p t.registers.steps t) := by
  refine ⟨?_, ?_, runsOut_of_not_ends hp, ?_, ?_⟩
  · intro t h limit
    refine ⟨?_, h.runsOut_of_lt hp⟩
    intro hle
    rcases Nat.lt_or_eq_of_le hle with hlt | rfl
    · exact h.limited_of_lt hp hlt
    · exact h.limited_of_eq hp
  · intro fault t h limit
    refine ⟨h.limited_of_lt hp, ?_⟩
    intro hle
    rcases Nat.lt_or_eq_of_le hle with hlt | rfl
    · exact h.runsOut_of_lt hp hlt
    · obtain ⟨u, hu, -⟩ := h.runsOut_of_fault hp
      exact ⟨u, hu⟩
  · intro limit pc pointer bound t h
    obtain ⟨hafter, hfault⟩ := h.eq_of_stepLimit hp
    have hsteps : t.registers.steps = 0 + limit := State.steps_of_after hafter
    cases hfault
    exact ⟨by omega, rfl, rfl, rfl, hafter⟩
  · intro fault t hfault h
    obtain ⟨u, hu, heq⟩ := h.runsOut_of_fault hp
    obtain rfl := heq hfault
    exact hu

/-- A program that asks for more input than there is. With one step it is cut off before it reads
anything; with two it fails as without a limit, and keeps the byte that it has read. -/
theorem limit_truncates_short_input :
    Program.Admissible #[⟨.increment, 3⟩, ⟨.input, 2⟩] ∧
    (∃ t, (Machine.new { tapeSize := 1 } (Ports.inMemory [65])).RunsOut
      #[⟨.increment, 3⟩, ⟨.input, 2⟩] 1 t) ∧
    ((Machine.new { tapeSize := 1 } (Ports.inMemory [65])).setMaxSteps (some 2)).Ends
      #[⟨.increment, 3⟩, ⟨.input, 2⟩] (some (.endOfInput 1 0))
      ⟨⟨1, 0, 1, #[65]⟩, ⟨.memory [] 1, .empty⟩⟩ := by
  have hp : Program.Admissible #[⟨.increment, 3⟩, ⟨.input, 2⟩] := by decide
  have hends : ((Machine.new { tapeSize := 1 } (Ports.inMemory [65])).setMaxSteps none).Ends
      #[⟨.increment, 3⟩, ⟨.input, 2⟩] (some (.endOfInput 1 0))
      ⟨⟨1, 0, 1, #[65]⟩, ⟨.memory [] 1, .empty⟩⟩ := (ends_iff hp).mpr ⟨1, _, rfl, rfl⟩
  have hlimits := (limit_truncates hp _).2.1 _ _ hends
  exact ⟨hp, (hlimits 1).2 (by decide), (hlimits 2).1 (by decide)⟩

end Machine

end FoldTape
