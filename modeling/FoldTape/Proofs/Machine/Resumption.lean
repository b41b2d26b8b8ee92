import FoldTape.Proofs.Machine.Opcodes

/-!
# Calling the kernel again

The kernel can be stopped by its budget in front of any instruction and called again from there:
what comes of both calls is what comes of one call with the sum of the budgets. A budget decides
only how far a call gets, never what is done on the way. Nothing of this depends on the arrays being
those of a program.

## Architecture

- **§1 Many instructions**: `Kernel.after`, where no budget is looked at.
- **§2 Runs**: what is performed until there is a reason to stop.
- **§3 Calls**: a call is a number of instructions and a reason to stop (`Kernel.call_iff`).
- **§4 Budgets**: `Kernel.calls_resume`.
-/

namespace FoldTape.Kernel

variable {code : OpcodeArrays} {budget : Int} {r s t : Registers} {stop : Stop} {m n : Nat}

/-! ## §1 Many instructions -/

/-- The registers after a number of instructions, if the kernel can perform so many in a row. No
budget is looked at. -/
def after (code : OpcodeArrays) : Nat → Registers → Option Registers
  | 0, r => some r
  | n + 1, r =>
    match code.fetch? r.pc with
    | none => none
    | some (opcode, k) =>
      match performOpcode opcode k r with
      | .error _ _ => none
      | .ok _ r => after code n r

/-- The first of several instructions. -/
theorem after_succ_eq_some_iff :
    after code (n + 1) r = some t ↔
      ∃ opcode k s, code.fetch? r.pc = some (opcode, k) ∧ performOpcode opcode k r = .ok () s ∧
        after code n s = some t := by
  rw [after]
  constructor
  · intro h
    split at h
    · cases h
    · rename_i opcode k hfetch
      split at h
      · cases h
      · rename_i s hperform
        exact ⟨opcode, k, s, hfetch, hperform, h⟩
  · rintro ⟨opcode, k, s, hfetch, hperform, h⟩
    simp only [hfetch, hperform, h]

/-- Every instruction counts as one step. -/
theorem steps_of_after (h : after code n r = some t) : t.steps = r.steps + n := by
  induction n generalizing r with
  | zero =>
    cases h
    rfl
  | succ n ih =>
    obtain ⟨opcode, k, s, -, hperform, hrest⟩ := after_succ_eq_some_iff.mp h
    rw [ih hrest, (performed_of_eq hperform).steps_eq]
    omega

/-- Instructions can be performed in two parts. -/
theorem after_add (hm : after code m r = some s) (hn : after code n s = some t) :
    after code (m + n) r = some t := by
  induction m generalizing r with
  | zero =>
    cases hm
    rwa [Nat.zero_add]
  | succ m ih =>
    obtain ⟨opcode, k, q, hfetch, hperform, hrest⟩ := after_succ_eq_some_iff.mp hm
    rw [Nat.succ_add]
    exact after_succ_eq_some_iff.mpr ⟨opcode, k, q, hfetch, hperform, ih hrest⟩

/-- Steps that have been done before are only counted. -/
theorem after_addSteps (h : after code n r = some t) (done : Nat) :
    after code n (r.addSteps done) = some (t.addSteps done) := by
  induction n generalizing r with
  | zero =>
    cases h
    rfl
  | succ n ih =>
    obtain ⟨opcode, k, s, hfetch, hperform, hrest⟩ := after_succ_eq_some_iff.mp h
    have hlater := (performed_of_eq hperform).addSteps done
    exact after_succ_eq_some_iff.mpr ⟨opcode, k, _, hfetch, hlater, ih hrest⟩

/-! ## §2 Runs -/

theorem exhausted_eq_false_iff {steps : Nat} :
    exhausted budget steps = false ↔ (0 ≤ budget → steps < budget) := by
  rw [← Bool.not_eq_true, exhausted_eq_true_iff]
  omega

/-- A reason to stop in these registers. -/
inductive StopsIn (code : OpcodeArrays) (budget : Int) (r : Registers) : Stop → Prop where
  /-- The program is over. -/
  | halted : code.fetch? r.pc = none → StopsIn code budget r .halted
  /-- It is not, but the budget is used up. -/
  | stepLimit {i : Int32 × Int64} : code.fetch? r.pc = some i →
      exhausted budget r.steps = true → StopsIn code budget r .stepLimit
  /-- The next instruction is not one for the kernel to perform. -/
  | inFront {opcode : Int32} {k : Int64} {stop : Stop} : code.fetch? r.pc = some (opcode, k) →
      exhausted budget r.steps = false → performOpcode opcode k r = .error stop r →
      StopsIn code budget r stop

/-- If there is a reason to stop, then that is where a run stops. -/
theorem StopsIn.runArrays_eq (h : StopsIn code budget r stop) (n : Nat) :
    runArrays code budget (n + 1) r = some (stop, r) := by
  cases h with
  | halted hfetch => simp only [runArrays, hfetch]
  | stepLimit hfetch hexhausted => simp only [runArrays, hfetch, hexhausted, if_true]
  | inFront hfetch hleft hperform =>
    simp only [runArrays, hfetch, hleft, hperform, Bool.false_eq_true, if_false]

/-- While something is left of the budget, a run performs the next instruction first. -/
theorem runArrays_succ {opcode : Int32} {k : Int64} (hfetch : code.fetch? r.pc = some (opcode, k))
    (hleft : exhausted budget r.steps = false) (hperform : performOpcode opcode k r = .ok () s)
    (n : Nat) : runArrays code budget (n + 1) r = runArrays code budget n s := by
  simp only [runArrays, hfetch, hleft, hperform, Bool.false_eq_true, if_false]

/-- A turn of the kernel's loop finds a reason to stop, or it performs an instruction. -/
theorem runArrays_succ_cases (code : OpcodeArrays) (budget : Int) (r : Registers) :
    (∃ stop, StopsIn code budget r stop) ∨
      ∃ opcode k s, code.fetch? r.pc = some (opcode, k) ∧ exhausted budget r.steps = false ∧
        performOpcode opcode k r = .ok () s ∧
        ∀ n, runArrays code budget (n + 1) r = runArrays code budget n s := by
  cases hfetch : code.fetch? r.pc with
  | none => exact .inl ⟨_, .halted hfetch⟩
  | some i =>
    obtain ⟨opcode, k⟩ := i
    cases hexhausted : exhausted budget r.steps with
    | true => exact .inl ⟨_, .stepLimit hfetch hexhausted⟩
    | false =>
      cases hperform : performOpcode opcode k r with
      | error stop s =>
        obtain rfl := (performed_of_eq hperform).eq
        exact .inl ⟨stop, .inFront hfetch hexhausted hperform⟩
      | ok _ s =>
        exact .inr ⟨opcode, k, s, rfl, rfl, hperform, runArrays_succ hfetch hexhausted hperform⟩

/-- A stop is final for any arrays. -/
theorem runArrays_mono {fuel more : Nat} {stopped : Stop × Registers} (hle : fuel ≤ more)
    (h : runArrays code budget fuel r = some stopped) :
    runArrays code budget more r = some stopped := by
  induction fuel generalizing more r with
  | zero => cases h
  | succ fuel ih =>
    obtain ⟨more, rfl⟩ := Nat.exists_eq_add_of_le' (Nat.le_trans (Nat.succ_pos fuel) hle)
    rcases runArrays_succ_cases code budget r with ⟨stop, hstops⟩ | ⟨opcode, k, s, -, -, -, hrun⟩
    · rw [hstops.runArrays_eq] at h ⊢
      exact h
    · rw [hrun] at h ⊢
      exact ih (Nat.le_of_succ_le_succ hle) h

/-- What a run has performed when it stops, and why it does. -/
theorem exists_after_of_runArrays {fuel : Nat} (h : runArrays code budget fuel r = some (stop, t)) :
    ∃ n, after code n r = some t ∧ (∀ k < n, exhausted budget (r.steps + k) = false) ∧
      StopsIn code budget t stop := by
  induction fuel generalizing r with
  | zero => cases h
  | succ fuel ih =>
    rcases runArrays_succ_cases code budget r with ⟨stop', hstops⟩ |
      ⟨opcode, k, s, hfetch, hleft, hperform, hrun⟩
    · rw [hstops.runArrays_eq] at h
      cases h
      exact ⟨0, rfl, by simp, hstops⟩
    · rw [hrun] at h
      obtain ⟨n, hafter, hbudget, hstops⟩ := ih h
      have hmore := after_succ_eq_some_iff.mpr ⟨opcode, k, s, hfetch, hperform, hafter⟩
      refine ⟨n + 1, hmore, ?_, hstops⟩
      rw [(performed_of_eq hperform).steps_eq] at hbudget
      intro j hj
      cases j with
      | zero => exact hleft
      | succ j =>
        rw [Nat.add_comm j, ← Nat.add_assoc]
        exact hbudget j (by omega)

/-- A run performs what the budget allows, up to a reason to stop. -/
theorem runArrays_of_after (hafter : after code n r = some t)
    (hbudget : ∀ k < n, exhausted budget (r.steps + k) = false)
    (hstops : StopsIn code budget t stop) : runArrays code budget (n + 1) r = some (stop, t) := by
  induction n generalizing r with
  | zero =>
    cases hafter
    exact hstops.runArrays_eq 0
  | succ n ih =>
    obtain ⟨opcode, k, s, hfetch, hperform, hrest⟩ := after_succ_eq_some_iff.mp hafter
    have hleft : exhausted budget r.steps = false := hbudget 0 (Nat.succ_pos n)
    rw [runArrays_succ hfetch hleft hperform]
    refine ih hrest ?_
    intro j hj
    have hlater := hbudget (j + 1) (by omega)
    rwa [(performed_of_eq hperform).steps_eq, Nat.add_assoc, Nat.add_comm 1]

/-- With a budget there is always a reason to stop. -/
theorem exists_runArrays (code : OpcodeArrays) (r : Registers) {left : Nat}
    (hbudget : budget = (r.steps + left : Nat)) :
    ∃ stopped, runArrays code budget (left + 1) r = some stopped := by
  induction left generalizing r with
  | zero =>
    rcases runArrays_succ_cases code budget r with ⟨stop, hstops⟩ | ⟨-, -, -, -, hleft, -⟩
    · exact ⟨_, hstops.runArrays_eq 0⟩
    · -- No step is left, so nothing can be performed.
      have hlt := exhausted_eq_false_iff.mp hleft (by omega)
      omega
  | succ left ih =>
    rcases runArrays_succ_cases code budget r with ⟨stop, hstops⟩ |
      ⟨opcode, k, s, -, -, hperform, hrun⟩
    · exact ⟨_, hstops.runArrays_eq _⟩
    · rw [hrun]
      have hsteps := (performed_of_eq hperform).steps_eq
      exact ih s (by omega)

/-! ## §3 Calls -/

/-- A call of the kernel comes to an end, for this reason and in these registers. Its steps are
counted from zero. -/
def Call (code : OpcodeArrays) (budget : Int) (r : Registers) (stop : Stop) (t : Registers) :
    Prop :=
  ∃ fuel, runArrays code budget fuel { r with steps := 0 } = some (stop, t)

/-- On a packed program a call is a run of the kernel from zero steps. -/
theorem call_arrays_iff {code : Packed} :
    Call code.arrays budget r stop t ↔
      ∃ fuel, run code budget fuel { r with steps := 0 } = some (stop, t) := by
  simp only [Call, runArrays_arrays]

/-- **A call of the kernel** performs as many instructions as it counts steps, no more than its
budget allows, and has a reason to stop. -/
theorem call_iff :
    Call code budget r stop t ↔
      after code t.steps { r with steps := 0 } = some t ∧ (0 ≤ budget → t.steps ≤ budget) ∧
        StopsIn code budget t stop := by
  constructor
  · rintro ⟨fuel, h⟩
    obtain ⟨n, hafter, hbudget, hstops⟩ := exists_after_of_runArrays h
    have hsteps : t.steps = 0 + n := steps_of_after hafter
    obtain rfl : n = t.steps := by omega
    refine ⟨hafter, ?_, hstops⟩
    intro hnonneg
    rcases Int.lt_or_le budget t.steps with hlt | hle
    · -- Otherwise the budget would have been used up on the way.
      have hleft := exhausted_eq_false_iff.mp (hbudget budget.toNat (by omega)) hnonneg
      omega
    · exact hle
  · rintro ⟨hafter, hbudget, hstops⟩
    refine ⟨t.steps + 1, runArrays_of_after hafter ?_ hstops⟩
    intro k hk
    refine exhausted_eq_false_iff.mpr ?_
    intro hnonneg
    have hle := hbudget hnonneg
    show ((0 + k : Nat) : Int) < budget
    omega

/-- A call has one outcome. -/
theorem Call.unique {stop' : Stop} {t' : Registers} (h : Call code budget r stop t)
    (h' : Call code budget r stop' t') : stop = stop' ∧ t = t' := by
  obtain ⟨fuel, h⟩ := h
  obtain ⟨fuel', h'⟩ := h'
  have hmore := runArrays_mono (Nat.le_max_left fuel fuel') h
  rw [runArrays_mono (Nat.le_max_right fuel fuel') h'] at hmore
  cases hmore
  exact ⟨rfl, rfl⟩

/-- A call with a budget has an outcome. -/
theorem exists_call (code : OpcodeArrays) (budget : Nat) (r : Registers) :
    ∃ stop t, Call code budget r stop t := by
  have hrun : ∃ stopped, runArrays code budget (budget + 1) { r with steps := 0 } = some stopped :=
    exists_runArrays code _ (by simp)
  obtain ⟨⟨stop, t⟩, h⟩ := hrun
  exact ⟨stop, t, _, h⟩

/-! ## §4 Budgets -/

variable {other : Int}

/-- Any other reason than the budget is one with another budget too, if that leaves something where
the first one did. -/
theorem StopsIn.with_budget (h : StopsIn code budget r stop) (hstop : stop ≠ .stepLimit)
    (hleft : exhausted budget r.steps = false → exhausted other r.steps = false) :
    StopsIn code other r stop := by
  cases h with
  | halted hfetch => exact .halted hfetch
  | stepLimit => exact absurd rfl hstop
  | inFront hfetch hbudget hperform => exact .inFront hfetch (hleft hbudget) hperform

/-- Steps that have been done before, and a budget for them, make no difference. -/
theorem StopsIn.addSteps (h : StopsIn code n r stop) (done : Nat) :
    StopsIn code (done + n : Nat) (r.addSteps done) stop := by
  have hsteps : (r.addSteps done).steps = done + r.steps := rfl
  cases h with
  | halted hfetch => exact .halted hfetch
  | stepLimit hfetch hexhausted =>
    refine .stepLimit hfetch ?_
    rw [exhausted_eq_true_iff] at hexhausted ⊢
    have hle := hexhausted.2
    omega
  | inFront hfetch hleft hperform =>
    refine .inFront hfetch ?_ ((performed_of_eq hperform).addSteps_error done)
    rw [exhausted_eq_false_iff] at hleft ⊢
    have hlt := hleft (by omega)
    omega

/-- A call that is stopped by its budget has used up all of it. -/
theorem Call.steps_eq (h : Call code budget r .stepLimit t) : 0 ≤ budget ∧ t.steps = budget := by
  obtain ⟨-, hbudget, hstops⟩ := call_iff.mp h
  cases hstops with
  | stepLimit _ hexhausted =>
    obtain ⟨hnonneg, hle⟩ := exhausted_eq_true_iff.mp hexhausted
    have hge := hbudget hnonneg
    exact ⟨hnonneg, by omega⟩
  | inFront _ _ hperform => exact absurd rfl (performed_of_eq hperform).ne.2

/-- A call that is not stopped by its budget is the same with any greater one. -/
theorem Call.mono (h : Call code budget r stop t) (hstop : stop ≠ .stepLimit) (hnonneg : 0 ≤ budget)
    (hle : budget ≤ other) : Call code other r stop t := by
  obtain ⟨hafter, hbudget, hstops⟩ := call_iff.mp h
  have hsteps := hbudget hnonneg
  refine call_iff.mpr ⟨hafter, fun _ => by omega, hstops.with_budget hstop ?_⟩
  intro hleft
  have hlt := exhausted_eq_false_iff.mp hleft hnonneg
  exact exhausted_eq_false_iff.mpr fun _ => by omega

/-- A call without a budget is not stopped by one. -/
theorem Call.ne_stepLimit (h : Call code budget r stop t) (hneg : budget < 0) :
    stop ≠ .stepLimit := by
  rintro rfl
  have hnonneg := h.steps_eq.1
  omega

/-- A budget that is not used up might as well not be there. -/
theorem Call.of_lt (h : Call code budget r stop t) (hneg : budget < 0) (hlt : t.steps < other) :
    Call code other r stop t := by
  obtain ⟨hafter, -, hstops⟩ := call_iff.mp h
  refine call_iff.mpr ⟨hafter, fun _ => by omega, hstops.with_budget (h.ne_stepLimit hneg) ?_⟩
  intro _
  exact exhausted_eq_false_iff.mpr fun _ => hlt

/-- The end of the program is looked at before the budget. -/
theorem Call.of_halted (h : Call code budget r .halted t) : Call code t.steps r .halted t := by
  obtain ⟨hafter, -, hstops⟩ := call_iff.mp h
  refine call_iff.mpr ⟨hafter, fun _ => Int.le_refl _, ?_⟩
  cases hstops with
  | halted hfetch => exact .halted hfetch
  | inFront _ _ hperform => exact absurd rfl (performed_of_eq hperform).ne.1

/-- **Calling the kernel again** where it has used up its budget goes on with what is left to do. -/
theorem Call.resume (hfirst : Call code m r .stepLimit s) (hsecond : Call code n s stop t) :
    Call code (m + n : Nat) r stop (t.addSteps s.steps) := by
  obtain rfl : s.steps = m := Int.natCast_inj.mp hfirst.steps_eq.2
  obtain ⟨hbefore, -, -⟩ := call_iff.mp hfirst
  obtain ⟨hafter, hbudget, hstops⟩ := call_iff.mp hsecond
  have hsteps := hbudget (by omega)
  -- The second call counts from zero again.
  have hrest : after code t.steps s = some (t.addSteps s.steps) := after_addSteps hafter s.steps
  refine call_iff.mpr ⟨after_add hbefore hrest, ?_, hstops.addSteps s.steps⟩
  intro _
  show ((s.steps + t.steps : Nat) : Int) ≤ _
  omega

/-- **The kernel can be stopped and called again at any budget.** Whatever the arrays and the
registers:

- a call with a budget comes to an end, and no call has two outcomes;
- a call with the budget `m + n` stops as one with the budget `m` does, unless that is stopped by
  its budget, after exactly `m` steps; then it stops as a second call with the budget `n` does, from
  the registers in which the first one stopped, and the steps of both are counted;
- a call without a budget that stops after some steps is the same with every budget of more steps,
  and, if the program is over, with a budget of as many. -/
theorem calls_resume (code : OpcodeArrays) (r : Registers) :
    (∀ budget : Nat, ∃ stop t, Call code budget r stop t) ∧
    (∀ (budget : Int) (stop stop' : Stop) (t t' : Registers),
      Call code budget r stop t → Call code budget r stop' t' → stop = stop' ∧ t = t') ∧
    (∀ (m n : Nat) (stop : Stop) (t : Registers),
      Call code (m + n : Nat) r stop t ↔
        stop ≠ .stepLimit ∧ Call code m r stop t ∨
        ∃ s t', Call code m r .stepLimit s ∧ s.steps = m ∧ Call code n s stop t' ∧
          t = { t' with steps := s.steps + t'.steps }) ∧
    (∀ (budget : Int) (stop : Stop) (t : Registers), budget < 0 → Call code budget r stop t →
      (∀ other : Int, t.steps < other → Call code other r stop t) ∧
      (stop = .halted → Call code t.steps r stop t)) := by
  refine ⟨fun budget => exists_call code budget r, fun _ _ _ _ _ h h' => h.unique h', ?_, ?_⟩
  · intro m n stop t
    constructor
    · intro h
      -- The first call ends somehow, and from there the other one is known.
      obtain ⟨stop₁, s, hfirst⟩ := exists_call code m r
      by_cases hstop : stop₁ = .stepLimit
      · subst hstop
        obtain ⟨stop₂, t', hsecond⟩ := exists_call code n s
        obtain ⟨rfl, rfl⟩ := h.unique (hfirst.resume hsecond)
        exact .inr ⟨s, t', hfirst, Int.natCast_inj.mp hfirst.steps_eq.2, hsecond, rfl⟩
      · obtain ⟨rfl, rfl⟩ := h.unique (hfirst.mono hstop (by omega) (by omega))
        exact .inl ⟨hstop, hfirst⟩
    · rintro (⟨hstop, hfirst⟩ | ⟨s, t', hfirst, -, hsecond, rfl⟩)
      · exact hfirst.mono hstop (by omega) (by omega)
      · exact hfirst.resume hsecond
  · intro budget stop t hneg h
    refine ⟨fun other hlt => h.of_lt hneg hlt, ?_⟩
    rintro rfl
    exact h.of_halted

/-- The first budget ends between two instructions, with the cell wrapped around to zero. The second
call passes over a number that no operator has, and finds the end of the program with its budget
used up. So does a single call with both budgets, and with none. -/
theorem calls_resume_at_end :
    Call ⟨#[43, 93, 120], #[2, 0, 5], rfl⟩ 1 ⟨0, 0, 7, #[254]⟩ .stepLimit ⟨1, 0, 1, #[0]⟩ ∧
    Call ⟨#[43, 93, 120], #[2, 0, 5], rfl⟩ 2 ⟨1, 0, 1, #[0]⟩ .halted ⟨3, 0, 2, #[0]⟩ ∧
    Call ⟨#[43, 93, 120], #[2, 0, 5], rfl⟩ (1 + 2 : Nat) ⟨0, 0, 7, #[254]⟩ .halted
      ⟨3, 0, 3, #[0]⟩ ∧
    Call ⟨#[43, 93, 120], #[2, 0, 5], rfl⟩ (-1) ⟨0, 0, 7, #[254]⟩ .halted ⟨3, 0, 3, #[0]⟩ ∧
    Call ⟨#[43, 93, 120], #[2, 0, 5], rfl⟩ 4 ⟨0, 0, 7, #[254]⟩ .halted ⟨3, 0, 3, #[0]⟩ := by
  have hfirst : Call ⟨#[43, 93, 120], #[2, 0, 5], rfl⟩ (1 : Nat) ⟨0, 0, 7, #[254]⟩ .stepLimit
      ⟨1, 0, 1, #[0]⟩ := ⟨2, rfl⟩
  have hsecond : Call ⟨#[43, 93, 120], #[2, 0, 5], rfl⟩ (2 : Nat) ⟨1, 0, 1, #[0]⟩ .halted
      ⟨3, 0, 2, #[0]⟩ := ⟨3, rfl⟩
  have hfree : Call ⟨#[43, 93, 120], #[2, 0, 5], rfl⟩ (-1) ⟨0, 0, 7, #[254]⟩ .halted
      ⟨3, 0, 3, #[0]⟩ := ⟨4, rfl⟩
  obtain ⟨-, -, hsplit, hbudgets⟩ := calls_resume ⟨#[43, 93, 120], #[2, 0, 5], rfl⟩
    ⟨0, 0, 7, #[254]⟩
  refine ⟨hfirst, hsecond, ?_, hfree, ?_⟩
  · exact (hsplit 1 2 .halted _).mpr (.inr ⟨_, _, hfirst, rfl, hsecond, rfl⟩)
  · exact (hbudgets (-1) .halted _ (by decide) hfree).1 4 (by decide)

end FoldTape.Kernel
