import FoldTape.Machine.Execution
import FoldTape.Port.Ports
import FoldTape.Proofs.Machine.Cells
import FoldTape.Proofs.Machine.Runs
import FoldTape.Proofs.Packing

/-!
# The kernel and the machine, taking turns

A run in which the kernel and the machine take turns is a run of the machine that performs one
instruction after the other.

## Architecture

- **§1 One instruction**: what the kernel performs is one turn; in front of an instruction that it
  does not perform it stops, for the reason that `Stop.At` states.
- **§2 Bursts**: a call of the kernel is a number of completed turns. Its budget, a negative number
  or the steps left, is used up exactly where the limit is reached.
- **§3 Serving**: what the machine does after a stop is the turn that the kernel did not take.
- **§4 Whole runs**: `Machine.execute_iff_runToEnd` for every device, and the budgets.
-/

namespace FoldTape

variable {δ : Type} [Device δ] {settings : Settings} {p : Program} {code : Packed}

/-! ## §1 One instruction -/

/-- The registers with some steps done before. -/
abbrev Registers.addSteps (done : Nat) (r : Registers) : Registers :=
  { r with steps := done + r.steps }

/-- What is the case where the kernel stops for a reason. -/
inductive Stop.At (settings : Settings) (p : Program) (s : State δ) : Stop → Prop where
  | halted : p[s.registers.pc]? = none → Stop.At settings p s .halted
  | stepLimit : s.AtLimit settings p → Stop.At settings p s .stepLimit
  | output {n : Int} : s.Fetches settings p ⟨.output, n⟩ → Stop.At settings p s .output
  | input {n : Int} : s.Fetches settings p ⟨.input, n⟩ → Stop.At settings p s .input
  | underflow {n : Int} : s.Fetches settings p ⟨.moveLeft, n⟩ →
      s.registers.pointer < n.toNat → Stop.At settings p s .underflow
  | overflow {n : Int} : s.Fetches settings p ⟨.moveRight, n⟩ →
      s.registers.tape.size ≤ s.registers.pointer + n.toNat → Stop.At settings p s .overflow

/-- What the kernel performs is what the instruction means. -/
theorem Kernel.perform_ok {i : Instruction} (hi : 0 ≤ i.operand ∧ i.operand < int64Bound)
    {r r' : Registers} (h : Kernel.perform i.operator (Int64.ofInt i.operand) r = .ok () r')
    (eof : EndPolicy) (done : Nat) (device : δ) :
    State.perform eof i ⟨r.addSteps done, device⟩ = .next ⟨r'.addSteps done, device⟩ := by
  obtain ⟨op, k⟩ := i
  obtain ⟨hnonneg, hlt⟩ : 0 ≤ k ∧ k < int64Bound := hi
  unfold int64Bound at hlt
  -- Packed into 64 bits and read back, the operand is what it was.
  have hk : (Int64.ofInt k).toNatClampNeg = k.toNat :=
    Int64.toNatClampNeg_ofInt_of_le (by omega) hlt
  have hint : 0 ≤ (Int64.ofInt k).toInt := by
    rw [Int64.toInt_ofInt_of_le (by omega) hlt]
    exact hnonneg
  cases op with
  | moveRight =>
    simp only [Kernel.perform, hk] at h
    split at h
    · cases h
    · rename_i hn
      cases h
      rw [State.perform_moveRight, if_pos (Nat.lt_of_not_le hn)]
      rfl
  | moveLeft =>
    simp only [Kernel.perform, hk] at h
    split at h
    · cases h
    · rename_i hn
      cases h
      rw [State.perform_moveLeft, if_pos (Nat.le_of_not_lt hn)]
      rfl
  | increment =>
    -- The kernel adds in 64 bits that wrap around; the low byte does not notice.
    cases h
    rw [State.perform_increment, ← hk, Kernel.updateCell, lowByte_wideCell_add _ _ hint]
    rfl
  | decrement =>
    cases h
    rw [State.perform_decrement, ← hk, Kernel.updateCell, lowByte_wideCell_sub _ _ hint]
    rfl
  -- In front of input and output the kernel stops.
  | output | input => cases h
  | jumpIfZero =>
    simp only [Kernel.perform, hk, Kernel.jump, beq_iff_eq] at h
    cases h
    rw [State.perform_jumpIfZero]
    rfl
  | jumpIfNonzero =>
    simp only [Kernel.perform, hk, Kernel.jump, bne_iff_ne, ne_eq, ite_not] at h
    cases h
    rw [State.perform_jumpIfNonzero]
    rfl

omit [Device δ] in
/-- What the kernel does not perform it leaves as it is, and it stops for a good reason. -/
theorem Kernel.perform_error {i : Instruction} (hi : 0 ≤ i.operand ∧ i.operand < int64Bound)
    {r r' : Registers} {stop : Stop}
    (h : Kernel.perform i.operator (Int64.ofInt i.operand) r = .error stop r')
    {done : Nat} {device : δ}
    (hfetch : State.Fetches settings p ⟨r.addSteps done, device⟩ i) :
    r' = r ∧ Stop.At settings p (⟨r.addSteps done, device⟩ : State δ) stop := by
  obtain ⟨op, k⟩ := i
  obtain ⟨hnonneg, hlt⟩ : 0 ≤ k ∧ k < int64Bound := hi
  unfold int64Bound at hlt
  have hk : (Int64.ofInt k).toNatClampNeg = k.toNat :=
    Int64.toNatClampNeg_ofInt_of_le (by omega) hlt
  cases op with
  | moveRight =>
    -- Both moves are looked at before the pointer changes.
    simp only [Kernel.perform, hk] at h
    split at h
    · rename_i hn
      cases h
      exact ⟨rfl, .overflow hfetch hn⟩
    · cases h
  | moveLeft =>
    simp only [Kernel.perform, hk] at h
    split at h
    · rename_i hn
      cases h
      exact ⟨rfl, .underflow hfetch hn⟩
    · cases h
  | output =>
    cases h
    exact ⟨rfl, .output hfetch⟩
  | input =>
    cases h
    exact ⟨rfl, .input hfetch⟩
  | increment | decrement | jumpIfZero | jumpIfNonzero => cases h

/-! ## §2 Bursts -/

/-- The budget for what is left of a run in which some steps are done. -/
def Settings.budget (settings : Settings) (done : Nat) : Int :=
  match settings.maxSteps with
  | none => -1
  | some limit => limit - done

theorem Kernel.exhausted_eq_true_iff {budget : Int} {steps : Nat} :
    Kernel.exhausted budget steps = true ↔ 0 ≤ budget ∧ budget ≤ steps :=
  decide_eq_true_iff

omit [Device δ] in
/-- **The budget is used up exactly at the limit.** A negative limit sets none, and the budgets
that come of it are negative. -/
theorem Kernel.exhausted_budget_iff {r : Registers} {done : Nat} {device : δ}
    (hs : State.Valid settings (⟨r.addSteps done, device⟩ : State δ)) :
    Kernel.exhausted (settings.budget done) r.steps = true ↔
      settings.maxSteps = some ((r.addSteps done).steps : Int) := by
  rw [Kernel.exhausted_eq_true_iff, Settings.budget]
  split
  · -- No limit: the budget is negative, and the kernel never looks at it.
    rename_i hmax
    simp [hmax]
  · rename_i limit hmax
    have hlimit : 0 ≤ limit → ((r.addSteps done).steps : Int) ≤ limit := hs.limit limit hmax
    have hsteps : (r.addSteps done).steps = done + r.steps := rfl
    rw [hsteps] at hlimit ⊢
    rw [hmax, Option.some.injEq]
    constructor
    · rintro ⟨hnonneg, hle⟩
      have := hlimit (by omega)
      omega
    · intro heq
      omega

omit [Device δ] in
/-- At the end of the program and at the limit the kernel stops; otherwise it performs an
instruction. -/
theorem Kernel.run_succ (hcode : p.pack? = some code) {r : Registers} {done : Nat} {device : δ}
    (hs : State.Valid settings (⟨r.addSteps done, device⟩ : State δ)) (fuel : Nat) :
    Kernel.run code (settings.budget done) (fuel + 1) r =
      match p[r.pc]? with
      | none => some (.halted, r)
      | some i =>
        if settings.maxSteps = some ((r.addSteps done).steps : Int) then some (.stepLimit, r)
        else
          match Kernel.perform i.operator (Int64.ofInt i.operand) r with
          | .error stop r => some (stop, r)
          | .ok _ r => Kernel.run code (settings.budget done) fuel r := by
  simp only [Kernel.run, Program.fetch?_pack hcode]
  cases p[r.pc]? with
  | none => rfl
  | some i =>
    simp only [Option.map_some]
    by_cases hlimit : settings.maxSteps = some ((r.addSteps done).steps : Int)
    · rw [if_pos ((Kernel.exhausted_budget_iff hs).mpr hlimit), if_pos hlimit]
    · have hleft := mt (Kernel.exhausted_budget_iff hs).mp hlimit
      exact (if_neg hleft).trans (if_neg hlimit).symm

/-- **A burst is a number of turns**: where the kernel stops, the machine that performs one
instruction after the other arrives as well. -/
theorem Kernel.run_sound (hp : p.Admissible) (hcode : p.pack? = some code) {fuel : Nat}
    {r r' : Registers} {stop : Stop} {done : Nat} {device : δ}
    (hs : State.Valid settings (⟨r.addSteps done, device⟩ : State δ))
    (h : Kernel.run code (settings.budget done) fuel r = some (stop, r')) :
    ∃ n, State.after settings p n ⟨r.addSteps done, device⟩ =
        some ⟨r'.addSteps done, device⟩ ∧
      Stop.At settings p (⟨r'.addSteps done, device⟩ : State δ) stop := by
  induction fuel generalizing r with
  | zero => cases h
  | succ fuel ih =>
    rw [Kernel.run_succ hcode hs] at h
    split at h
    · rename_i hend
      cases h
      exact ⟨0, rfl, .halted hend⟩
    · rename_i i hi
      split at h
      · -- The budget is used up, so the limit has been reached.
        rename_i hlimit
        cases h
        exact ⟨0, rfl, .stepLimit ⟨⟨i, hi⟩, hlimit⟩⟩
      · rename_i hlimit
        have hfetch : State.Fetches settings p (⟨r.addSteps done, device⟩ : State δ) i :=
          ⟨hi, hlimit⟩
        have hrange := hp.of_getElem? hi
        split at h
        · -- The kernel stops in front of the instruction.
          rename_i hstop
          cases h
          obtain ⟨rfl, hat⟩ := Kernel.perform_error hrange hstop hfetch
          exact ⟨0, rfl, hat⟩
        · -- The instruction is one turn; what follows is shorter.
          rename_i r₁ hperform
          have hnext := hfetch.turn_eq.trans
            (Kernel.perform_ok hrange hperform settings.eof done device)
          obtain ⟨n, hafter, hat⟩ := ih (hs.turn_next hnext) h
          refine ⟨n + 1, ?_, hat⟩
          simpa only [State.after, hnext] using hafter

/-- A burst ends if the run ends. -/
theorem Kernel.run_complete (hp : p.Admissible) (hcode : p.pack? = some code) {fuel : Nat}
    {r : Registers} {done : Nat} {device : δ} {ended : Option Fault × State δ}
    (hs : State.Valid settings (⟨r.addSteps done, device⟩ : State δ))
    (h : State.runToEnd settings p fuel ⟨r.addSteps done, device⟩ = some ended) :
    ∃ stopped, Kernel.run code (settings.budget done) fuel r = some stopped := by
  induction fuel generalizing r with
  | zero => cases h
  | succ fuel ih =>
    rw [Kernel.run_succ hcode hs]
    split
    · exact ⟨_, rfl⟩
    · rename_i i hi
      split
      · exact ⟨_, rfl⟩
      · rename_i hlimit
        split
        · exact ⟨_, rfl⟩
        · rename_i r₁ hperform
          have hfetch : State.Fetches settings p (⟨r.addSteps done, device⟩ : State δ) i :=
            ⟨hi, hlimit⟩
          have hnext := hfetch.turn_eq.trans
            (Kernel.perform_ok (hp.of_getElem? hi) hperform settings.eof done device)
          simp only [State.runToEnd, hnext] at h
          exact ih (hs.turn_next hnext) h

namespace Machine

/-- A burst changes the registers only, and they are those after a number of turns. -/
theorem burst_sound (hp : p.Admissible) (hcode : p.pack? = some code) {fuel : Nat}
    {m m' : Machine δ} {stop : Stop} (hm : m.state.Valid m.settings)
    (h : m.burst code fuel = some (stop, m')) :
    m'.settings = m.settings ∧
      (∃ n, m.state.after m.settings p n = some m'.state) ∧
      Stop.At m.settings p m'.state stop := by
  obtain ⟨settings, ⟨⟨pc, pointer, steps, tape⟩, device⟩⟩ := m
  simp only [burst] at h
  -- The kernel counts from zero, on top of the steps done before.
  split at h
  · cases h
  · rename_i hrun
    cases h
    have hstart : State.Valid settings
        (⟨Registers.addSteps steps ⟨pc, pointer, 0, tape⟩, device⟩ : State δ) := hm
    obtain ⟨n, hafter, hat⟩ := Kernel.run_sound hp hcode hstart hrun
    exact ⟨rfl, ⟨n, hafter⟩, hat⟩

theorem burst_complete (hp : p.Admissible) (hcode : p.pack? = some code) {fuel : Nat}
    {m : Machine δ} {ended : Option Fault × State δ} (hm : m.state.Valid m.settings)
    (h : m.state.runToEnd m.settings p fuel = some ended) :
    ∃ stop m', m.burst code fuel = some (stop, m') := by
  obtain ⟨settings, ⟨⟨pc, pointer, steps, tape⟩, device⟩⟩ := m
  have hstart : State.Valid settings
      (⟨Registers.addSteps steps ⟨pc, pointer, 0, tape⟩, device⟩ : State δ) := hm
  obtain ⟨⟨stop, ⟨pc', pointer', more, tape'⟩⟩, hrun⟩ :=
    Kernel.run_complete hp hcode hstart h
  refine ⟨stop, ⟨settings, ⟨⟨pc', pointer', steps + more, tape'⟩, device⟩⟩, ?_⟩
  have hburst : Kernel.run code (budget ⟨settings, ⟨⟨pc, pointer, steps, tape⟩, device⟩⟩) fuel
      ⟨pc, pointer, 0, tape⟩ = some (stop, ⟨pc', pointer', more, tape'⟩) := hrun
  simp only [burst, hburst]

/-! ## §3 Serving -/

/-- The turn of the machine's state, as something that is served. -/
def Served.ofTurn (m : Machine δ) : Turn δ → Served δ
  | .next s => .goOn ⟨m.settings, s⟩
  | .halted => .over none m
  | .failed fault s => .over (some fault) ⟨m.settings, s⟩

omit [Device δ] in
theorem amount_of_fetches (hp : p.Admissible) (hcode : p.pack? = some code) {m : Machine δ}
    {i : Instruction} (h : m.state.Fetches m.settings p i) :
    m.amount code = i.operand.toNat := by
  obtain ⟨hnonneg, hlt⟩ := hp.of_getElem? h.1
  simp only [amount, Program.fetch?_pack hcode, h.1, Option.map_some]
  exact Int64.toNatClampNeg_ofInt_of_le (by omega) hlt

/-- **What is served after a stop is one turn.** -/
theorem serve_eq_ofTurn (hp : p.Admissible) (hcode : p.pack? = some code) {m : Machine δ}
    {stop : Stop} (hm : m.state.Valid m.settings) (hat : Stop.At m.settings p m.state stop) :
    m.serve code stop = Served.ofTurn m (m.state.turn m.settings p) := by
  obtain ⟨settings, ⟨⟨pc, pointer, steps, tape⟩, device⟩⟩ := m
  cases hat with
  | halted hend =>
    rw [State.turn_of_end hend]
    rfl
  | stepLimit hlimit =>
    -- The kernel does not know the limit; the machine names it.
    have hmax : settings.maxSteps = some (steps : Int) := hlimit.2
    rw [hlimit.turn_eq]
    simp only [serve, hmax, Option.getD_some, Served.ofTurn]
  | @output n hfetch =>
    rw [hfetch.turn_eq]
    simp only [serve, amount_of_fetches hp hcode hfetch, State.perform]
    cases writeCell (tape.cell pointer) n.toNat device <;> rfl
  | @input n hfetch =>
    rw [hfetch.turn_eq]
    simp only [serve, amount_of_fetches hp hcode hfetch, State.perform]
    cases readCell settings.eof (tape.cell pointer) n.toNat device <;> rfl
  | underflow hfetch hn =>
    rw [hfetch.turn_eq, State.perform_moveLeft, if_neg (Nat.not_le.mpr hn)]
    simp only [serve, amount_of_fetches hp hcode hfetch, Served.ofTurn]
  | overflow hfetch hn =>
    -- The machine reports the length of the tape from its settings.
    have hsize : tape.size = settings.tapeSize := hm.size
    rw [hfetch.turn_eq, State.perform_moveRight, if_neg (Nat.not_lt.mpr hn)]
    simp only [serve, amount_of_fetches hp hcode hfetch, Served.ofTurn, hsize]

/-- The machine after one round of a burst and a served instruction, and how far it has come. -/
theorem round_sound (hp : p.Admissible) (hcode : p.pack? = some code) {fuel : Nat}
    {m m₁ m₂ : Machine δ} {stop : Stop} (hm : m.state.Valid m.settings)
    (hburst : m.burst code fuel = some (stop, m₁)) (hserve : m₁.serve code stop = .goOn m₂) :
    m₂.settings = m.settings ∧ m₂.state.Valid m.settings ∧
      ∃ n, m.state.after m.settings p (n + 1) = some m₂.state := by
  obtain ⟨hsettings, ⟨n, hafter⟩, hat⟩ := burst_sound hp hcode hm hburst
  have hm₁ : m₁.state.Valid m.settings := hm.after hafter
  rw [← hsettings] at hm₁ hat
  rw [serve_eq_ofTurn hp hcode hm₁ hat] at hserve
  cases hturn : m₁.state.turn m₁.settings p with
  | next s =>
    rw [hturn, Served.ofTurn] at hserve
    cases hserve
    refine ⟨hsettings, hsettings ▸ hm₁.turn_next hturn, n, ?_⟩
    rw [State.after_add, hafter]
    rw [hsettings] at hturn
    simp only [Option.bind_some, State.after, hturn]
  | halted =>
    rw [hturn] at hserve
    cases hserve
  | failed fault s =>
    rw [hturn] at hserve
    cases hserve

/-- The last round of a run: it ends as the run of the one-instruction machine does. -/
theorem last_round_sound (hp : p.Admissible) (hcode : p.pack? = some code) {fuel : Nat}
    {m m₁ m₂ : Machine δ} {stop : Stop} {fault? : Option Fault} (hm : m.state.Valid m.settings)
    (hburst : m.burst code fuel = some (stop, m₁))
    (hserve : m₁.serve code stop = .over fault? m₂) :
    m₂.settings = m.settings ∧
      ∃ turns, m.state.runToEnd m.settings p turns = some (fault?, m₂.state) := by
  obtain ⟨hsettings, ⟨n, hafter⟩, hat⟩ := burst_sound hp hcode hm hburst
  have hm₁ : m₁.state.Valid m.settings := hm.after hafter
  rw [← hsettings] at hm₁ hat
  rw [serve_eq_ofTurn hp hcode hm₁ hat] at hserve
  cases hturn : m₁.state.turn m₁.settings p with
  | next s =>
    rw [hturn] at hserve
    cases hserve
  | halted =>
    -- The last turn finds the end, after the `n` turns of the burst.
    rw [hturn] at hserve
    cases hserve
    refine ⟨hsettings, n + 1, ?_⟩
    rw [hsettings] at hturn
    rw [State.runToEnd_add hafter]
    simp only [State.runToEnd, hturn]
  | failed fault s =>
    rw [hturn] at hserve
    cases hserve
    refine ⟨hsettings, n + 1, ?_⟩
    rw [hsettings] at hturn
    rw [State.runToEnd_add hafter]
    simp only [State.runToEnd, hturn]

/-! ## §4 Whole runs -/

/-- A report tells the end of the run of the one-instruction machine. -/
theorem takeTurns_sound (hp : p.Admissible) (hcode : p.pack? = some code) {fuel : Nat}
    {bursts : List Burst} {m : Machine δ} {report : Report δ} (hm : m.state.Valid m.settings)
    (h : m.takeTurns code fuel bursts = some report) :
    report.machine.settings = m.settings ∧
      ∃ turns, m.state.runToEnd m.settings p turns =
        some (report.fault?, report.machine.state) := by
  induction fuel generalizing m bursts with
  | zero => cases h
  | succ fuel ih =>
    simp only [takeTurns] at h
    split at h
    · cases h
    · rename_i stop m₁ hburst
      split at h
      · -- This was the last round.
        rename_i hserve
        cases h
        exact last_round_sound hp hcode hm hburst hserve
      · rename_i m₂ hserve
        obtain ⟨hsettings, hm₂, n, hafter⟩ := round_sound hp hcode hm hburst hserve
        rw [← hsettings] at hm₂
        obtain ⟨hreport, turns, hend⟩ := ih hm₂ h
        refine ⟨hreport.trans hsettings, n + 1 + turns, ?_⟩
        rw [State.runToEnd_add hafter, ← hsettings]
        exact hend

/-- If the one-instruction machine ends, then so do the kernel and the machine. -/
theorem takeTurns_complete (hp : p.Admissible) (hcode : p.pack? = some code) {turns : Nat}
    {bursts : List Burst} {m : Machine δ} {ended : Option Fault × State δ}
    (hm : m.state.Valid m.settings)
    (h : m.state.runToEnd m.settings p turns = some ended) :
    ∃ report, m.takeTurns code turns bursts = some report := by
  -- Each round completes at least one turn, so what is left of the run has fewer turns.
  induction turns using Nat.strongRecOn generalizing m bursts with
  | ind turns ih =>
    cases turns with
    | zero => cases h
    | succ turns =>
      obtain ⟨stop, m₁, hburst⟩ := burst_complete hp hcode hm h
      simp only [takeTurns, hburst]
      split
      · exact ⟨_, rfl⟩
      · rename_i m₂ hserve
        obtain ⟨hsettings, hm₂, n, hafter⟩ := round_sound hp hcode hm hburst hserve
        have hlt := State.lt_of_after_of_runToEnd hafter h
        obtain ⟨rest, hrest⟩ : ∃ rest, turns = n + rest := ⟨turns - n, by omega⟩
        have hsplit : turns + 1 = n + 1 + rest := by omega
        rw [hsplit, State.runToEnd_add hafter, ← hsettings] at h
        rw [← hsettings] at hm₂
        obtain ⟨report, hreport⟩ := ih rest (by omega) hm₂ h
        exact ⟨report, takeTurns_mono (by omega) hreport⟩

omit [Device δ] in
/-- What is left of the allowed steps is not negative, unless the limit itself is. -/
theorem budget_nonneg {m : Machine δ} {limit : Int} (hm : m.state.Valid m.settings)
    (hmax : m.settings.maxSteps = some limit) (hlimit : 0 ≤ limit) : 0 ≤ m.budget := by
  have hle := hm.limit limit hmax hlimit
  simp only [budget, hmax]
  omega

/-- **No call of the kernel gets a negative budget if there is a limit.** -/
theorem takeTurns_budget (hp : p.Admissible) (hcode : p.pack? = some code) {fuel : Nat}
    {bursts : List Burst} {m : Machine δ} {report : Report δ} {limit : Int}
    (hm : m.state.Valid m.settings) (hmax : m.settings.maxSteps = some limit)
    (hlimit : 0 ≤ limit) (hbursts : ∀ b ∈ bursts, 0 ≤ b.budget)
    (h : m.takeTurns code fuel bursts = some report) :
    ∀ b ∈ report.bursts, 0 ≤ b.budget := by
  induction fuel generalizing m bursts with
  | zero => cases h
  | succ fuel ih =>
    simp only [takeTurns] at h
    split at h
    · cases h
    · rename_i stop m₁ hburst
      have hmore : ∀ b ∈ (⟨m.budget, stop, m₁.state.registers.pc, m₁.state.registers.pointer,
          m₁.state.registers.steps⟩ : Burst) :: bursts, 0 ≤ b.budget := by
        intro b hb
        rcases List.mem_cons.mp hb with rfl | hb
        · exact budget_nonneg hm hmax hlimit
        · exact hbursts b hb
      split at h
      · cases h
        intro b hb
        exact hmore b (List.mem_reverse.mp hb)
      · rename_i m₂ hserve
        obtain ⟨hsettings, hm₂, -⟩ := round_sound hp hcode hm hburst hserve
        rw [← hsettings] at hm₂ hmax
        exact ih hm₂ hmax hmore h

/-- **Taking turns is performing one instruction after the other**: for every device, a program is
executed to an end exactly if the one-instruction machine, from cleared registers, comes to that
end. -/
theorem execute_iff_runToEnd (hp : p.Admissible) (m : Machine δ) (fault? : Option Fault)
    (t : State δ) :
    (∃ fuel report, m.execute fuel p = some report ∧ report.fault? = fault? ∧
        report.machine.state = t) ↔
      ∃ turns, State.runToEnd m.settings p turns ⟨.start m.settings.tapeSize, m.state.device⟩ =
        some (fault?, t) := by
  obtain ⟨code, hcode⟩ := hp.exists_pack
  have hvalid : m.reset.state.Valid m.reset.settings := State.Valid.start m.settings _
  constructor
  · rintro ⟨fuel, report, h, rfl, rfl⟩
    simp only [execute, hcode] at h
    exact (takeTurns_sound hp hcode hvalid h).2
  · rintro ⟨turns, h⟩
    -- The machine ends somewhere, and a run has one end only.
    have hends : ∃ report, m.reset.takeTurns code turns [] = some report :=
      takeTurns_complete hp hcode hvalid h
    obtain ⟨report, hreport⟩ := hends
    obtain ⟨-, turns', h'⟩ := takeTurns_sound hp hcode hvalid hreport
    cases State.runToEnd_unique h h'
    refine ⟨turns, report, ?_, rfl, rfl⟩
    simp only [execute, hcode]
    exact hreport

/-- A limit ends every run. -/
theorem exists_execute_of_limit (hp : p.Admissible) (m : Machine δ) {limit : Int}
    (hmax : m.settings.maxSteps = some limit) (hlimit : 0 ≤ limit) :
    ∃ fuel report, m.execute fuel p = some report := by
  obtain ⟨n, rfl⟩ := Int.eq_ofNat_of_zero_le hlimit
  have hleft : m.settings.maxSteps =
      some (((Registers.start m.settings.tapeSize).steps + n : Nat) : Int) := by
    rw [hmax, Registers.start, Nat.zero_add]
  obtain ⟨⟨fault?, t⟩, hend⟩ := State.exists_runToEnd_of_limit (p := p)
    (s := ⟨.start m.settings.tapeSize, m.state.device⟩) hleft
  obtain ⟨fuel, report, h, -⟩ := (execute_iff_runToEnd hp m fault? t).mpr ⟨n + 1, hend⟩
  exact ⟨fuel, report, h⟩

/-- No call of the kernel in a run with a limit gets a negative budget. -/
theorem execute_budget (hp : p.Admissible) {m : Machine δ} {limit : Int}
    (hmax : m.settings.maxSteps = some limit) (hlimit : 0 ≤ limit) {fuel : Nat}
    {report : Report δ} (h : m.execute fuel p = some report) :
    ∀ b ∈ report.bursts, 0 ≤ b.budget := by
  obtain ⟨code, hcode⟩ := hp.exists_pack
  have hvalid : m.reset.state.Valid m.reset.settings := State.Valid.start m.settings _
  simp only [execute, hcode] at h
  exact takeTurns_budget hp hcode hvalid hmax hlimit (by simp) h

/-- **The trampoline refines the one-instruction machine.** Whatever the operators, the operands
and the jump targets, the kernel and the machine come to an end exactly if the one-instruction
machine does, and then with the same fault, if any, and in the same state: registers, tape, and a
device that has noted every read and every write in order. With a limit on the steps there is such
an end, and no call of the kernel on the way gets a negative budget, which would set no limit. -/
theorem trampoline_refines_turns (hp : p.Admissible) (m : Machine (Recorded δ)) :
    (∀ (fault? : Option Fault) (t : State (Recorded δ)),
      (∃ fuel report, m.execute fuel p = some report ∧ report.fault? = fault? ∧
          report.machine.state = t) ↔
        ∃ turns, State.runToEnd m.settings p turns
          ⟨.start m.settings.tapeSize, m.state.device⟩ = some (fault?, t)) ∧
    ∀ limit, m.settings.maxSteps = some limit → 0 ≤ limit →
      (∃ fuel report, m.execute fuel p = some report) ∧
      ∀ fuel report, m.execute fuel p = some report → ∀ b ∈ report.bursts, 0 ≤ b.budget := by
  refine ⟨execute_iff_runToEnd hp m, ?_⟩
  intro limit hmax hlimit
  refine ⟨exists_execute_of_limit hp m hmax hlimit, ?_⟩
  intro fuel report h
  exact execute_budget hp hmax hlimit h

/-- The trampoline on a program that reads a byte and writes it twice, with just enough steps. -/
theorem trampoline_refines_turns_echo :
    Program.Admissible #[⟨.input, 1⟩, ⟨.output, 2⟩] ∧
    ∃ fuel report,
      (Machine.new { tapeSize := 1, maxSteps := some 2 }
        (⟨Ports.inMemory [65], []⟩ : Recorded Ports)).execute fuel
          #[⟨.input, 1⟩, ⟨.output, 2⟩] = some report ∧
      report.fault? = none ∧
      report.machine.state =
        ⟨⟨2, 0, 2, #[65]⟩,
          ⟨⟨.memory [] 1, .memory #[65, 65]⟩, [.wrote 65, .wrote 65, .read (some 65)]⟩⟩ := by
  refine ⟨by decide, ?_⟩
  exact ((trampoline_refines_turns (by decide) _).1 none _).mpr ⟨3, rfl⟩

end Machine

end FoldTape
