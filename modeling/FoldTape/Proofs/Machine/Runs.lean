import FoldTape.Machine.Step

/-!
# Runs, one instruction at a time

What a turn can come to, and how the end of a run depends on its beginning. A turn fetches an
instruction, finds the limit reached, or finds the end of the program; every later argument about
runs splits along `State.turn_cases` and nothing else.

Main statements:

- `State.turn_cases`: the three things that a turn can find;
- `State.runToEnd_add`: completed steps can be taken off the beginning of a run;
- `State.runToEnd_unique`: a run has one end;
- `State.exists_runToEnd_of_limit`: a run with a limit on its steps has an end.
-/

namespace FoldTape

variable {δ : Type} [Device δ] {settings : Settings} {p : Program} {s t : State δ}

namespace State

/-! ## §1 What a turn finds -/

/-- The next turn performs `i`: the program counter is at `i`, and the limit has not been
reached. -/
def Fetches (settings : Settings) (p : Program) (s : State δ) (i : Instruction) : Prop :=
  p[s.registers.pc]? = some i ∧ settings.maxSteps ≠ some (s.registers.steps : Int)

/-- The program is not over, and all allowed steps are done. -/
def AtLimit (settings : Settings) (p : Program) (s : State δ) : Prop :=
  (∃ i, p[s.registers.pc]? = some i) ∧ settings.maxSteps = some (s.registers.steps : Int)

omit [Device δ] in
/-- A turn finds the end of the program, the limit, or an instruction to perform. -/
theorem turn_cases (settings : Settings) (p : Program) (s : State δ) :
    p[s.registers.pc]? = none ∨ s.AtLimit settings p ∨ ∃ i, s.Fetches settings p i := by
  cases hi : p[s.registers.pc]? with
  | none => exact .inl rfl
  | some i =>
    by_cases hlimit : settings.maxSteps = some (s.registers.steps : Int)
    · exact .inr (.inl ⟨⟨i, hi⟩, hlimit⟩)
    · exact .inr (.inr ⟨i, hi, hlimit⟩)

theorem turn_of_end (h : p[s.registers.pc]? = none) : s.turn settings p = .halted := by
  simp only [turn, h]

theorem AtLimit.turn_eq (h : s.AtLimit settings p) :
    s.turn settings p =
      .failed (.stepLimit s.registers.pc s.registers.pointer s.registers.steps) s := by
  obtain ⟨⟨i, hi⟩, hlimit⟩ := h
  simp only [turn, hi, hlimit, if_true]

theorem Fetches.turn_eq {i : Instruction} (h : s.Fetches settings p i) :
    s.turn settings p = s.perform settings.eof i := by
  obtain ⟨hi, hlimit⟩ := h
  simp only [turn, hi]
  split
  · rename_i limit hmax
    have hne : limit ≠ s.registers.steps := fun h => hlimit (h ▸ hmax)
    rw [if_neg hne]
  · rfl

/-- Only an instruction that is performed leads on. -/
theorem turn_eq_next_iff :
    s.turn settings p = .next t ↔
      ∃ i, s.Fetches settings p i ∧ s.perform settings.eof i = .next t := by
  constructor
  · intro h
    rcases turn_cases settings p s with hend | hlimit | ⟨i, hi⟩
    · rw [turn_of_end hend] at h
      cases h
    · rw [hlimit.turn_eq] at h
      cases h
    · exact ⟨i, hi, hi.turn_eq ▸ h⟩
  · rintro ⟨i, hi, h⟩
    rw [hi.turn_eq, h]

/-! ## §2 Instructions -/

/-- The state after an instruction that goes on to the one at `pc`. -/
def advance (s : State δ) (pc pointer : Nat) (tape : Tape) (device : δ) : State δ :=
  ⟨⟨pc, pointer, s.registers.steps + 1, tape⟩, device⟩

/-- The value of the current cell. -/
def cell (s : State δ) : UInt8 := s.registers.tape.cell s.registers.pointer

/-- The tape with a new value in the current cell. -/
def store (s : State δ) (value : UInt8) : Tape :=
  s.registers.tape.store s.registers.pointer value

section Instructions

variable (eof : EndPolicy) (n : Int) (s : State δ)

theorem perform_moveRight :
    s.perform eof ⟨.moveRight, n⟩ =
      if s.registers.pointer + n.toNat < s.registers.tape.size then
        .next (s.advance (s.registers.pc + 1) (s.registers.pointer + n.toNat)
          s.registers.tape s.device)
      else
        .failed (.overflow s.registers.pc s.registers.pointer n.toNat s.registers.tape.size) s :=
  rfl

theorem perform_moveLeft :
    s.perform eof ⟨.moveLeft, n⟩ =
      if n.toNat ≤ s.registers.pointer then
        .next (s.advance (s.registers.pc + 1) (s.registers.pointer - n.toNat)
          s.registers.tape s.device)
      else .failed (.underflow s.registers.pc s.registers.pointer n.toNat) s :=
  rfl

theorem perform_increment :
    s.perform eof ⟨.increment, n⟩ =
      .next (s.advance (s.registers.pc + 1) s.registers.pointer
        (s.store (addToCell s.cell n.toNat)) s.device) :=
  rfl

theorem perform_decrement :
    s.perform eof ⟨.decrement, n⟩ =
      .next (s.advance (s.registers.pc + 1) s.registers.pointer
        (s.store (subtractFromCell s.cell n.toNat)) s.device) :=
  rfl

theorem perform_output :
    s.perform eof ⟨.output, n⟩ =
      match writeCell s.cell n.toNat s.device with
      | .ok _ device =>
        .next (s.advance (s.registers.pc + 1) s.registers.pointer s.registers.tape device)
      | .error e device => .failed (.port e) ⟨s.registers, device⟩ :=
  rfl

theorem perform_input :
    s.perform eof ⟨.input, n⟩ =
      match readCell eof s.cell n.toNat s.device with
      | .ok _ (cell, device) =>
        .next (s.advance (s.registers.pc + 1) s.registers.pointer (s.store cell) device)
      | .error e (cell, device) =>
        .failed (e.fault s.registers.pc s.registers.pointer)
          ⟨{ s.registers with tape := s.store cell }, device⟩ :=
  rfl

theorem perform_jumpIfZero :
    s.perform eof ⟨.jumpIfZero, n⟩ =
      .next (s.advance (if s.cell = 0 then n.toNat else s.registers.pc + 1) s.registers.pointer
        s.registers.tape s.device) :=
  rfl

theorem perform_jumpIfNonzero :
    s.perform eof ⟨.jumpIfNonzero, n⟩ =
      .next (s.advance (if s.cell = 0 then s.registers.pc + 1 else n.toNat) s.registers.pointer
        s.registers.tape s.device) :=
  rfl

end Instructions

/-- A completed instruction is one step and leaves the length of the tape as it is. -/
theorem perform_next {eof : EndPolicy} {i : Instruction} (h : s.perform eof i = .next t) :
    t.registers.steps = s.registers.steps + 1 ∧
      t.registers.tape.size = s.registers.tape.size := by
  obtain ⟨op, n⟩ := i
  cases op with
  | moveRight =>
    -- A move that fails leads nowhere.
    rw [perform_moveRight] at h
    split at h <;> cases h
    exact ⟨rfl, rfl⟩
  | moveLeft =>
    rw [perform_moveLeft] at h
    split at h <;> cases h
    exact ⟨rfl, rfl⟩
  | increment | decrement =>
    -- Storing into a cell keeps the length of the tape.
    cases h
    exact ⟨rfl, Array.size_setIfInBounds⟩
  | output =>
    rw [perform_output] at h
    split at h <;> cases h
    exact ⟨rfl, rfl⟩
  | input =>
    rw [perform_input] at h
    split at h <;> cases h
    exact ⟨rfl, Array.size_setIfInBounds⟩
  | jumpIfZero | jumpIfNonzero =>
    cases h
    exact ⟨rfl, rfl⟩

/-- What every state of a run satisfies: the tape has the length that the settings ask for, and a
limit on the steps, unless it is negative, has not been passed. -/
structure Valid (settings : Settings) (s : State δ) : Prop where
  size : s.registers.tape.size = settings.tapeSize
  limit : ∀ limit, settings.maxSteps = some limit → 0 ≤ limit → s.registers.steps ≤ limit

omit [Device δ] in
theorem Valid.start (settings : Settings) (device : δ) :
    Valid settings ⟨.start settings.tapeSize, device⟩ where
  size := by simp [Registers.start, Tape.blank]
  limit := by
    intro limit _ hnonneg
    exact hnonneg

theorem Valid.turn_next (hs : s.Valid settings) (h : s.turn settings p = .next t) :
    t.Valid settings := by
  obtain ⟨i, ⟨-, hlimit⟩, hperform⟩ := turn_eq_next_iff.mp h
  obtain ⟨hsteps, hsize⟩ := perform_next hperform
  refine ⟨hsize.trans hs.size, ?_⟩
  intro limit hmax hnonneg
  have hle := hs.limit limit hmax hnonneg
  have hne : limit ≠ s.registers.steps := fun h => hlimit (h ▸ hmax)
  omega

/-! ## §3 Beginnings and ends of runs -/

/-- **Steps come off the beginning**: after `n` completed steps the rest of a run is a run of its
own. -/
theorem runToEnd_add {n : Nat} (h : s.after settings p n = some t) (fuel : Nat) :
    s.runToEnd settings p (n + fuel) = t.runToEnd settings p fuel := by
  induction n generalizing s with
  | zero =>
    cases h
    rw [Nat.zero_add]
  | succ n ih =>
    rw [Nat.succ_add]
    simp only [after] at h
    simp only [runToEnd]
    split at h
    · exact ih h
    · cases h
    · cases h

/-- A run that ends has more turns than it has completed steps. -/
theorem lt_of_after_of_runToEnd {n fuel : Nat} {ended : Option Fault × State δ}
    (h : s.after settings p n = some t) (hend : s.runToEnd settings p fuel = some ended) :
    n < fuel := by
  rcases Nat.lt_or_ge n fuel with hlt | hge
  · exact hlt
  · have hn : s.runToEnd settings p (n + 0) = some ended := runToEnd_mono hge hend
    rw [runToEnd_add h 0] at hn
    cases hn

/-- **A run has one end.** -/
theorem runToEnd_unique {fuel fuel' : Nat} {ended ended' : Option Fault × State δ}
    (h : s.runToEnd settings p fuel = some ended)
    (h' : s.runToEnd settings p fuel' = some ended') : ended = ended' := by
  -- With as many turns as the longer of the two is allowed, both are the same computation.
  have hmore := runToEnd_mono (Nat.le_max_left fuel fuel') h
  have hmore' := runToEnd_mono (Nat.le_max_right fuel fuel') h'
  rw [hmore] at hmore'
  exact Option.some.inj hmore'

/-- **What every turn keeps, completed steps keep.** -/
theorem after_induction {P : State δ → Prop}
    (hturn : ∀ {s t}, s.turn settings p = .next t → P s → P t) {n : Nat}
    (h : s.after settings p n = some t) (hs : P s) : P t := by
  induction n generalizing s with
  | zero =>
    cases h
    exact hs
  | succ n ih =>
    simp only [State.after] at h
    split at h
    · rename_i next
      exact ih h (hturn next hs)
    · cases h
    · cases h

theorem Valid.after (hs : s.Valid settings) {n : Nat} (h : s.after settings p n = some t) :
    t.Valid settings :=
  after_induction (fun next hs => hs.turn_next next) h hs

/-- **A limit ends every run**: with `n` steps left, one turn more finds the end. -/
theorem exists_runToEnd_of_limit {n : Nat}
    (h : settings.maxSteps = some ((s.registers.steps + n : Nat) : Int)) :
    ∃ ended, s.runToEnd settings p (n + 1) = some ended := by
  induction n generalizing s with
  | zero =>
    -- No step is left, so nothing can be fetched.
    rcases turn_cases settings p s with hend | hlimit | ⟨i, -, hlimit⟩
    · rw [runToEnd, turn_of_end hend]
      exact ⟨_, rfl⟩
    · rw [runToEnd, hlimit.turn_eq]
      exact ⟨_, rfl⟩
    · exact absurd h hlimit
  | succ n ih =>
    rw [runToEnd]
    split
    · rename_i t next
      obtain ⟨i, -, hperform⟩ := turn_eq_next_iff.mp next
      apply ih
      rw [h, (perform_next hperform).1, Nat.add_right_comm, Nat.add_assoc]
    · exact ⟨_, rfl⟩
    · exact ⟨_, rfl⟩

end State

end FoldTape
