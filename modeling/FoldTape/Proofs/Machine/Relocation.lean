import FoldTape.Proofs.Folding.Concatenation
import FoldTape.Proofs.Machine.Endings

/-!
# Programs at other addresses

Only jumps depend on where a program stands. If its instructions stand elsewhere, and its jump
targets are mapped in the same way as their addresses, then an instruction does the same as before,
and goes on at the mapped address. The number of steps that have been done before does not matter
either, if the limit allows for as many more.

A loop at the beginning of a program is a case in point: the tape is blank, so the first jump leads
just past the loop, and what stands there runs as it does by itself.

## Architecture

- **§1 One instruction**: `State.perform_move`, for any map of addresses.
- **§2 A program behind another**: `Program.StandsAt`, and runs of it (`State.runToEnd_displace`).
- **§3 A loop in front**: the first turn, and `Machine.leading_loop_is_dead`.
-/

namespace FoldTape

variable {δ : Type} {settings : Settings} {p q r : Program} {s t : State δ} {f : Nat → Nat}
  {distance : Nat}

/-! ## §1 One instruction -/

/-- The same fault where addresses are mapped and more steps are allowed. -/
def Fault.move (f : Nat → Nat) (more : Int) : Fault → Fault
  | underflow pc pointer amount => .underflow (f pc) pointer amount
  | overflow pc pointer amount tapeSize => .overflow (f pc) pointer amount tapeSize
  | endOfInput pc pointer => .endOfInput (f pc) pointer
  | stepLimit pc pointer maxSteps => .stepLimit (f pc) pointer (maxSteps + more)
  | port e => .port e
  | operandTooLarge => .operandTooLarge

/-- The same state at the mapped address, with another number of steps. -/
def State.move (f : Nat → Nat) (steps : Nat) (s : State δ) : State δ :=
  ⟨{ s.registers with pc := f s.registers.pc, steps }, s.device⟩

/-- What a turn comes to if it is taken at the mapped address and after another number of steps. -/
def Turn.move (f : Nat → Nat) (more : Int) (steps : Nat) : Turn δ → Turn δ
  | .next s => .next (s.move f (steps + 1))
  | .halted => .halted
  | .failed fault s => .failed (fault.move f more) (s.move f steps)

namespace State

section Move

variable (f : Nat → Nat) (steps : Nat) (s : State δ)

@[simp] theorem pc_move : (s.move f steps).registers.pc = f s.registers.pc := rfl

@[simp] theorem pointer_move : (s.move f steps).registers.pointer = s.registers.pointer := rfl

@[simp] theorem tape_move : (s.move f steps).registers.tape = s.registers.tape := rfl

@[simp] theorem device_move : (s.move f steps).device = s.device := rfl

@[simp] theorem cell_move : (s.move f steps).cell = s.cell := rfl

@[simp] theorem store_move (value : UInt8) : (s.move f steps).store value = s.store value := rfl

end Move

variable [Device δ]

/-- **One instruction at the mapped address** does the same, if the next address is mapped to the
next one. -/
theorem perform_move (hnext : f (s.registers.pc + 1) = f s.registers.pc + 1) (eof : EndPolicy)
    (i : Instruction) (more : Int) (steps : Nat) :
    (s.move f steps).perform eof (i.retarget f) = (s.perform eof i).move f more steps := by
  obtain ⟨op, n⟩ := i
  cases hop : op.isJump with
  | false =>
    -- What does not jump keeps its operand and goes on at the next address.
    rw [Instruction.retarget, Instruction.mapTarget_run hop]
    cases op with
    | jumpIfZero | jumpIfNonzero => cases hop
    | moveRight =>
      simp only [perform_moveRight, pc_move, pointer_move, tape_move, device_move, ← hnext]
      split <;> rfl
    | moveLeft =>
      simp only [perform_moveLeft, pc_move, pointer_move, tape_move, device_move, ← hnext]
      split <;> rfl
    | increment | decrement =>
      simp only [perform_increment, perform_decrement, pc_move, pointer_move, cell_move,
        store_move, device_move, ← hnext]
      rfl
    | output =>
      simp only [perform_output, pc_move, pointer_move, tape_move, cell_move, device_move, ← hnext]
      cases writeCell s.cell n.toNat s.device with
      | ok _ device => rfl
      | error e device => rfl
    | input =>
      simp only [perform_input, pc_move, pointer_move, cell_move, store_move, device_move,
        ← hnext]
      cases readCell eof s.cell n.toNat s.device with
      | ok _ left => rfl
      | error failure left => cases failure <;> rfl
  | true =>
    -- A jump leads to its target, or to the next address; both are mapped.
    have hretarget : Instruction.retarget f ⟨op, n⟩ = ⟨op, (f n.toNat : Nat)⟩ := if_pos hop
    rw [hretarget]
    cases op with
    | jumpIfZero =>
      simp only [perform_jumpIfZero, pc_move, pointer_move, tape_move, cell_move, device_move,
        Int.toNat_natCast, ← hnext]
      split <;> rfl
    | jumpIfNonzero =>
      simp only [perform_jumpIfNonzero, pc_move, pointer_move, tape_move, cell_move, device_move,
        Int.toNat_natCast, ← hnext]
      split <;> rfl
    | _ => cases hop

end State

/-! ## §2 A program behind another -/

/-- From an address on, there stands a program with its jump targets moved to where it stands. -/
def Program.StandsAt (distance : Nat) (q r : Program) : Prop :=
  ∀ a, r[a + distance]? = q[a]?.map (Instruction.retarget (· + distance))

/-- A program with non-negative operands that is moved behind another one stands there. -/
theorem Program.standsAt_append (hq : q.Admissible) (p : Program) :
    q.StandsAt p.size (p ++ q.shift p.size) := by
  intro a
  rw [Array.getElem?_append_right (Nat.le_add_left _ _), Nat.add_sub_cancel, Program.shift,
    Array.getElem?_map]
  cases ha : q[a]? with
  | none => rfl
  | some i =>
    have hnonneg := (hq i (Array.mem_of_getElem? ha)).1
    have hoperand : ((i.operand.toNat + p.size : Nat) : Int) = i.operand + p.size := by omega
    simp only [Option.map_some, Instruction.mapTarget, hoperand]

/-- The settings that allow for one step more. -/
abbrev Settings.oneMore (settings : Settings) : Settings :=
  { settings with maxSteps := settings.maxSteps.map (· + 1) }

/-- The same state one step later, in a program that stands at another address. -/
def State.displace (distance : Nat) (s : State δ) : State δ :=
  s.move (· + distance) (s.registers.steps + 1)

/-- The same fault one step later, in a program that stands at another address. -/
def Fault.displace (distance : Nat) (fault : Fault) : Fault := fault.move (· + distance) 1

/-- What a turn comes to one step later, in a program that stands at another address. -/
def Turn.displace (distance : Nat) : Turn δ → Turn δ
  | .next s => .next (s.displace distance)
  | .halted => .halted
  | .failed fault s => .failed (fault.displace distance) (s.displace distance)

namespace State

variable [Device δ]

/-- **A turn of a program that stands at another address** is the same turn there. -/
theorem turn_displace (hq : q.StandsAt distance r) :
    (s.displace distance).turn settings.oneMore r = (s.turn settings q).displace distance := by
  have hfetch := hq s.registers.pc
  -- Both runs find the same thing: the limit is reached after one step more, but it allows for it.
  rcases turn_cases settings q s with hend | hlimit | ⟨i, hi⟩
  · rw [turn_of_end hend, turn_of_end]
    · rfl
    · show r[s.registers.pc + distance]? = none
      rw [hfetch, hend]
      rfl
  · have hlimit' : (s.displace distance).AtLimit settings.oneMore r := by
      obtain ⟨⟨i, hi⟩, hmax⟩ := hlimit
      refine ⟨⟨i.retarget (· + distance), ?_⟩, ?_⟩
      · show r[s.registers.pc + distance]? = _
        rw [hfetch, hi]
        rfl
      · show settings.maxSteps.map (· + 1) = _
        rw [hmax]
        rfl
    rw [hlimit.turn_eq, hlimit'.turn_eq]
    rfl
  · have hi' : (s.displace distance).Fetches settings.oneMore r (i.retarget (· + distance)) := by
      obtain ⟨hi, hmax⟩ := hi
      constructor
      · show r[s.registers.pc + distance]? = _
        rw [hfetch, hi]
        rfl
      · show settings.maxSteps.map (· + 1) ≠ _
        intro hmax'
        obtain ⟨limit, hlimit, heq⟩ := Option.map_eq_some_iff.mp hmax'
        have hsteps : limit + 1 = ((s.registers.steps + 1 : Nat) : Int) := heq
        apply hmax
        rw [hlimit, Option.some.injEq]
        omega
    have hperform := perform_move (f := (· + distance)) (Nat.add_right_comm _ _ _) settings.eof i 1
      (s := s) (s.registers.steps + 1)
    rw [hi'.turn_eq, hi.turn_eq]
    refine hperform.trans ?_
    -- What is left tells how many steps have been done, so these need not be given.
    have houtcome := perform_outcome settings.eof i s
    generalize s.perform settings.eof i = turn at houtcome
    cases houtcome <;> rfl

/-- **The run of a program that stands at another address** is its run by itself, one step later. -/
theorem runToEnd_displace (hq : q.StandsAt distance r) (fuel : Nat) :
    (s.displace distance).runToEnd settings.oneMore r fuel =
      (s.runToEnd settings q fuel).map fun ended =>
        (ended.1.map (Fault.displace distance), ended.2.displace distance) := by
  induction fuel generalizing s with
  | zero => rfl
  | succ fuel ih =>
    rw [runToEnd, runToEnd, turn_displace hq]
    cases s.turn settings q with
    | next t => exact ih
    | halted => rfl
    | failed fault t => rfl

/-! ## §3 A loop in front -/

/-- On a blank tape the first instruction of a loop leads past the loop. -/
theorem turn_start_of_loop {device : δ} (hfirst : r[0]? = some ⟨.jumpIfZero, distance⟩)
    (hmax : settings.maxSteps ≠ some 0) (size : Nat) :
    State.turn settings r ⟨.start size, device⟩ =
      .next (State.displace distance ⟨.start size, device⟩) := by
  have hblank : State.cell ⟨.start size, device⟩ = 0 := by
    simp only [cell, Registers.start, Tape.cell, Tape.blank, Array.getD_eq_getD_getElem?,
      Array.getElem?_replicate]
    split <;> rfl
  have hi : State.Fetches settings r ⟨.start size, device⟩ ⟨.jumpIfZero, distance⟩ :=
    ⟨hfirst, hmax⟩
  rw [hi.turn_eq, perform_jumpIfZero, if_pos hblank]
  have htarget : (distance : Int).toNat = 0 + distance := by omega
  rw [htarget]
  rfl

/-- **The run of a program with a loop in front** is its run by itself, one step later. -/
theorem runToEnd_start_of_loop (hq : q.StandsAt distance r)
    (hfirst : r[0]? = some ⟨.jumpIfZero, distance⟩) (hmax : settings.oneMore.maxSteps ≠ some 0)
    (size : Nat) (device : δ) (fuel : Nat) :
    State.runToEnd settings.oneMore r (fuel + 1) ⟨.start size, device⟩ =
      (State.runToEnd settings q fuel ⟨.start size, device⟩).map fun ended =>
        (ended.1.map (Fault.displace distance), ended.2.displace distance) := by
  rw [runToEnd, turn_start_of_loop hfirst hmax]
  exact runToEnd_displace hq fuel

end State

namespace Machine

variable [Device δ]

/-- With one step more allowed, a program with a loop in front ends as it does by itself. -/
theorem ends_displace_iff (hq : q.Admissible) (hr : r.Admissible) (hstands : q.StandsAt distance r)
    (hfirst : r[0]? = some ⟨.jumpIfZero, distance⟩) (m : Machine δ)
    (hmax : m.settings.oneMore.maxSteps ≠ some 0) {fault? : Option Fault} :
    (m.setMaxSteps m.settings.oneMore.maxSteps).Ends r fault? t ↔
      ∃ fault?' t', m.Ends q fault?' t' ∧ fault? = fault?'.map (Fault.displace distance) ∧
        t = t'.displace distance := by
  have hrun := State.runToEnd_start_of_loop hstands hfirst hmax m.settings.tapeSize m.state.device
  constructor
  · intro hends
    obtain ⟨fuel, hend⟩ := (execute_iff_runToEnd hr _ fault? t).mp hends
    cases fuel with
    | zero => cases hend
    | succ fuel =>
      obtain ⟨⟨fault?', t'⟩, hend', heq⟩ := Option.map_eq_some_iff.mp ((hrun fuel).symm.trans hend)
      cases heq
      exact ⟨fault?', t', (execute_iff_runToEnd hq m fault?' t').mpr ⟨fuel, hend'⟩, rfl, rfl⟩
  · rintro ⟨fault?', t', hends, rfl, rfl⟩
    obtain ⟨fuel, hend⟩ := (execute_iff_runToEnd hq m fault?' t').mp hends
    refine (execute_iff_runToEnd hr _ _ _).mpr ⟨fuel + 1, (hrun fuel).trans ?_⟩
    rw [hend]
    rfl

variable {body text : List Char} {code : Program}

/-- What a text in brackets is compiled to with another one behind it: a loop in front, which is
entered by a jump past its end, and there the program of the second text. -/
theorem compile_loop_append (hbody : compile body = .ok code) (hq : compile text = .ok q)
    (hadmissible : q.Admissible) :
    ∃ r, compile ('[' :: (body ++ ']' :: text)) = .ok r ∧ q.StandsAt (code.size + 2) r ∧
      r[0]? = some ⟨.jumpIfZero, (code.size + 2 : Nat)⟩ := by
  have happend := compile_append_apart (compile_loop hbody) hq fun op =>
    not_goesOn_concat (s := '[' :: body) fun op => bracket_ne_symbol (.inr rfl)
  have hsource : '[' :: (body ++ [']']) ++ text = '[' :: (body ++ ']' :: text) := by simp
  rw [hsource] at happend
  generalize hfront : (#[⟨.jumpIfZero, code.size + 2⟩] ++ code.shift 1 ++ #[⟨.jumpIfNonzero, 1⟩] :
    Program) = front at happend
  have hsize : front.size = code.size + 2 := by
    rw [← hfront]
    simp only [Array.size_append, Program.shift, Array.size_map, List.size_toArray,
      List.length_singleton]
    omega
  refine ⟨_, happend, ?_, ?_⟩
  · rw [← hsize]
    exact Program.standsAt_append hadmissible front
  · rw [Array.getElem?_append_left (by omega), ← hfront]
    simp

/-- **A loop at the beginning is dead, and what is behind it runs where it stands.** For every text
in brackets with another text behind it, on every machine and for every limit, or none: with one
step more allowed, the whole ends exactly if the second text by itself ends; it ends with the same
fault, or with none, and in the same state, but for one more step and for addresses that are greater
by the length of the loop. So without a limit the one does not end if and only if the other does
not. -/
theorem leading_loop_is_dead (hbody : compile body = .ok code) (hq : compile text = .ok q)
    (hlength : ('[' :: (body ++ ']' :: text)).length < int64Bound) :
    ∃ r, compile ('[' :: (body ++ ']' :: text)) = .ok r ∧
      ∀ (m : Machine δ) (limit? : Option Nat) (fault? : Option Fault) (t : State δ),
        (m.setMaxSteps (limit?.map fun limit : Nat => (limit : Int) + 1)).Ends r fault? t ↔
          ∃ fault?' t',
            (m.setMaxSteps (limit?.map fun limit : Nat => (limit : Int))).Ends q fault?' t' ∧
            fault? = fault?'.map (Fault.displace (code.size + 2)) ∧
            t = t'.displace (code.size + 2) := by
  have hadmissible : q.Admissible := by
    apply admissible_of_compile hq
    simp only [List.length_cons, List.length_append] at hlength
    omega
  obtain ⟨r, hr, hstands, hfirst⟩ := compile_loop_append hbody hq hadmissible
  refine ⟨r, hr, ?_⟩
  intro m limit? fault? t
  have hmore : Option.map (· + 1) (limit?.map fun limit : Nat => (limit : Int)) =
      limit?.map fun limit : Nat => (limit : Int) + 1 := Option.map_map _ _ _
  have hmax : (limit?.map fun limit : Nat => (limit : Int) + 1) ≠ some 0 := by
    intro hzero
    obtain ⟨limit, -, hlimit⟩ := Option.map_eq_some_iff.mp hzero
    omega
  rw [← hmore] at hmax ⊢
  exact ends_displace_iff hadmissible (admissible_of_compile hr hlength) hstands hfirst
    (m.setMaxSteps (limit?.map fun limit : Nat => (limit : Int))) hmax

/-- A loop around a run in front of a move that leaves the tape: the whole fails one step later and
three addresses further. -/
theorem leading_loop_is_dead_underflow :
    compile ['-'] = .ok #[⟨.decrement, 1⟩] ∧
    compile ['+', '<'] = .ok #[⟨.increment, 1⟩, ⟨.moveLeft, 1⟩] ∧
    ∃ r, compile ['[', '-', ']', '+', '<'] = .ok r ∧
      ((Machine.new { tapeSize := 1 } (Ports.inMemory [])).setMaxSteps (some 3)).Ends r
        (some (.underflow 4 0 1)) ⟨⟨4, 0, 2, #[1]⟩, .inMemory []⟩ := by
  have hbody : compile ['-'] = .ok #[⟨.decrement, 1⟩] := by rfl
  have hq : compile ['+', '<'] = .ok #[⟨.increment, 1⟩, ⟨.moveLeft, 1⟩] := by rfl
  have hends : ((Machine.new { tapeSize := 1 } (Ports.inMemory [])).setMaxSteps (some 2)).Ends
      #[⟨.increment, 1⟩, ⟨.moveLeft, 1⟩] (some (.underflow 1 0 1))
      ⟨⟨1, 0, 1, #[1]⟩, .inMemory []⟩ := (ends_iff (by decide)).mpr ⟨1, _, rfl, rfl⟩
  obtain ⟨r, hr, hruns⟩ := leading_loop_is_dead (δ := Ports) hbody hq (by decide)
  exact ⟨hbody, hq, r, hr, (hruns _ (some 2) _ _).mpr ⟨_, _, hends, rfl, rfl⟩⟩

end Machine

end FoldTape
