import FoldTape.Proofs.Machine.Cells
import FoldTape.Proofs.Machine.Relocation

/-!
# Two turns in one

An instruction with an amount can be taken apart into two with parts of it. One after the other,
these do what it does at once, in one step more; and if one of them fails, then so does the whole.

## Architecture

- **§1 Devices**: writing and reading in two parts.
- **§2 Ends**: `NoLater`, the same end after no more steps.
- **§3 Instructions**: `State.perform_twice`.
-/

namespace FoldTape

variable {δ : Type}

/-! ## §1 Devices -/

section Transfer

variable [Device δ]

/-- Writing a cell in two parts. -/
theorem writeCell_add (cell : UInt8) (m n : Nat) (d : δ) :
    writeCell cell (m + n) d =
      match writeCell cell m d with
      | .ok _ d => writeCell cell n d
      | .error e d => .error e d := by
  induction m generalizing d with
  | zero => rw [Nat.zero_add, writeCell]
  | succ m ih =>
    rw [Nat.succ_add, writeCell, writeCell]
    cases Device.write (cell.toNat : Int) d with
    | ok _ d => exact ih d
    | error e d => rfl

/-- Reading into a cell in two parts. -/
theorem readCell_add (eof : EndPolicy) (cell : UInt8) (m n : Nat) (d : δ) :
    readCell eof cell (m + n) d =
      match readCell eof cell m d with
      | .ok _ (cell, d) => readCell eof cell n d
      | .error e left => .error e left := by
  induction m generalizing cell d with
  | zero => rw [Nat.zero_add, readCell]
  | succ m ih =>
    rw [Nat.succ_add, readCell, readCell]
    cases Device.read d with
    | error e d => rfl
    | ok byte? d =>
      cases byte? with
      | some byte => exact ih byte d
      | none =>
        cases eof with
        | error => rfl
        | zero => exact ih 0 d

/-- What has been in a cell before a read only matters if nothing is read at all. -/
theorem readCell_start (eof : EndPolicy) (n : Nat) (d : δ) :
    ∃ (last : UInt8 → UInt8) (d' : δ), (∀ cell, readCell eof cell n d = .ok () (last cell, d')) ∨
      ∃ failure, ∀ cell, readCell eof cell n d = .error failure (last cell, d') := by
  -- After the first read the cell is what has been read, whatever it was.
  have hafter : ∀ byte m (d : δ), ∃ (last : UInt8 → UInt8) (d' : δ),
      (∀ cell : UInt8, readCell eof byte m d = .ok () (last cell, d')) ∨
        ∃ failure, ∀ cell, readCell eof byte m d = .error failure (last cell, d') := by
    intro byte m d
    cases readCell eof byte m d with
    | ok _ left => exact ⟨fun _ => left.1, left.2, .inl fun _ => rfl⟩
    | error failure left => exact ⟨fun _ => left.1, left.2, .inr ⟨failure, fun _ => rfl⟩⟩
  cases n with
  | zero => exact ⟨id, d, .inl fun _ => rfl⟩
  | succ n =>
    simp only [readCell]
    cases Device.read d with
    | error e d => exact ⟨id, d, .inr ⟨_, fun _ => rfl⟩⟩
    | ok byte? d =>
      cases byte? with
      | some byte => exact hafter byte n d
      | none =>
        cases eof with
        | error => exact ⟨id, d, .inr ⟨_, fun _ => rfl⟩⟩
        | zero => exact hafter 0 n d

end Transfer

/-! ## §2 Ends -/

/-- What a fault is about. -/
inductive FaultKind where
  | underflow
  | overflow
  | endOfInput
  | stepLimit
  | port (e : PortError)
  | operandTooLarge
  deriving DecidableEq, Repr

/-- What a fault is about, apart from numbers. -/
def Fault.kind : Fault → FaultKind
  | underflow .. => .underflow
  | overflow .. => .overflow
  | endOfInput .. => .endOfInput
  | stepLimit .. => .stepLimit
  | port e => .port e
  | operandTooLarge => .operandTooLarge

@[simp] theorem Fault.kind_move (fault : Fault) (f : Nat → Nat) (more : Int) :
    (fault.move f more).kind = fault.kind := by
  cases fault <;> rfl

/-- Whether a fault is a move that would leave the tape can be told from its kind. -/
theorem Fault.isTapeFault_eq_of_kind {fault fault' : Fault} (h : fault'.kind = fault.kind) :
    fault'.isTapeFault = fault.isTapeFault := by
  cases fault <;> cases fault' <;> first | rfl | cases h

/-- The address does not tell what a read failure is about. -/
theorem ReadFailure.kind_fault (failure : ReadFailure) (pc pc' pointer pointer' : Nat) :
    (failure.fault pc pointer).kind = (failure.fault pc' pointer').kind := by
  cases failure <;> rfl

/-- The second end is as the first one, and comes after no more steps: the same kind of fault, or
none, the same tape, and the same device. The pointers are equal as well, unless a move has
failed. -/
structure NoLater (fault? : Option Fault) (t : State δ) (fault?' : Option Fault) (t' : State δ) :
    Prop where
  kind : fault?'.map Fault.kind = fault?.map Fault.kind
  tape : t'.registers.tape = t.registers.tape
  device : t'.device = t.device
  pointer : (∀ fault, fault? = some fault → fault.isTapeFault = false) →
    t'.registers.pointer = t.registers.pointer
  steps : t'.registers.steps ≤ t.registers.steps

variable {fault? fault?' : Option Fault} {t t' u : State δ} {f : Nat → Nat} {n : Nat}

namespace NoLater

theorem refl (fault? : Option Fault) (t : State δ) : NoLater fault? t fault? t :=
  ⟨rfl, rfl, rfl, fun _ => rfl, Nat.le_refl _⟩

theorem trans {fault?'' : Option Fault} (h : NoLater fault? t fault?' t')
    (h' : NoLater fault?' t' fault?'' u) : NoLater fault? t fault?'' u where
  kind := h'.kind.trans h.kind
  tape := h'.tape.trans h.tape
  device := h'.device.trans h.device
  pointer := by
    intro hother
    refine (h'.pointer ?_).trans (h.pointer hother)
    rintro fault' rfl
    obtain ⟨fault, rfl, hkind⟩ := Option.map_eq_some_iff.mp h.kind.symm
    rw [Fault.isTapeFault_eq_of_kind hkind.symm]
    exact hother fault rfl
  steps := Nat.le_trans h'.steps h.steps

/-- Where a move has failed, the pointers do not matter. -/
theorem of_isTapeFault {fault fault' : Fault} (hfault : fault.isTapeFault = true)
    (hkind : fault'.kind = fault.kind) (htape : t'.registers.tape = t.registers.tape)
    (hdevice : t'.device = t.device) (hsteps : t'.registers.steps ≤ t.registers.steps) :
    NoLater (some fault) t (some fault') t' where
  kind := congrArg some hkind
  tape := htape
  device := hdevice
  pointer := by
    intro hother
    rw [hother fault rfl] at hfault
    cases hfault
  steps := hsteps

/-- The addresses and the number of steps do not matter, as long as these are no more. -/
theorem move (h : NoLater fault? t fault?' t') (more : Int) (hn : n ≤ t.registers.steps) :
    NoLater fault? t (fault?'.map (Fault.move f more)) (t'.move f n) where
  kind := by
    rw [Option.map_map, ← h.kind]
    exact congrArg (Option.map · fault?') (funext fun fault => fault.kind_move f more)
  tape := h.tape
  device := h.device
  pointer := h.pointer
  steps := hn

end NoLater

/-! ## §3 Instructions -/

/-- What an instruction and then another one come to, by what the first of them comes to, and what
the two come to at once. -/
inductive State.Twice [Device δ] (eof : EndPolicy) (i : Instruction) (s : State δ) :
    Turn δ → Turn δ → Prop where
  /-- Both are completed. -/
  | next {pointer pointer' : Nat} {tape tape' : Tape} {device device' : δ} :
      (s.advance (s.registers.pc + 1) pointer tape device).perform eof i =
        .next ((s.advance (s.registers.pc + 1) pointer tape device).advance (s.registers.pc + 2)
          pointer' tape' device') →
      Twice eof i s (.next (s.advance (s.registers.pc + 1) pointer tape device))
        (.next (s.advance (s.registers.pc + 1) pointer' tape' device'))
  /-- The first one is completed, and the second one fails. -/
  | failsLater {pointer : Nat} {tape : Tape} {device : δ} {fault fault' : Fault} {t t' : State δ} :
      (s.advance (s.registers.pc + 1) pointer tape device).perform eof i = .failed fault t →
      NoLater (some fault) t (some fault') t' →
      Twice eof i s (.next (s.advance (s.registers.pc + 1) pointer tape device)) (.failed fault' t')
  /-- The first one fails. -/
  | failsFirst {fault fault' : Fault} {t t' : State δ} :
      NoLater (some fault) t (some fault') t' → Twice eof i s (.failed fault t) (.failed fault' t')

theorem State.device_advance (s : State δ) (pc pointer : Nat) (tape : Tape) (device : δ) :
    (s.advance pc pointer tape device).device = device := rfl

/-- Where nothing is moved or changed, the cell is the same. -/
theorem State.cell_advance (s : State δ) (pc : Nat) (device : δ) :
    (s.advance pc s.registers.pointer s.registers.tape device).cell = s.cell := rfl

/-- A cell that is changed after another change might have been changed at once. -/
theorem State.store_advance (s : State δ) (pc : Nat) (device : δ) (g : UInt8 → UInt8) (x : UInt8) :
    (s.advance pc s.registers.pointer (s.store x) device).store
        (g (s.advance pc s.registers.pointer (s.store x) device).cell) = s.store (g x) :=
  Tape.store_change _ _ g x

variable [Device δ]

/-- **A run in two parts**: one instruction after the other does what the two do at once. -/
theorem State.perform_twice {op : Operator} {j k : Int} (hop : op.isJump = false) (hj : 0 ≤ j)
    (hk : 0 ≤ k) (eof : EndPolicy) (s : State δ) :
    s.Twice eof ⟨op, k⟩ (s.perform eof ⟨op, j⟩) (s.perform eof ⟨op, j + k⟩) := by
  have hsum : (j + k).toNat = j.toNat + k.toNat := Int.toNat_add hj hk
  cases op with
  | jumpIfZero | jumpIfNonzero => cases hop
  | moveRight =>
    -- The sum of two moves stays on the tape exactly if both of them do.
    rw [perform_moveRight, perform_moveRight, hsum, ← Nat.add_assoc]
    by_cases hfirst : s.registers.pointer + j.toNat < s.registers.tape.size
    · rw [if_pos hfirst]
      by_cases hsecond : s.registers.pointer + j.toNat + k.toNat < s.registers.tape.size
      · rw [if_pos hsecond]
        exact .next (if_pos hsecond)
      · rw [if_neg hsecond]
        exact .failsLater (if_neg hsecond) (.of_isTapeFault rfl rfl rfl rfl (Nat.le_succ _))
    · rw [if_neg hfirst, if_neg (by omega)]
      exact .failsFirst (.of_isTapeFault rfl rfl rfl rfl (Nat.le_refl _))
  | moveLeft =>
    rw [perform_moveLeft, perform_moveLeft, hsum]
    by_cases hfirst : j.toNat ≤ s.registers.pointer
    · rw [if_pos hfirst]
      by_cases hsecond : k.toNat ≤ s.registers.pointer - j.toNat
      · rw [if_pos (by omega), ← Nat.sub_sub]
        exact .next (if_pos hsecond)
      · rw [if_neg (by omega)]
        exact .failsLater (if_neg hsecond) (.of_isTapeFault rfl rfl rfl rfl (Nat.le_succ _))
    · rw [if_neg hfirst, if_neg (by omega)]
      exact .failsFirst (.of_isTapeFault rfl rfl rfl rfl (Nat.le_refl _))
  | increment =>
    -- The second change finds what the first one has left.
    rw [perform_increment, perform_increment, hsum, ← addToCell_add,
      ← s.store_advance (s.registers.pc + 1) s.device (addToCell · k.toNat)]
    exact .next rfl
  | decrement =>
    rw [perform_decrement, perform_decrement, hsum, ← subtractFromCell_add,
      ← s.store_advance (s.registers.pc + 1) s.device (subtractFromCell · k.toNat)]
    exact .next rfl
  | output =>
    rw [perform_output, perform_output, hsum, writeCell_add]
    cases hfirst : writeCell s.cell j.toNat s.device with
    | error e d => exact .failsFirst (.refl _ _)
    | ok _ d =>
      simp only
      -- The cell is the same in between.
      have hsecond : (s.advance (s.registers.pc + 1) s.registers.pointer s.registers.tape d).perform
          eof ⟨.output, k⟩ = _ := perform_output eof k _
      rw [cell_advance, device_advance] at hsecond
      cases hrest : writeCell s.cell k.toNat d with
      | ok _ d' =>
        rw [hrest] at hsecond
        exact .next hsecond
      | error e d' =>
        rw [hrest] at hsecond
        exact .failsLater hsecond ⟨rfl, rfl, rfl, fun _ => rfl, Nat.le_succ _⟩
  | input =>
    rw [perform_input, perform_input, hsum, readCell_add]
    cases hfirst : readCell eof s.cell j.toNat s.device with
    | error e left => exact .failsFirst (.refl _ _)
    | ok _ left =>
      obtain ⟨byte, d⟩ := left
      simp only
      have hsecond : (s.advance (s.registers.pc + 1) s.registers.pointer (s.store byte) d).perform
          eof ⟨.input, k⟩ = _ := perform_input eof k _
      rw [device_advance] at hsecond
      -- What is read goes into a cell that holds `byte`, or nowhere.
      obtain ⟨last, d', hlast | ⟨failure, hlast⟩⟩ := readCell_start eof k.toNat d
      · rw [hlast] at hsecond ⊢
        simp only
        rw [← s.store_advance (s.registers.pc + 1) d last byte]
        exact .next hsecond
      · rw [hlast] at hsecond ⊢
        refine .failsLater hsecond ⟨congrArg some (failure.kind_fault _ _ _ _), ?_, rfl,
          fun _ => rfl, Nat.le_succ _⟩
        exact (s.store_advance (s.registers.pc + 1) d last byte).symm

end FoldTape
