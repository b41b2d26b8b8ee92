import FoldTape.Proofs.Blocks
import FoldTape.Proofs.Machine.Cells
import FoldTape.Walk

/-!
# Walking over a stretch of one operator

What the walker does in `k` turns over `k` copies of one operator, told at once. Where a walk leads
is expressed by what is left of it (`Walker.Leads`), so that stretches can be put together.

## Architecture

- **§1 Walks and their ends**: `Leads`, and the end of a walk.
- **§2 Single characters**: what each operator does to the walker.
- **§3 Moves**: a stretch of moves stays on the tape or fails at its border.
- **§4 Changes of the cell**: increments and decrements.
- **§5 Output and input**: as `writeCell` and `readCell` do at once.
-/

namespace FoldTape

/-- What a walker says about a read failure. -/
def ReadFailure.walkFault : ReadFailure → WalkFault
  | endOfInput => .endOfInput
  | port e => .port e

namespace Walker

variable {δ : Type} [Device δ] {eof : EndPolicy} {text : List Char} {w w' w'' : Walker δ}

/-! ## §1 Walks and their ends -/

/-- In `n` turns the walker comes to where `w'` is: the rest of the walk is that of `w'`. -/
def Leads (eof : EndPolicy) (text : List Char) (n : Nat) (w w' : Walker δ) : Prop :=
  ∀ fuel, w.walkToEnd eof text (n + fuel) = w'.walkToEnd eof text fuel

/-- The walk comes to an end with a fault or without, and leaves a walker. -/
def EndsWith (eof : EndPolicy) (text : List Char) (w : Walker δ) (fault? : Option WalkFault)
    (w' : Walker δ) : Prop :=
  ∃ fuel, w.walkToEnd eof text fuel = some (fault?, w')

theorem Leads.refl (w : Walker δ) : Leads eof text 0 w w := by
  intro fuel
  rw [Nat.zero_add]

theorem Leads.trans {m n : Nat} (h : Leads eof text m w w') (h' : Leads eof text n w' w'') :
    Leads eof text (m + n) w w'' := by
  intro fuel
  rw [Nat.add_assoc, h, h']

theorem Leads.of_turn (h : w.turn eof text = .next w') : Leads eof text 1 w w' := by
  intro fuel
  rw [Nat.add_comm, walkToEnd, h]

theorem Leads.cons {n : Nat} (h : w.turn eof text = .next w') (h' : Leads eof text n w' w'') :
    Leads eof text (n + 1) w w'' := by
  rw [Nat.add_comm]
  exact (Leads.of_turn h).trans h'

theorem EndsWith.of_leads {n : Nat} {fault? : Option WalkFault} (h : Leads eof text n w w')
    (hend : EndsWith eof text w' fault? w'') : EndsWith eof text w fault? w'' := by
  obtain ⟨fuel, hfuel⟩ := hend
  exact ⟨n + fuel, (h fuel).trans hfuel⟩

theorem EndsWith.of_halted (h : w.turn eof text = .halted) : EndsWith eof text w none w := by
  refine ⟨1, ?_⟩
  rw [walkToEnd, h]

theorem EndsWith.of_failed {fault : WalkFault} (h : w.turn eof text = .failed fault w') :
    EndsWith eof text w (some fault) w' := by
  refine ⟨1, ?_⟩
  rw [walkToEnd, h]

/-- The end of a walk is final. -/
theorem walkToEnd_mono {fuel more : Nat} {ended : Option WalkFault × Walker δ} (hle : fuel ≤ more)
    (h : w.walkToEnd eof text fuel = some ended) : w.walkToEnd eof text more = some ended := by
  induction fuel generalizing more w with
  | zero => cases h
  | succ fuel ih =>
    obtain ⟨more, rfl⟩ : ∃ k, more = k + 1 := ⟨more - 1, by omega⟩
    simp only [walkToEnd] at h ⊢
    split at h
    · exact ih (by omega) h
    · exact h
    · exact h

/-- A walk that leads on has more turns than it takes to get there. -/
theorem Leads.lt_of_end {n fuel : Nat} {ended : Option WalkFault × Walker δ}
    (h : Leads eof text n w w') (hend : w.walkToEnd eof text fuel = some ended) : n < fuel := by
  rcases Nat.lt_or_ge n fuel with hlt | hge
  · exact hlt
  · -- With `n` turns the walk would have ended before it gets there.
    have hn : w.walkToEnd eof text (n + 0) = some ended := walkToEnd_mono hge hend
    rw [h 0] at hn
    cases hn

/-- **A walk has one end.** -/
theorem EndsWith.unique {fault? : Option WalkFault} {ended : Option WalkFault × Walker δ}
    {fuel : Nat} (h : EndsWith eof text w fault? w')
    (hend : w.walkToEnd eof text fuel = some ended) : ended = (fault?, w') := by
  obtain ⟨fuel', h⟩ := h
  have hmore := walkToEnd_mono (Nat.le_max_left fuel fuel') hend
  have hmore' := walkToEnd_mono (Nat.le_max_right fuel fuel') h
  rw [hmore] at hmore'
  exact Option.some.inj hmore'

/-! ## §2 Single characters -/

/-- The walker after `k` characters, with a pointer, a tape and a device of its own. -/
def passed (w : Walker δ) (k pointer : Nat) (tape : Tape) (device : δ) : Walker δ :=
  ⟨w.position + k, pointer, tape, device⟩

omit [Device δ] in
theorem passed_passed (w : Walker δ) (m n pointer pointer' : Nat) (tape tape' : Tape)
    (device device' : δ) :
    (w.passed m pointer tape device).passed n pointer' tape' device' =
      w.passed (m + n) pointer' tape' device' := by
  simp only [passed, Nat.add_assoc]

omit [Device δ] in
theorem passed_zero (w : Walker δ) : w.passed 0 w.pointer w.tape w.device = w := rfl

/-- At an operator the walker acts on it. -/
theorem turn_of_symbol {op : Operator} (h : text[w.position]? = some op.symbol) :
    w.turn eof text = w.act eof text op := by
  simp only [turn, h, Operator.ofSymbol?_symbol]

/-- The value of the current cell. -/
def cell (w : Walker δ) : UInt8 := w.tape.cell w.pointer

/-- The tape with a new value in the current cell. -/
def store (w : Walker δ) (value : UInt8) : Tape := w.tape.store w.pointer value

theorem act_moveRight (w : Walker δ) :
    w.act eof text .moveRight =
      if w.pointer + 1 < w.tape.size then .next (w.passed 1 (w.pointer + 1) w.tape w.device)
      else .failed .overflow w :=
  rfl

theorem act_moveLeft (w : Walker δ) :
    w.act eof text .moveLeft =
      if w.pointer = 0 then .failed .underflow w
      else .next (w.passed 1 (w.pointer - 1) w.tape w.device) :=
  rfl

theorem act_increment (w : Walker δ) :
    w.act eof text .increment = .next (w.passed 1 w.pointer (w.store (w.cell + 1)) w.device) :=
  rfl

theorem act_decrement (w : Walker δ) :
    w.act eof text .decrement = .next (w.passed 1 w.pointer (w.store (w.cell - 1)) w.device) :=
  rfl

theorem act_output (w : Walker δ) :
    w.act eof text .output =
      match Device.write (w.cell.toNat : Int) w.device with
      | .ok _ device => .next (w.passed 1 w.pointer w.tape device)
      | .error e device => .failed (.port e) (w.passed 0 w.pointer w.tape device) :=
  rfl

theorem act_input (w : Walker δ) :
    w.act eof text .input =
      match Device.read w.device with
      | .ok (some byte) device => .next (w.passed 1 w.pointer (w.store byte) device)
      | .ok none device =>
        match eof with
        | .zero => .next (w.passed 1 w.pointer (w.store 0) device)
        | .error => .failed .endOfInput (w.passed 0 w.pointer w.tape device)
      | .error e device => .failed (.port e) (w.passed 0 w.pointer w.tape device) :=
  rfl

theorem act_jumpIfZero (w : Walker δ) :
    w.act eof text .jumpIfZero =
      if w.cell = 0 then
        .next { w with position := (closingPartner? text w.position).getD text.length + 1 }
      else .next (w.passed 1 w.pointer w.tape w.device) :=
  rfl

theorem act_jumpIfNonzero (w : Walker δ) :
    w.act eof text .jumpIfNonzero =
      if w.cell = 0 then .next (w.passed 1 w.pointer w.tape w.device)
      else .next { w with position := (openingPartner? text w.position).getD text.length + 1 } :=
  rfl

/-! ## §3 Moves -/

/-- A stretch of moves to the right that stays on the tape. -/
theorem leads_moveRight {k : Nat} (h : Stretch text .moveRight w.position k)
    (hroom : w.pointer + k < w.tape.size) :
    Leads eof text k w (w.passed k (w.pointer + k) w.tape w.device) := by
  induction k generalizing w with
  | zero => exact Leads.refl w
  | succ k ih =>
    have hturn : w.turn eof text = .next (w.passed 1 (w.pointer + 1) w.tape w.device) := by
      rw [turn_of_symbol h.head, act_moveRight, if_pos (by omega)]
    have hrest := Leads.cons hturn (ih h.tail (by simp only [passed]; omega))
    rw [passed_passed] at hrest
    simpa only [passed, Nat.add_comm 1, Nat.add_assoc] using hrest

/-- A stretch of moves to the right that leaves the tape. -/
theorem ends_moveRight {k : Nat} (h : Stretch text .moveRight w.position (k + 1))
    (hroom : ¬ w.pointer + (k + 1) < w.tape.size) :
    ∃ j pointer, EndsWith eof text w (some .overflow) (w.passed j pointer w.tape w.device) := by
  induction k generalizing w with
  | zero =>
    refine ⟨0, w.pointer, EndsWith.of_failed ?_⟩
    rw [turn_of_symbol h.head, act_moveRight, if_neg hroom, passed_zero]
  | succ k ih =>
    by_cases hone : w.pointer + 1 < w.tape.size
    · -- The first move succeeds; a later one fails.
      have hturn : w.turn eof text = .next (w.passed 1 (w.pointer + 1) w.tape w.device) := by
        rw [turn_of_symbol h.head, act_moveRight, if_pos hone]
      have htail : ¬ w.pointer + 1 + (k + 1) < w.tape.size := by omega
      obtain ⟨j, pointer, hend⟩ := ih (w := w.passed 1 _ _ _) h.tail htail
      rw [passed_passed] at hend
      exact ⟨_, _, EndsWith.of_leads (Leads.of_turn hturn) hend⟩
    · refine ⟨0, w.pointer, EndsWith.of_failed ?_⟩
      rw [turn_of_symbol h.head, act_moveRight, if_neg hone, passed_zero]

/-- A stretch of moves to the left that stays on the tape. -/
theorem leads_moveLeft {k : Nat} (h : Stretch text .moveLeft w.position k)
    (hroom : k ≤ w.pointer) :
    Leads eof text k w (w.passed k (w.pointer - k) w.tape w.device) := by
  induction k generalizing w with
  | zero => exact Leads.refl w
  | succ k ih =>
    have hturn : w.turn eof text = .next (w.passed 1 (w.pointer - 1) w.tape w.device) := by
      rw [turn_of_symbol h.head, act_moveLeft, if_neg (by omega)]
    have hrest := Leads.cons hturn (ih h.tail (by simp only [passed]; omega))
    rw [passed_passed] at hrest
    simpa only [passed, Nat.add_comm 1, Nat.sub_sub] using hrest

/-- A stretch of moves to the left that leaves the tape. -/
theorem ends_moveLeft {k : Nat} (h : Stretch text .moveLeft w.position k)
    (hroom : ¬ k ≤ w.pointer) :
    ∃ j pointer, EndsWith eof text w (some .underflow) (w.passed j pointer w.tape w.device) := by
  induction k generalizing w with
  | zero => omega
  | succ k ih =>
    by_cases hone : w.pointer = 0
    · refine ⟨0, w.pointer, EndsWith.of_failed ?_⟩
      rw [turn_of_symbol h.head, act_moveLeft, if_pos hone, passed_zero]
    · have hturn : w.turn eof text = .next (w.passed 1 (w.pointer - 1) w.tape w.device) := by
        rw [turn_of_symbol h.head, act_moveLeft, if_neg hone]
      have htail : ¬ k ≤ w.pointer - 1 := by omega
      obtain ⟨j, pointer, hend⟩ := ih (w := w.passed 1 _ _ _) h.tail htail
      rw [passed_passed] at hend
      exact ⟨_, _, EndsWith.of_leads (Leads.of_turn hturn) hend⟩

/-! ## §4 Changes of the cell -/

/-- A stretch of an operator that changes the cell by `f`: `g` changes it as often as it says. -/
theorem leads_change {op : Operator} {f : UInt8 → UInt8} {g : UInt8 → Nat → UInt8}
    (hact : ∀ w : Walker δ,
      w.act eof text op = .next (w.passed 1 w.pointer (w.store (f w.cell)) w.device))
    (hzero : ∀ cell, g cell 0 = cell) (hsucc : ∀ cell n, g cell (n + 1) = g (f cell) n) {k : Nat}
    (h : Stretch text op w.position k) :
    Leads eof text k w (w.passed k w.pointer (w.store (g w.cell k)) w.device) := by
  induction k generalizing w with
  | zero =>
    rw [hzero, store, cell, Tape.store_cell]
    exact Leads.refl w
  | succ k ih =>
    have hturn : w.turn eof text = .next _ := (turn_of_symbol h.head).trans (hact w)
    have hrest := Leads.cons hturn (ih h.tail)
    -- What the first character stores, the rest of the stretch reads and replaces.
    have htape : (w.store (f w.cell)).store w.pointer
        (g ((w.store (f w.cell)).cell w.pointer) k) = w.store (g w.cell (k + 1)) := by
      rw [hsucc]
      exact Tape.store_change w.tape w.pointer (fun cell => g cell k) (f w.cell)
    rw [passed_passed, Nat.add_comm 1, store, cell] at hrest
    rw [← htape]
    exact hrest

theorem leads_increment {k : Nat} (h : Stretch text .increment w.position k) :
    Leads eof text k w (w.passed k w.pointer (w.store (addToCell w.cell k)) w.device) :=
  leads_change act_increment addToCell_zero addToCell_succ h

theorem leads_decrement {k : Nat} (h : Stretch text .decrement w.position k) :
    Leads eof text k w (w.passed k w.pointer (w.store (subtractFromCell w.cell k)) w.device) :=
  leads_change act_decrement subtractFromCell_zero subtractFromCell_succ h

/-! ## §5 Output and input -/

variable (eof) in
/-- One output is the first of those that `writeCell` performs. -/
theorem turn_output (h : text[w.position]? = some Operator.output.symbol) (k : Nat) :
    (∃ device, w.turn eof text = .next (w.passed 1 w.pointer w.tape device) ∧
      writeCell w.cell (k + 1) w.device = writeCell w.cell k device) ∨
    (∃ e device, w.turn eof text = .failed (.port e) (w.passed 0 w.pointer w.tape device) ∧
      writeCell w.cell (k + 1) w.device = .error e device) := by
  rw [turn_of_symbol h, act_output]
  cases hwrite : Device.write (w.cell.toNat : Int) w.device with
  | ok _ device => exact .inl ⟨device, rfl, by rw [writeCell, hwrite]⟩
  | error e device => exact .inr ⟨e, device, rfl, by rw [writeCell, hwrite]⟩

/-- A stretch of outputs writes the cell as often. -/
theorem leads_output {k : Nat} {device : δ} (h : Stretch text .output w.position k)
    (hwrite : writeCell w.cell k w.device = .ok () device) :
    Leads eof text k w (w.passed k w.pointer w.tape device) := by
  induction k generalizing w with
  | zero =>
    cases hwrite
    exact Leads.refl w
  | succ k ih =>
    rcases turn_output eof h.head k with ⟨device', hturn, hfirst⟩ | ⟨e, device', -, hfirst⟩
    · rw [hfirst] at hwrite
      have hrest := Leads.cons hturn (ih h.tail hwrite)
      rw [passed_passed, Nat.add_comm 1] at hrest
      exact hrest
    · rw [hfirst] at hwrite
      cases hwrite

/-- A stretch of outputs fails where writing the cell as often does. -/
theorem ends_output {k : Nat} {e : PortError} {device : δ}
    (h : Stretch text .output w.position k)
    (hwrite : writeCell w.cell k w.device = .error e device) :
    ∃ j, EndsWith eof text w (some (.port e)) (w.passed j w.pointer w.tape device) := by
  induction k generalizing w with
  | zero => cases hwrite
  | succ k ih =>
    rcases turn_output eof h.head k with ⟨device', hturn, hfirst⟩ | ⟨e', device', hturn, hfirst⟩
    · rw [hfirst] at hwrite
      obtain ⟨j, hend⟩ := ih (w := w.passed 1 _ _ _) h.tail hwrite
      rw [passed_passed] at hend
      exact ⟨_, EndsWith.of_leads (Leads.of_turn hturn) hend⟩
    · rw [hfirst] at hwrite
      cases hwrite
      exact ⟨0, EndsWith.of_failed hturn⟩

/-- One input is the first of those that `readCell` performs. -/
theorem turn_input (h : text[w.position]? = some Operator.input.symbol) (value : UInt8) (k : Nat) :
    (∃ byte device, w.turn eof text = .next (w.passed 1 w.pointer (w.store byte) device) ∧
      readCell eof value (k + 1) w.device = readCell eof byte k device) ∨
    (∃ e device, w.turn eof text = .failed e.walkFault (w.passed 0 w.pointer w.tape device) ∧
      readCell eof value (k + 1) w.device = .error e (value, device)) := by
  rw [turn_of_symbol h, act_input]
  cases hread : Device.read w.device with
  | error e device => exact .inr ⟨.port e, device, rfl, by rw [readCell, hread]⟩
  | ok byte? device =>
    cases byte? with
    | some byte => exact .inl ⟨byte, device, rfl, by rw [readCell, hread]⟩
    | none =>
      -- The input has ended: the policy says whether that is a zero or a failure.
      cases eof with
      | zero => exact .inl ⟨0, device, rfl, by rw [readCell, hread]⟩
      | error => exact .inr ⟨.endOfInput, device, rfl, by rw [readCell, hread]⟩

/-- A stretch of inputs reads into the cell as often. The value `value` that the reading begins
with is the one of the cell, or the pointer is not on the tape. -/
theorem leads_input {k : Nat} {value cell : UInt8} {device : δ}
    (h : Stretch text .input w.position k) (hvalue : w.store value = w.tape)
    (hread : readCell eof value k w.device = .ok () (cell, device)) :
    Leads eof text k w (w.passed k w.pointer (w.store cell) device) := by
  induction k generalizing w value with
  | zero =>
    cases hread
    rw [hvalue]
    exact Leads.refl w
  | succ k ih =>
    rcases turn_input h.head value k with ⟨byte, device', hturn, hfirst⟩ | ⟨e, device', -, hfirst⟩
    · rw [hfirst] at hread
      -- Each byte replaces the one before, so only the last one is left in the cell.
      have hreplace : ∀ value', (w.store byte).store w.pointer value' = w.store value' := by
        intro value'
        exact Tape.store_store _ _ _ _
      have hrest := ih (w := w.passed 1 _ _ _) h.tail (hreplace byte) hread
      rw [passed_passed, Nat.add_comm 1, store] at hrest
      rw [← hreplace cell]
      exact Leads.cons hturn hrest
    · rw [hfirst] at hread
      cases hread

/-- A stretch of inputs fails where reading into the cell as often does. -/
theorem ends_input {k : Nat} {value cell : UInt8} {e : ReadFailure} {device : δ}
    (h : Stretch text .input w.position k) (hvalue : w.store value = w.tape)
    (hread : readCell eof value k w.device = .error e (cell, device)) :
    ∃ j, EndsWith eof text w (some e.walkFault) (w.passed j w.pointer (w.store cell) device) := by
  induction k generalizing w value with
  | zero => cases hread
  | succ k ih =>
    rcases turn_input h.head value k with
      ⟨byte, device', hturn, hfirst⟩ | ⟨e', device', hturn, hfirst⟩
    · rw [hfirst] at hread
      have hreplace : ∀ value', (w.store byte).store w.pointer value' = w.store value' := by
        intro value'
        exact Tape.store_store _ _ _ _
      obtain ⟨j, hend⟩ := ih (w := w.passed 1 _ _ _) h.tail (hreplace byte) hread
      rw [passed_passed, store] at hend
      rw [← hreplace cell]
      exact ⟨_, EndsWith.of_leads (Leads.of_turn hturn) hend⟩
    · rw [hfirst] at hread
      cases hread
      rw [hvalue]
      exact ⟨0, EndsWith.of_failed hturn⟩

end Walker

end FoldTape
