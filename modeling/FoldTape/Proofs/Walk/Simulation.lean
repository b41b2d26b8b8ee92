import FoldTape.Proofs.Folding.Layout
import FoldTape.Proofs.Machine.Trampoline
import FoldTape.Proofs.Walk.Stretches

/-!
# Running a compiled source is walking through it

The walker takes one character at a time, the machine one instruction. They are compared where a
block begins: there the program counter is the address of the block. From there one instruction
does what the walker does up to the next such place, so both come to an end or neither does.

## Architecture

- **§1 Ends**: when a walk and a run end in the same way (`SameEnd`).
- **§2 The relation**: `Matches`, between a walker and a running program.
- **§3 One instruction**: a stretch of one operator, a bracket, or the end of the text.
- **§4 Whole runs**: both directions by induction on the turns, and the machine itself.
-/

namespace FoldTape

variable {δ : Type} [Device δ]

/-! ## §1 Ends -/

/-- The fault of a walk that a fault of a run amounts to, if there is one. -/
def Fault.walkFault? : Fault → Option WalkFault
  | underflow .. => some .underflow
  | overflow .. => some .overflow
  | endOfInput .. => some .endOfInput
  | port e => some (.port e)
  | stepLimit .. | operandTooLarge => none

/-- A walk and a run end in the same way: neither with a fault, or both with the same kind of fault;
with the same tape and the same device. The pointers are equal as well, unless a move has failed:
the walker moves step by step, and the machine does not move at all. -/
structure SameEnd (walkFault? : Option WalkFault) (w : Walker δ) (fault? : Option Fault)
    (s : State δ) : Prop where
  fault : fault?.map Fault.walkFault? = walkFault?.map some
  tape : s.registers.tape = w.tape
  device : s.device = w.device
  pointer : walkFault? ≠ some .underflow → walkFault? ≠ some .overflow →
    s.registers.pointer = w.pointer

/-! ## §2 The relation -/

/-- The walker and the running program work on the same data. -/
structure Walker.Agrees (w : Walker δ) (s : State δ) : Prop where
  pointer : s.registers.pointer = w.pointer
  tape : s.registers.tape = w.tape
  device : s.device = w.device

/-- The walker is between two blocks, the running program is before the instruction of the second
one, and they work on the same data. -/
structure Walker.Matches (text : List Char) (w : Walker δ) (s : State δ) : Prop where
  data : w.Agrees s
  inside : w.position ≤ text.length
  boundary : Boundary text w.position
  address : s.registers.pc = blockAddress text w.position

namespace Walker

variable {eof : EndPolicy} {text : List Char} {w : Walker δ} {s : State δ}

omit [Device δ] in
theorem Agrees.cell_eq (h : w.Agrees s) : s.cell = w.cell := by
  rw [State.cell, cell, h.tape, h.pointer]

omit [Device δ] in
theorem Agrees.store_eq (h : w.Agrees s) (value : UInt8) : s.store value = w.store value := by
  rw [State.store, store, h.tape, h.pointer]

omit [Device δ] in
/-- At the beginning both are at the beginning. -/
theorem Matches.start (text : List Char) (tapeSize : Nat) (device : δ) :
    (Walker.start tapeSize device).Matches text ⟨.start tapeSize, device⟩ where
  data := ⟨rfl, rfl, rfl⟩
  inside := Nat.zero_le _
  boundary := Boundary.zero text
  address := rfl

/-! ## §3 One instruction -/

/-- **A stretch of one operator** is what the instruction that it folds into does at once. -/
theorem Agrees.perform_stretch (hs : w.Agrees s) {op : Operator} (hop : op.isJump = false) {k : Nat}
    (h : Stretch text op w.position (k + 1)) :
    (∃ pointer tape device, s.perform eof ⟨op, (k + 1 : Nat)⟩ =
        .next (s.advance (s.registers.pc + 1) pointer tape device) ∧
      Leads eof text (k + 1) w (w.passed (k + 1) pointer tape device)) ∨
    (∃ fault t walkFault w', s.perform eof ⟨op, (k + 1 : Nat)⟩ = .failed fault t ∧
      EndsWith eof text w (some walkFault) w' ∧ SameEnd (some walkFault) w' (some fault) t) := by
  have hcell := hs.cell_eq
  have hstore := hs.store_eq
  cases op with
  | moveRight =>
    -- The sum of the moves stays on the tape exactly if each of them does.
    rw [State.perform_moveRight, hs.pointer, hs.tape, hs.device]
    by_cases hroom : w.pointer + (k + 1) < w.tape.size
    · exact .inl ⟨_, _, _, if_pos hroom, leads_moveRight h hroom⟩
    · obtain ⟨j, pointer, hend⟩ : ∃ j pointer,
          EndsWith eof text w (some .overflow) (w.passed j pointer w.tape w.device) :=
        ends_moveRight h hroom
      refine .inr ⟨_, _, _, _, if_neg hroom, hend, rfl, hs.tape, hs.device, ?_⟩
      intro _ hne
      exact absurd rfl hne
  | moveLeft =>
    rw [State.perform_moveLeft, hs.pointer, hs.tape, hs.device]
    by_cases hroom : k + 1 ≤ w.pointer
    · exact .inl ⟨_, _, _, if_pos hroom, leads_moveLeft h hroom⟩
    · obtain ⟨j, pointer, hend⟩ : ∃ j pointer,
          EndsWith eof text w (some .underflow) (w.passed j pointer w.tape w.device) :=
        ends_moveLeft h hroom
      refine .inr ⟨_, _, _, _, if_neg hroom, hend, rfl, hs.tape, hs.device, ?_⟩
      intro hne _
      exact absurd rfl hne
  | increment =>
    refine .inl ⟨_, _, _, State.perform_increment eof _ s, ?_⟩
    rw [hs.pointer, hs.device, hcell, hstore]
    exact leads_increment h
  | decrement =>
    refine .inl ⟨_, _, _, State.perform_decrement eof _ s, ?_⟩
    rw [hs.pointer, hs.device, hcell, hstore]
    exact leads_decrement h
  | output =>
    -- What has been written before a failure stays written on both sides.
    rw [State.perform_output, hcell, hs.device, Int.toNat_natCast]
    cases hwrite : writeCell w.cell (k + 1) w.device with
    | ok _ device =>
      refine .inl ⟨_, _, _, rfl, ?_⟩
      rw [hs.pointer, hs.tape]
      exact leads_output h hwrite
    | error e device =>
      obtain ⟨j, hend⟩ : ∃ j, EndsWith eof text w (some (.port e)) _ := ends_output h hwrite
      exact .inr ⟨_, _, _, _, rfl, hend, rfl, hs.tape, rfl, fun _ _ => hs.pointer⟩
  | input =>
    have hvalue : w.store w.cell = w.tape := Tape.store_cell _ _
    rw [State.perform_input, hcell, hs.device, Int.toNat_natCast]
    cases hread : readCell eof w.cell (k + 1) w.device with
    | ok _ r =>
      obtain ⟨cell, device⟩ := r
      refine .inl ⟨_, _, _, rfl, ?_⟩
      rw [hs.pointer, hstore]
      exact leads_input h hvalue hread
    | error e r =>
      obtain ⟨cell, device⟩ := r
      obtain ⟨j, hend⟩ : ∃ j, EndsWith eof text w (some e.walkFault) _ :=
        ends_input h hvalue hread
      refine .inr ⟨_, _, _, _, rfl, hend, ?_, hstore cell, rfl, fun _ _ => hs.pointer⟩
      cases e with
      | endOfInput => rfl
      | port e => rfl
  | jumpIfZero => cases hop
  | jumpIfNonzero => cases hop

/-- What one turn of the running program is to the walker: turns, of which there is at least one,
that lead to where the two match again, or the end of both. -/
inductive Follows (settings : Settings) (p : Program) (text : List Char) (w : Walker δ)
    (s : State δ) : Prop where
  | goesOn {n : Nat} {w' : Walker δ} {t : State δ} :
      Leads settings.eof text (n + 1) w w' → s.turn settings p = .next t → w'.Matches text t →
      Follows settings p text w s
  | ends {walkFault? : Option WalkFault} {w' : Walker δ} {fault? : Option Fault} {t : State δ} :
      EndsWith settings.eof text w walkFault? w' →
      s.runToEnd settings p 1 = some (fault?, t) → SameEnd walkFault? w' fault? t →
      Follows settings p text w s

variable {settings : Settings} {p : Program} {loops : Nat} {w' : Walker δ}

theorem Follows.of_leads {n : Nat} (h : Leads settings.eof text n w w')
    (hfollows : w'.Follows settings p text s) : w.Follows settings p text s := by
  cases hfollows with
  | @goesOn m w'' t hleads hturn hmatches =>
    have hmore : Leads settings.eof text (n + m + 1) w w'' := h.trans hleads
    exact .goesOn hmore hturn hmatches
  | ends hend hrun hsame => exact .ends (.of_leads h hend) hrun hsame

/-- Without a limit on the steps every instruction is performed. -/
theorem turn_eq_perform (hmax : settings.maxSteps = none) {i : Instruction}
    (hi : p[s.registers.pc]? = some i) : s.turn settings p = s.perform settings.eof i := by
  have hfetches : s.Fetches settings p i := ⟨hi, by rw [hmax]; nofun⟩
  exact hfetches.turn_eq

/-- At the end of the text the program has ended. -/
theorem Matches.follows_end (hp : Builder.Describes text ⟨p, [], loops⟩) (hm : w.Matches text s)
    (hend : w.position = text.length) : w.Follows settings p text s := by
  have hwalk : w.turn settings.eof text = .halted := by
    rw [turn, hend, List.getElem?_eq_none (Nat.le_refl _)]
  have hturn : s.turn settings p = .halted := by
    apply State.turn_of_end
    rw [hm.address, hend, blockAddress_length, ← hp.size_eq]
    exact Array.getElem?_size
  have hrun : s.runToEnd settings p 1 = some (none, s) := by
    rw [State.runToEnd, hturn]
  exact .ends (.of_halted hwalk) hrun
    ⟨rfl, hm.data.tape, hm.data.device, fun _ _ => hm.data.pointer⟩

/-- A run of an operator that is no bracket. -/
theorem Matches.follows_run (hp : Builder.Describes text ⟨p, [], loops⟩)
    (hmax : settings.maxSteps = none) (hm : w.Matches text s) {op : Operator}
    (hop : op.isJump = false) (hget : text[w.position]? = some op.symbol) :
    w.Follows settings p text s := by
  obtain ⟨k, hstretch, hblock, haddress, hboundary, hinside⟩ := hm.boundary.exists_stretch hop hget
  have hi : p[s.registers.pc]? = some ⟨op, (k + 1 : Nat)⟩ := by
    rw [hm.address]
    exact hp.getElem?_of_run hop hblock
  have hturn := turn_eq_perform hmax hi
  rcases hm.data.perform_stretch hop hstretch with
    ⟨pointer, tape, device, hperform, hleads⟩ | ⟨fault, t, walkFault, w', hperform, hend, hsame⟩
  · refine .goesOn hleads (hturn.trans hperform) ⟨⟨rfl, rfl, rfl⟩, hinside, hboundary, ?_⟩
    exact (congrArg (· + 1) hm.address).trans haddress.symm
  · refine .ends hend ?_ hsame
    rw [State.runToEnd, hturn, hperform]

omit [Device δ] in
/-- Both have gone to just past the same bracket. -/
theorem Matches.past_jump (hm : w.Matches text s) {op : Operator} (hop : op.isJump = true) {q : Nat}
    (hget : text[q]? = some op.symbol) {pc : Nat} (hpc : pc = blockAddress text q + 1) :
    Matches text { w with position := q + 1 }
      (s.advance pc s.registers.pointer s.registers.tape s.device) where
  data := ⟨hm.data.pointer, hm.data.tape, hm.data.device⟩
  inside := lt_length_of_getElem? hget
  boundary := by
    apply Boundary.succ hget
    intro op' hop' hsymbol
    rw [symbol_inj hsymbol, hop'] at hop
    cases hop
  address := by
    show pc = blockAddress text (q + 1)
    rw [hpc, blockAddress_succ_jump hget hop]

/-- An opening bracket. -/
theorem Matches.follows_open (hp : Builder.Describes text ⟨p, [], loops⟩)
    (hmax : settings.maxSteps = none) (hm : w.Matches text s)
    (hget : text[w.position]? = some Operator.jumpIfZero.symbol) :
    w.Follows settings p text s := by
  obtain ⟨j, hj⟩ := hp.exists_closingPartner? rfl hget
  have hloop : LoopAt text p w.position j := hp.loopAt hget hj
  have hclose : text[j]? = some Operator.jumpIfNonzero.symbol := getElem?_of_closingPartner? hj
  have hturn := turn_eq_perform hmax (hm.address ▸ hloop.enters)
  have hwalk : w.turn settings.eof text = _ := turn_of_symbol hget
  rw [State.perform_jumpIfZero, hm.data.cell_eq] at hturn
  rw [act_jumpIfZero, hj] at hwalk
  by_cases hzero : w.cell = 0
  · -- Both go on after the closing bracket.
    rw [if_pos hzero] at hturn hwalk
    exact .goesOn (.of_turn hwalk) hturn (hm.past_jump rfl hclose (by omega))
  · rw [if_neg hzero] at hturn hwalk
    exact .goesOn (.of_turn hwalk) hturn (hm.past_jump rfl hget (by rw [hm.address]))

/-- A closing bracket. -/
theorem Matches.follows_close (hp : Builder.Describes text ⟨p, [], loops⟩)
    (hmax : settings.maxSteps = none) (hm : w.Matches text s)
    (hget : text[w.position]? = some Operator.jumpIfNonzero.symbol) :
    w.Follows settings p text s := by
  obtain ⟨i, hloop⟩ : ∃ i, LoopAt text p i w.position := hp.closed w.position hget
  have hopen : text[i]? = some Operator.jumpIfZero.symbol := hloop.opening
  have hi := openingPartner?_of_closingPartner? hloop.opening hloop.partner
  have hturn := turn_eq_perform hmax (hm.address ▸ hloop.repeats)
  have hwalk : w.turn settings.eof text = _ := turn_of_symbol hget
  rw [State.perform_jumpIfNonzero, hm.data.cell_eq] at hturn
  rw [act_jumpIfNonzero, hi] at hwalk
  by_cases hzero : w.cell = 0
  · rw [if_pos hzero] at hturn hwalk
    exact .goesOn (.of_turn hwalk) hturn (hm.past_jump rfl hget (by rw [hm.address]))
  · -- Both go back to just after the opening bracket.
    rw [if_neg hzero] at hturn hwalk
    exact .goesOn (.of_turn hwalk) hturn (hm.past_jump rfl hopen (by omega))

/-- Characters that are no operators are passed over, up to the next operator or the end. -/
theorem Matches.exists_leads_operator (hm : w.Matches text s) :
    ∃ n w', Leads eof text n w w' ∧ w'.Matches text s ∧
      (w'.position = text.length ∨ ∃ op : Operator, text[w'.position]? = some op.symbol) := by
  induction hleft : text.length - w.position generalizing w with
  | zero =>
    -- Nothing is left of the text.
    have hinside := hm.inside
    exact ⟨0, w, .refl w, hm, .inl (by omega)⟩
  | succ left ih =>
    obtain ⟨c, hc⟩ : ∃ c, text[w.position]? = some c :=
      ⟨_, List.getElem?_eq_getElem (by omega)⟩
    cases hop : Operator.ofSymbol? c with
    | some op =>
      obtain rfl := Operator.ofSymbol?_eq_some_iff.mp hop
      exact ⟨0, w, .refl w, hm, .inr ⟨op, hc⟩⟩
    | none =>
      -- One character less is left, and the address stays the same.
      have hturn : w.turn eof text = .next (w.passed 1 w.pointer w.tape w.device) := by
        simp only [turn, hc, hop, passed]
      have hnext : (w.passed 1 w.pointer w.tape w.device).Matches text s := by
        refine ⟨⟨hm.data.pointer, hm.data.tape, hm.data.device⟩, lt_length_of_getElem? hc, ?_, ?_⟩
        · apply Boundary.succ hc
          rintro op - rfl
          rw [Operator.ofSymbol?_symbol] at hop
          cases hop
        · exact hm.address.trans (blockAddress_succ_comment hc hop).symm
      obtain ⟨n, w', hleads, hmatches, hstop⟩ := ih hnext (by simp only [passed]; omega)
      exact ⟨n + 1, w', hleads.cons hturn, hmatches, hstop⟩

/-- **One turn** of the running program is some turns of the walker. -/
theorem Matches.follows (hp : Builder.Describes text ⟨p, [], loops⟩)
    (hmax : settings.maxSteps = none) (hm : w.Matches text s) : w.Follows settings p text s := by
  -- Comments first; then the instruction and the character are about the same operator.
  obtain ⟨n, w', hleads, hm', hstop⟩ :
      ∃ n w', Leads settings.eof text n w w' ∧ w'.Matches text s ∧ _ := hm.exists_leads_operator
  apply Follows.of_leads hleads
  rcases hstop with hend | ⟨op, hget⟩
  · exact hm'.follows_end hp hend
  · cases hop : op.isJump with
    | false => exact hm'.follows_run hp hmax hop hget
    | true =>
      cases op with
      | jumpIfZero => exact hm'.follows_open hp hmax hget
      | jumpIfNonzero => exact hm'.follows_close hp hmax hget
      | _ => cases hop

/-! ## §4 Whole runs -/

/-- If the walk ends, then so does the run. -/
theorem Matches.run_of_walk (hp : Builder.Describes text ⟨p, [], loops⟩)
    (hmax : settings.maxSteps = none) (hm : w.Matches text s) {fuel : Nat}
    {walkFault? : Option WalkFault}
    (h : w.walkToEnd settings.eof text fuel = some (walkFault?, w')) :
    ∃ turns fault? t, s.runToEnd settings p turns = some (fault?, t) ∧
      SameEnd walkFault? w' fault? t := by
  -- Each turn of the program takes at least one turn off what is left of the walk.
  induction fuel using Nat.strongRecOn generalizing w s with
  | ind fuel ih =>
    cases hm.follows hp hmax with
    | @goesOn n w₁ t hleads hturn hmatches =>
      have hlt := hleads.lt_of_end h
      obtain ⟨rest, rfl⟩ : ∃ rest, fuel = n + 1 + rest := ⟨fuel - (n + 1), by omega⟩
      rw [hleads] at h
      obtain ⟨turns, fault?, t', hrun, hsame⟩ := ih rest (by omega) hmatches h
      refine ⟨turns + 1, fault?, t', ?_, hsame⟩
      rw [State.runToEnd, hturn]
      exact hrun
    | ends hend hrun hsame =>
      cases hend.unique h
      exact ⟨1, _, _, hrun, hsame⟩

/-- If the run ends, then so does the walk. -/
theorem Matches.walk_of_run (hp : Builder.Describes text ⟨p, [], loops⟩)
    (hmax : settings.maxSteps = none) (hm : w.Matches text s) {turns : Nat}
    {fault? : Option Fault} {t : State δ} (h : s.runToEnd settings p turns = some (fault?, t)) :
    ∃ walkFault? w', EndsWith settings.eof text w walkFault? w' ∧
      SameEnd walkFault? w' fault? t := by
  induction turns generalizing w s with
  | zero => cases h
  | succ turns ih =>
    cases hm.follows hp hmax with
    | goesOn hleads hturn hmatches =>
      rw [State.runToEnd, hturn] at h
      obtain ⟨walkFault?, w', hend, hsame⟩ := ih hmatches h
      exact ⟨walkFault?, w', .of_leads hleads hend, hsame⟩
    | ends hend hrun hsame =>
      cases State.runToEnd_unique hrun h
      exact ⟨_, _, hend, hsame⟩

end Walker

/-- **A compiled source does what the source says.** Without a limit on the steps, the machine comes
to an end on the program exactly if the walker comes to an end on the source, and then in the same
way: with the same kind of fault, or none, with the same tape, and with a device that has noted the
same reads and writes in the same order; with the same pointer, unless a move has failed. -/
theorem execute_compiled_as_walked {source : List Char} {p : Program} (h : compile source = .ok p)
    (hlength : source.length < int64Bound) (m : Machine (Recorded δ))
    (hmax : m.settings.maxSteps = none) :
    (∀ (fuel : Nat) (walkFault? : Option WalkFault) (w : Walker (Recorded δ)),
      (Walker.start m.settings.tapeSize m.state.device).walkToEnd m.settings.eof source fuel =
        some (walkFault?, w) →
      ∃ turns report, m.execute turns p = some report ∧
        SameEnd walkFault? w report.fault? report.machine.state) ∧
    ∀ (turns : Nat) (report : Report (Recorded δ)), m.execute turns p = some report →
      ∃ fuel walkFault? w,
        (Walker.start m.settings.tapeSize m.state.device).walkToEnd m.settings.eof source fuel =
          some (walkFault?, w) ∧
        SameEnd walkFault? w report.fault? report.machine.state := by
  obtain ⟨loops, hp⟩ := describes_of_compile h
  have hadmissible := admissible_of_compile h hlength
  have hstart := Walker.Matches.start source m.settings.tapeSize m.state.device
  constructor
  · intro fuel walkFault? w hwalk
    obtain ⟨turns, fault?, t, hrun, hsame⟩ := hstart.run_of_walk hp hmax hwalk
    obtain ⟨turns', report, hreport, rfl, rfl⟩ :=
      (Machine.execute_iff_runToEnd hadmissible m fault? t).mpr ⟨turns, hrun⟩
    exact ⟨turns', report, hreport, hsame⟩
  · intro turns report hreport
    obtain ⟨turns', hrun⟩ :=
      (Machine.execute_iff_runToEnd hadmissible m _ _).mp ⟨turns, report, hreport, rfl, rfl⟩
    obtain ⟨walkFault?, w, ⟨fuel, hwalk⟩, hsame⟩ := hstart.walk_of_run hp hmax hrun
    exact ⟨fuel, walkFault?, w, hwalk, hsame⟩

/-- A source that reads a byte and writes it and all smaller ones but zero. -/
theorem execute_compiled_as_walked_countdown :
    compile [',', '[', '.', '-', 'x', ']'] =
      .ok #[⟨.input, 1⟩, ⟨.jumpIfZero, 5⟩, ⟨.output, 1⟩, ⟨.decrement, 1⟩, ⟨.jumpIfNonzero, 2⟩] ∧
    ∃ turns report,
      (Machine.new { tapeSize := 1 } (⟨Ports.inMemory [2], []⟩ : Recorded Ports)).execute turns
          #[⟨.input, 1⟩, ⟨.jumpIfZero, 5⟩, ⟨.output, 1⟩, ⟨.decrement, 1⟩, ⟨.jumpIfNonzero, 2⟩] =
        some report ∧
      SameEnd none
        ⟨6, 0, #[0], ⟨⟨.memory [] 1, .memory #[2, 1]⟩, [.wrote 1, .wrote 2, .read (some 2)]⟩⟩
        report.fault? report.machine.state := by
  have h : compile [',', '[', '.', '-', 'x', ']'] =
      .ok #[⟨.input, 1⟩, ⟨.jumpIfZero, 5⟩, ⟨.output, 1⟩, ⟨.decrement, 1⟩, ⟨.jumpIfNonzero, 2⟩] := by
    rfl
  exact ⟨h, (execute_compiled_as_walked h (by decide) _ rfl).1 20 none _ rfl⟩

end FoldTape
