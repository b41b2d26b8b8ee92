import FoldTape.Proofs.Folding.Joining
import FoldTape.Proofs.Machine.Twice

/-!
# Runs without commentary

A text with less commentary is compiled to fewer instructions. What two of them did in two turns,
one does in one turn, and it fails where one of the two would have failed. So the run of the shorter
program follows that of the longer one at its own pace, is never behind it, and ends in the same
way, if no limit cuts the longer one off.

## Architecture

- **§1 Two runs at different paces**: `State.Trails`, where the longer run may be; one turn of the
  shorter program, away from the two instructions and at them (`Joined.proceeds`).
- **§2 Whole runs**: `Joined.runToEnd_trails`, by induction on the rest of the longer run.
- **§3 Texts**: `Uncommented`, and `Machine.fewer_comments_no_later`.
-/

namespace FoldTape

/-! ## §1 Two runs at different paces -/

variable {δ : Type} [Device δ] {settings : Settings} {p q : Program} {a n : Nat} {op : Operator}
  {j k : Int} {i : Instruction} {fault? : Option Fault} {s t : State δ}

/-- Where the run of the longer program is when that of the shorter one is at the same place after
`n` steps: not between the two runs that have become one, and after at least as many steps. -/
structure State.Trails (settings : Settings) (a n : Nat) (s : State δ) : Prop where
  valid : s.Valid settings
  between : s.registers.pc ≠ a + 1
  steps : n ≤ s.registers.steps

/-- What one turn of the shorter program comes to, if the longer one comes to an end. -/
inductive State.Proceeds (settings : Settings) (p q : Program) (a n fuel : Nat)
    (fault? : Option Fault) (s t : State δ) : Prop where
  /-- The longer run gets to where the shorter one is now, and from there to its end in no more than
  `fuel` turns. -/
  | next {fuel' : Nat} {u : State δ} : fuel' ≤ fuel →
      u.runToEnd settings p fuel' = some (fault?, t) → u.Trails settings a (n + 1) →
      (s.move (joinedAddress a) n).turn settings q = .next (u.move (joinedAddress a) (n + 1)) →
      Proceeds settings p q a n fuel fault? s t
  /-- The shorter run ends as the longer one does. -/
  | stops {fault?' : Option Fault} {t' : State δ} :
      (s.move (joinedAddress a) n).Stops settings q fault?' t' → NoLater fault? t fault?' t' →
      Proceeds settings p q a n fuel fault? s t

omit [Device δ] in
/-- A limit that the longer run has not reached has not been reached by the shorter one. -/
theorem State.Trails.limit_ne (hs : s.Trails settings a n) (hi : s.Fetches settings p i) :
    settings.maxSteps ≠ some (n : Int) := by
  intro hmax
  have hle := hs.valid.limit n hmax (Int.natCast_nonneg n)
  have hsteps := hs.steps
  obtain rfl : n = s.registers.steps := by omega
  exact hi.2 hmax

/-- A run that is not cut off performs the instruction that it is at. -/
theorem State.fetches_of_runToEnd (hi : p[s.registers.pc]? = some i) {fuel : Nat}
    (hend : s.runToEnd settings p fuel = some (fault?, t))
    (hkind : fault?.map Fault.kind ≠ some .stepLimit) :
    (∃ fuel', fuel = fuel' + 1) ∧ s.Fetches settings p i := by
  cases fuel with
  | zero => cases hend
  | succ fuel =>
    refine ⟨⟨fuel, rfl⟩, hi, ?_⟩
    intro hmax
    have hlimit : s.AtLimit settings p := ⟨⟨i, hi⟩, hmax⟩
    rw [runToEnd, hlimit.turn_eq] at hend
    cases hend
    exact hkind rfl

namespace Joined

/-- Away from the two runs, a turn is the same turn. -/
theorem turn_other (h : Joined a op j k p q) (hs : s.Trails settings a n)
    (hi : s.Fetches settings p i) (hpc : s.registers.pc ≠ a) :
    (s.move (joinedAddress a) n).turn settings q =
      (s.turn settings p).move (joinedAddress a) 0 n := by
  have hfetches : (s.move (joinedAddress a) n).Fetches settings q
      (i.retarget (joinedAddress a)) := by
    refine ⟨?_, hs.limit_ne hi⟩
    show q[joinedAddress a s.registers.pc]? = _
    rw [h.other _ hpc hs.between, hi.1]
    rfl
  rw [hfetches.turn_eq, hi.turn_eq]
  exact State.perform_move (joinedAddress_succ hpc) settings.eof i 0 n

/-- Away from the two runs, a turn leads to neither of them but the first. -/
theorem trails_other (h : Joined a op j k p q) (hp : p.WellFormed) (hs : s.Trails settings a n)
    (hpc : s.registers.pc ≠ a) (hnext : s.turn settings p = .next t) :
    t.Trails settings a (n + 1) := by
  refine ⟨hs.valid.turn_next hnext, ?_, ?_⟩
  · obtain ⟨i, hi, hperform⟩ := State.turn_eq_next_iff.mp hnext
    have houtcome := State.perform_outcome settings.eof i s
    rw [hperform] at houtcome
    cases houtcome with
    | @next pc _ _ _ hpc' =>
      show pc ≠ a + 1
      rcases hpc' with rfl | ⟨hjump, rfl⟩
      · omega
      · exact h.target_ne hp hi.1 hjump
  · rw [State.steps_of_turn_next hnext]
    exact Nat.succ_le_succ hs.steps

/-- At the two runs, the shorter program has an instruction for both of them. -/
theorem turn_both (h : Joined a op j k p q) (hs : s.Trails settings a n)
    (hi : s.Fetches settings p i) (hpc : s.registers.pc = a) :
    i = ⟨op, j⟩ ∧ (s.move (joinedAddress a) n).turn settings q =
      (s.perform settings.eof ⟨op, j + k⟩).move id 0 n := by
  have hfirst := hi.1
  rw [hpc, h.first, Option.some.injEq] at hfirst
  have hsame : s.move (joinedAddress a) n = s.move id n := by
    simp only [State.move, hpc, joinedAddress_self, id]
  have hfetches : (s.move id n).Fetches settings q ⟨op, j + k⟩ := by
    refine ⟨?_, hs.limit_ne hi⟩
    show q[s.registers.pc]? = _
    rw [hpc, h.both]
  have hperform := State.perform_move (f := id) (s := s) rfl settings.eof ⟨op, j + k⟩ 0 n
  rw [Instruction.retarget, Instruction.mapTarget_run (i := ⟨op, j + k⟩) h.run] at hperform
  rw [hsame, hfetches.turn_eq]
  exact ⟨hfirst.symm, hperform⟩

/-- At the two runs, one turn of the shorter program is as two turns of the longer one. -/
theorem proceeds_both (h : Joined a op j k p q) (hs : s.Trails settings a n)
    (hi : s.Fetches settings p i) (hpc : s.registers.pc = a) {fuel : Nat}
    (hend : s.runToEnd settings p (fuel + 1) = some (fault?, t))
    (hkind : fault?.map Fault.kind ≠ some .stepLimit) :
    s.Proceeds settings p q a n fuel fault? t := by
  obtain ⟨rfl, hturn⟩ := h.turn_both hs hi hpc
  have hpositive := h.positive
  have htwice := State.perform_twice h.run (by omega : 0 ≤ j) (by omega : 0 ≤ k) settings.eof s
  rw [← hi.turn_eq] at htwice
  generalize s.perform settings.eof ⟨op, j + k⟩ = both at htwice hturn
  generalize hfirst : s.turn settings p = first at htwice
  simp only [State.runToEnd, hfirst] at hend
  have hsecond : p[s.registers.pc + 1]? = some ⟨op, k⟩ := hpc ▸ h.second
  cases htwice with
  | @next pointer pointer' tape tape' device device' hperform =>
    obtain ⟨⟨fuel, rfl⟩, hi'⟩ := State.fetches_of_runToEnd hsecond hend hkind
    have hnext := hi'.turn_eq.trans hperform
    simp only [State.runToEnd, hnext] at hend
    refine .next (Nat.le_succ fuel) hend ⟨?_, ?_, ?_⟩ ?_
    · exact (hs.valid.turn_next hfirst).turn_next hnext
    · show s.registers.pc + 2 ≠ a + 1
      omega
    · show n + 1 ≤ s.registers.steps + 1 + 1
      have hsteps := hs.steps
      omega
    · -- Behind the two runs, the shorter program is one address less far.
      rw [hturn]
      have haddress : joinedAddress a (a + 2) = a + 1 := by
        rw [joinedAddress, if_neg (by omega)]
        rfl
      simp only [Turn.move, State.move, State.advance, hpc, haddress, id]
  | @failsLater pointer tape device fault fault' u t' hperform hlater =>
    obtain ⟨⟨fuel, rfl⟩, hi'⟩ := State.fetches_of_runToEnd hsecond hend hkind
    have hfailed := hi'.turn_eq.trans hperform
    simp only [State.runToEnd, hfailed] at hend
    cases hend
    refine .stops (State.stops_some_iff.mpr hturn) (hlater.move 0 ?_)
    rw [(State.stops_some_iff.mpr hfailed).steps_eq]
    show n ≤ s.registers.steps + 1
    exact Nat.le_succ_of_le hs.steps
  | @failsFirst fault fault' u t' hlater =>
    cases hend
    refine .stops (State.stops_some_iff.mpr hturn) (hlater.move 0 ?_)
    rw [(State.stops_some_iff.mpr hfirst).steps_eq]
    exact hs.steps

/-- **One turn of the shorter program.** The longer one gets to the same place in one turn or two,
or both end. -/
theorem proceeds (h : Joined a op j k p q) (hp : p.WellFormed) (hs : s.Trails settings a n)
    {fuel : Nat} (hend : s.runToEnd settings p (fuel + 1) = some (fault?, t))
    (hkind : fault?.map Fault.kind ≠ some .stepLimit) :
    s.Proceeds settings p q a n fuel fault? t := by
  cases hpc : p[s.registers.pc]? with
  | none =>
    -- At the end of the longer program is that of the shorter one.
    have hne : s.registers.pc ≠ a := by
      intro hpc'
      rw [hpc', h.first] at hpc
      cases hpc
    rw [State.runToEnd, State.turn_of_end hpc] at hend
    cases hend
    refine .stops (State.stops_none_iff.mpr ⟨?_, rfl⟩) ((NoLater.refl none s).move 0 hs.steps)
    show q[joinedAddress a s.registers.pc]? = none
    rw [h.other _ hne hs.between, hpc]
    rfl
  | some i =>
    obtain ⟨-, hi⟩ := State.fetches_of_runToEnd hpc hend hkind
    by_cases hat : s.registers.pc = a
    · exact h.proceeds_both hs hi hat hend hkind
    · have hturn := h.turn_other hs hi hat
      cases hnext : s.turn settings p with
      | next u =>
        simp only [State.runToEnd, hnext] at hend
        rw [hnext] at hturn
        exact .next (Nat.le_refl fuel) hend (h.trails_other hp hs hat hnext) hturn
      | halted =>
        -- An instruction completes or fails; it does not find the end.
        have houtcome := hi.outcome
        rw [hnext] at houtcome
        cases houtcome
      | failed fault u =>
        simp only [State.runToEnd, hnext] at hend
        cases hend
        rw [hnext] at hturn
        refine .stops (State.stops_some_iff.mpr hturn) ((NoLater.refl (some fault) t).move 0 ?_)
        rw [(State.stops_some_iff.mpr hnext).steps_eq]
        exact hs.steps

/-! ## §2 Whole runs -/

/-- **The run of the shorter program** ends in the same way and no later. -/
theorem runToEnd_trails (h : Joined a op j k p q) (hp : p.WellFormed) (hs : s.Trails settings a n)
    {fuel : Nat} (hend : s.runToEnd settings p fuel = some (fault?, t))
    (hkind : fault?.map Fault.kind ≠ some .stepLimit) :
    ∃ (fuel' : Nat) (fault?' : Option Fault) (t' : State δ),
      (s.move (joinedAddress a) n).runToEnd settings q fuel' = some (fault?', t') ∧
        NoLater fault? t fault?' t' := by
  -- Each turn of the shorter program takes one turn or two off the rest of the longer run.
  induction fuel using Nat.strongRecOn generalizing s n with
  | ind fuel ih =>
    cases fuel with
    | zero => cases hend
    | succ fuel =>
      cases h.proceeds hp hs hend hkind with
      | @next fuel' u hle hend' hu hturn =>
        obtain ⟨more, fault?', t', hrest, hlater⟩ := ih fuel' (Nat.lt_succ_of_le hle) hu hend'
        refine ⟨more + 1, fault?', t', ?_, hlater⟩
        simpa only [State.runToEnd, hturn] using hrest
      | stops hstops hlater => exact ⟨1, _, _, hstops, hlater⟩

end Joined

/-! ## §3 Texts -/

/-- From every state at the beginning, the second program ends in the same way as the first one, and
no later, unless a limit cuts the first one off. -/
def Program.NoSlower (δ : Type) [Device δ] (p q : Program) : Prop :=
  ∀ (settings : Settings) (s : State δ), s.Valid settings → s.registers.pc = 0 →
    ∀ (fuel : Nat) (fault? : Option Fault) (t : State δ),
      s.runToEnd settings p fuel = some (fault?, t) → fault?.map Fault.kind ≠ some .stepLimit →
      ∃ (fuel' : Nat) (fault?' : Option Fault) (t' : State δ),
        s.runToEnd settings q fuel' = some (fault?', t') ∧ NoLater fault? t fault?' t'

namespace Program.NoSlower

variable {r : Program}

theorem refl (p : Program) : NoSlower δ p p :=
  fun _ _ _ _ fuel fault? t hend _ => ⟨fuel, fault?, t, hend, .refl fault? t⟩

theorem trans (h : NoSlower δ p q) (h' : NoSlower δ q r) : NoSlower δ p r := by
  intro settings s hs hpc fuel fault? t hend hkind
  obtain ⟨fuel', fault?', t', hend', hlater⟩ := h settings s hs hpc fuel fault? t hend hkind
  obtain ⟨fuel'', fault?'', t'', hend'', hlater'⟩ :=
    h' settings s hs hpc fuel' fault?' t' hend' (hlater.kind ▸ hkind)
  exact ⟨fuel'', fault?'', t'', hend'', hlater.trans hlater'⟩

theorem of_joined (h : Joined a op j k p q) (hp : p.WellFormed) : NoSlower δ p q := by
  intro settings s hs hpc fuel fault? t hend hkind
  have hstart : s.move (joinedAddress a) s.registers.steps = s := by
    obtain ⟨⟨pc, pointer, steps, tape⟩, device⟩ := s
    obtain rfl : pc = 0 := hpc
    simp only [State.move, joinedAddress_zero]
  have hbetween : s.registers.pc ≠ a + 1 := by omega
  obtain ⟨fuel', fault?', t', hend', hlater⟩ :=
    h.runToEnd_trails hp ⟨hs, hbetween, Nat.le_refl _⟩ hend hkind
  rw [hstart] at hend'
  exact ⟨fuel', fault?', t', hend', hlater⟩

end Program.NoSlower

/-- The second text is the first one without some of its commentary, or all of it. -/
inductive Uncommented : List Char → List Char → Prop
  | nil : Uncommented [] []
  /-- A character that stays, whatever it is. -/
  | keep (c : Char) {s t : List Char} : Uncommented s t → Uncommented (c :: s) (c :: t)
  /-- A character that is no operator, and goes. -/
  | delete {c : Char} {s t : List Char} :
      Operator.ofSymbol? c = none → Uncommented s t → Uncommented (c :: s) t

namespace Uncommented

variable {text text' : List Char}

theorem length_le (h : Uncommented text text') : text'.length ≤ text.length := by
  induction h with
  | nil => exact Nat.le_refl _
  | keep c _ ih => exact Nat.succ_le_succ ih
  | delete _ _ ih => exact Nat.le_succ_of_le ih

/-- **With less commentary** a text is compiled to a program that ends no later. -/
theorem compile_noSlower (h : Uncommented text text') (δ : Type) [Device δ] (u : List Char)
    {p : Program} (hp : compile (u ++ text) = .ok p) :
    ∃ q, compile (u ++ text') = .ok q ∧ p.NoSlower δ q := by
  -- What comes before is the same in both texts; the characters are deleted one by one.
  induction h generalizing u p with
  | nil => exact ⟨p, hp, .refl p⟩
  | keep c _ ih =>
    rw [← List.singleton_append, ← List.append_assoc] at hp ⊢
    exact ih (u ++ [c]) hp
  | delete hc _ ih =>
    rcases compile_without_comment hp hc with hsame | ⟨a, op, j, k, q, hq, hjoined⟩
    · exact ih u hsame
    · obtain ⟨r, hr, hlater⟩ := ih u hq
      exact ⟨r, hr, (Program.NoSlower.of_joined hjoined (wellFormed_of_compile hp)).trans hlater⟩

end Uncommented

namespace Machine

variable {text text' : List Char}

/-- **Commentary costs steps and does nothing else.** For every text that is compiled and every text
without some of its commentary, and on every machine: the second text is compiled as well, and if
the run of the first one ends in any way but by the limit, then the run of the second one ends in
the same way: with the same kind of fault, or none, with the same tape and the same device, with the
same pointer unless a move has failed, and after no more steps. -/
theorem fewer_comments_no_later (hp : compile text = .ok p) (h : Uncommented text text')
    (hlength : text.length < int64Bound) :
    ∃ q, compile text' = .ok q ∧ ∀ (m : Machine δ) (fault? : Option Fault) (t : State δ),
      m.Ends p fault? t → fault?.map Fault.kind ≠ some .stepLimit →
      ∃ (fault?' : Option Fault) (t' : State δ), m.Ends q fault?' t' ∧
        NoLater fault? t fault?' t' := by
  obtain ⟨q, hq, hlater⟩ := h.compile_noSlower δ [] hp
  rw [List.nil_append] at hq
  refine ⟨q, hq, ?_⟩
  intro m fault? t hends hkind
  have hle := h.length_le
  have hadmissible := admissible_of_compile hp hlength
  have hadmissible' := admissible_of_compile hq (by omega)
  obtain ⟨fuel, hend⟩ := (execute_iff_runToEnd hadmissible m fault? t).mp hends
  obtain ⟨fuel', fault?', t', hend', hlater⟩ :=
    hlater m.settings m.reset.state (.start _ _) rfl fuel fault? t hend hkind
  exact ⟨fault?', t', (execute_iff_runToEnd hadmissible' m fault?' t').mpr ⟨fuel', hend'⟩, hlater⟩

/-- Two moves with a comment between them: the first one is done, the second one fails. Without the
comment nothing is done, and the pointer stays where it was. -/
theorem fewer_comments_no_later_overflow :
    compile ['>', 'x', '>'] = .ok #[⟨.moveRight, 1⟩, ⟨.moveRight, 1⟩] ∧
    Uncommented ['>', 'x', '>'] ['>', '>'] ∧
    ∃ q, compile ['>', '>'] = .ok q ∧ ∃ (fault?' : Option Fault) (t' : State Ports),
      (Machine.new { tapeSize := 2 } (Ports.inMemory [])).Ends q fault?' t' ∧
        NoLater (some (.overflow 1 1 1 2)) ⟨⟨1, 1, 1, #[0, 0]⟩, .inMemory []⟩ fault?' t' := by
  have hp : compile ['>', 'x', '>'] = .ok #[⟨.moveRight, 1⟩, ⟨.moveRight, 1⟩] := by rfl
  have h : Uncommented ['>', 'x', '>'] ['>', '>'] :=
    .keep '>' (.delete rfl (.keep '>' .nil))
  have hends : (Machine.new { tapeSize := 2 } (Ports.inMemory [])).Ends
      #[⟨.moveRight, 1⟩, ⟨.moveRight, 1⟩] (some (.overflow 1 1 1 2))
      ⟨⟨1, 1, 1, #[0, 0]⟩, .inMemory []⟩ := (ends_iff (by decide)).mpr ⟨1, _, rfl, rfl⟩
  obtain ⟨q, hq, hruns⟩ := fewer_comments_no_later (δ := Ports) hp h (by decide)
  exact ⟨hp, h, q, hq, hruns _ _ _ hends (by decide)⟩

end Machine

end FoldTape
