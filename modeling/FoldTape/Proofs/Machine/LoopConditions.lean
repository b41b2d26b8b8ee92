import FoldTape.Proofs.Folding.Concatenation
import FoldTape.Proofs.Machine.Boundaries
import FoldTape.Proofs.Machine.Safety

/-!
# Loop conditions

Between two instructions the program counter alone tells something about the current cell: just
behind the beginning of a loop the cell is not zero, and just behind its end it is zero. This is so
although a jump back skips the test at the beginning of the loop, because no other instruction leads
to either place. In a compiled program an address is that of a run, or of one end of one loop, and
a jump leads to just behind the other end of its own loop.

A loop right behind another one is therefore never entered: the way into it begins where the cell
is zero, and no jump leads into it from elsewhere.

## Architecture

- **§1 Arriving**: `State.Arrives`, the ways in which a turn can come to an address.
- **§2 Conditions**: `State.LoopCondition`, kept by every turn.
- **§3 Loops behind loops**: they are not entered.
- **§4 The last operator**: where a program ends whose text ends with a loop.
- **§5 Machines**: `Machine.loop_conditions_hold`.
-/

namespace FoldTape

variable {δ : Type} {settings : Settings} {p : Program} {l : List Instruction}

/-! ## §1 Arriving -/

namespace State

variable {s t : State δ}

/-- How a turn comes from one state to the next if all jumps are matched. -/
inductive Arrives (l : List Instruction) (s t : State δ) : Prop where
  /-- From an instruction that is not a jump, at the next one. -/
  | next {i : Instruction} : l[s.registers.pc]? = some i → i.operator.isJump = false →
      t.registers.pc = s.registers.pc + 1 → Arrives l s t
  /-- From either end of a loop, at its body. -/
  | inside {a b : Nat} : LoopEnds l a b → s.registers.pc = a ∨ s.registers.pc = b →
      s.cell ≠ 0 → t.cell = s.cell → t.registers.pc = a + 1 → Arrives l s t
  /-- From either end of a loop, behind it. -/
  | behind {a b : Nat} : LoopEnds l a b → s.registers.pc = a ∨ s.registers.pc = b →
      s.cell = 0 → t.cell = s.cell → t.registers.pc = b + 1 → Arrives l s t

/-- **Every turn arrives** in one of these ways. -/
theorem arrives_of_turn_next [Device δ] (hp : Matched p.toList 0 p.size)
    (h : s.turn settings p = .next t) : s.Arrives p.toList t := by
  obtain ⟨⟨op, n⟩, ⟨hfetch, -⟩, hperform⟩ := turn_eq_next_iff.mp h
  have hi : p.toList[s.registers.pc]? = some ⟨op, n⟩ := by
    rw [Array.getElem?_toList]
    exact hfetch
  cases hjump : op.isJump with
  | false =>
    have houtcome := perform_outcome settings.eof ⟨op, n⟩ s
    rw [hperform] at houtcome
    cases houtcome with
    | next hpc =>
      rcases hpc with hpc | ⟨htaken, -⟩
      · exact .next hi hjump hpc
      · exact absurd htaken (by simp [hjump])
  | true =>
    cases op with
    | jumpIfZero =>
      obtain ⟨b, hloop⟩ := hp.exists_end hfetch
      rw [perform_jumpIfZero, hloop.target_of_enters hi] at hperform
      cases hperform
      by_cases hcell : s.cell = 0
      · exact .behind hloop (.inl rfl) hcell rfl (if_pos hcell)
      · exact .inside hloop (.inl rfl) hcell rfl (if_neg hcell)
    | jumpIfNonzero =>
      obtain ⟨a, hloop⟩ := hp.exists_beginning hfetch
      rw [perform_jumpIfNonzero, hloop.target_of_repeats hi] at hperform
      cases hperform
      by_cases hcell : s.cell = 0
      · exact .behind hloop (.inr rfl) hcell rfl (if_pos hcell)
      · exact .inside hloop (.inr rfl) hcell rfl (if_neg hcell)
    | moveRight | moveLeft | increment | decrement | output | input => cases hjump

/-! ## §2 Conditions -/

/-- What the program counter tells about the current cell. -/
structure LoopCondition (p : Program) (s : State δ) : Prop where
  /-- Just behind a jump that is taken if the cell is zero. -/
  inside : ∀ (a : Nat) (n : Int), p[a]? = some ⟨.jumpIfZero, n⟩ → s.registers.pc = a + 1 →
    s.cell ≠ 0
  /-- Just behind a jump that is taken if the cell is not zero. -/
  behind : ∀ (b : Nat) (n : Int), p[b]? = some ⟨.jumpIfNonzero, n⟩ → s.registers.pc = b + 1 →
    s.cell = 0

/-- The conditions at the two ends of each loop are all there is to show. -/
theorem LoopCondition.of_loopEnds (hp : Matched p.toList 0 p.size)
    (hinside : ∀ a b, LoopEnds p.toList a b → s.registers.pc = a + 1 → s.cell ≠ 0)
    (hbehind : ∀ a b, LoopEnds p.toList a b → s.registers.pc = b + 1 → s.cell = 0) :
    s.LoopCondition p := by
  constructor
  · intro a n ha hpc
    obtain ⟨b, hloop⟩ := hp.exists_end ha
    exact hinside a b hloop hpc
  · intro b n hb hpc
    obtain ⟨a, hloop⟩ := hp.exists_beginning hb
    exact hbehind a b hloop hpc

/-- At the beginning nothing has been passed. -/
theorem LoopCondition.of_pc_eq_zero (hpc : s.registers.pc = 0) : s.LoopCondition p where
  inside a _ _ h := absurd (hpc.symm.trans h) (Nat.succ_ne_zero a).symm
  behind b _ _ h := absurd (hpc.symm.trans h) (Nat.succ_ne_zero b).symm

/-- **Wherever a turn arrives, the condition holds.** Nothing need be known of the state before. -/
theorem Arrives.loopCondition (hp : Matched p.toList 0 p.size) (h : s.Arrives p.toList t) :
    t.LoopCondition p := by
  cases h with
  | next hi hjump hpc =>
    -- The instruction that has been passed is no end of a loop.
    refine .of_loopEnds hp ?_ ?_
    · intro a b hloop ha
      exact absurd (by omega) (hloop.ne_of_run hi hjump).1
    · intro a b hloop hb
      exact absurd (by omega) (hloop.ne_of_run hi hjump).2
  | @inside a b hloop _ hcell hsame hpc =>
    refine .of_loopEnds hp ?_ ?_
    · intro a' b' _ _
      rwa [hsame]
    · intro a' b' hloop' hb
      exact absurd (by omega) (hloop'.ne_of_ends hloop)
  | @behind a b hloop _ hcell hsame hpc =>
    refine .of_loopEnds hp ?_ ?_
    · intro a' b' hloop' ha
      exact absurd (by omega) (hloop.ne_of_ends hloop')
    · intro a' b' _ _
      rwa [hsame]

/-! ## §3 Loops behind loops -/

/-- The program counter is in the body of the loop between two addresses, or at its end. -/
def IsInside (a e : Nat) (s : State δ) : Prop := a < s.registers.pc ∧ s.registers.pc ≤ e

/-- **A loop can be entered at its beginning only**, and only if the cell is not zero there. -/
theorem Arrives.not_isInside {e lo : Nat} (hp : Matched l 0 l.length) (hloop : LoopEnds l lo e)
    (h : s.Arrives l t) (hs : ¬ s.IsInside lo e) (hlo : s.registers.pc = lo → s.cell = 0) :
    ¬ t.IsInside lo e := by
  rintro ⟨hafter, hbefore⟩
  -- The program counter has been outside of the body.
  have houtside : s.registers.pc ≤ lo ∨ e < s.registers.pc := by
    rw [IsInside] at hs
    omega
  cases h with
  | next hi hjump hpc =>
    have hne := (hloop.ne_of_run hi hjump).1
    omega
  | @inside a b hab hfrom hcell _ hpc =>
    have hlt := hab.lt
    rcases Nat.lt_trichotomy a lo with hless | rfl | hgreater
    · omega
    · -- It is this loop, and the beginning leads past it.
      obtain rfl := hloop.right_unique hab
      exact hcell (hlo (by omega))
    · -- A loop inside of this one has both ends there.
      have hinner := hp.apart lo e a b (Nat.zero_le lo) hloop.lt_length hloop hab hgreater
      omega
  | @behind a b hab hfrom _ _ hpc =>
    have hlt := hab.lt
    have hne := hab.ne_of_ends hloop
    rcases Nat.lt_trichotomy a lo with hless | rfl | hgreater
    · -- A loop around this one ends behind it.
      have houter := hp.apart a b lo e (Nat.zero_le a) hab.lt_length hab hloop hless
      omega
    · obtain rfl := hloop.right_unique hab
      omega
    · omega

end State

/-! ## §4 The last operator -/

/-- An instruction is written with its own symbol only. -/
theorem eq_symbol_of_mem_render {i : Instruction} {c : Char} (h : c ∈ i.render) :
    c = i.operator.symbol := by
  rw [Instruction.render] at h
  split at h
  · exact List.mem_singleton.mp h
  · exact List.eq_of_mem_replicate h

/-- If the last operator of a text is a closing bracket, then the last instruction jumps back. -/
theorem exists_last_of_compile {source : List Char} (h : compile source = .ok p)
    (hlast : (source.filter fun c => (Operator.ofSymbol? c).isSome).getLast? = some ']') :
    ∃ (b : Nat) (n : Int), p.size = b + 1 ∧ p[b]? = some ⟨.jumpIfNonzero, n⟩ := by
  have hrenders := renders_of_compile h
  rw [← flatten_blocks, ← hrenders] at hlast
  rcases List.eq_nil_or_concat' p.toList with hnil | ⟨before, ⟨op, n⟩, hconcat⟩
  · rw [hnil] at hlast
    cases hlast
  · -- The last instruction is written by at least one symbol, and the last one is the bracket.
    have hmem : Instruction.render ⟨op, n⟩ ∈ blocks source := by
      rw [← hrenders, hconcat]
      simp
    rw [hconcat, List.map_append, List.flatten_append, List.map_singleton, List.flatten_singleton,
      List.getLast?_append_of_ne_nil _ (ne_nil_of_mem_blocks hmem)] at hlast
    have hsymbol := eq_symbol_of_mem_render (List.mem_of_getLast? hlast)
    obtain rfl : Operator.jumpIfNonzero = op := symbol_inj hsymbol
    refine ⟨before.length, n, ?_, ?_⟩
    · rw [← Array.length_toList, hconcat]
      simp
    · rw [← Array.getElem?_toList, hconcat]
      simp

/-! ## §5 Machines -/

namespace Machine

variable [Device δ] {m : Machine δ} {s t : State δ}

/-- The condition holds in every state of the one-instruction machine. -/
theorem Visits.loopCondition (hp : Matched p.toList 0 p.size) {n : Nat} (h : m.Visits p n s) :
    s.LoopCondition p :=
  h.induction (.of_pc_eq_zero rfl) fun hturn _ =>
    (State.arrives_of_turn_next hp hturn).loopCondition hp

/-- Behind a jump back no loop is entered. -/
theorem Visits.not_isInside (hp : Matched p.toList 0 p.size) {b e : Nat} {target : Int}
    (hb : p[b]? = some ⟨.jumpIfNonzero, target⟩) (hloop : LoopEnds p.toList (b + 1) e) {n : Nat}
    (h : m.Visits p n s) : ¬ s.IsInside (b + 1) e := by
  -- What keeps the program counter out of the loop is the condition at its beginning.
  refine (h.induction (P := fun s => s.LoopCondition p ∧ ¬ s.IsInside (b + 1) e) ?_ ?_).2
  · refine ⟨.of_pc_eq_zero rfl, ?_⟩
    rintro ⟨hafter, -⟩
    exact Nat.not_lt_zero _ hafter
  · rintro s t hturn ⟨hcondition, houtside⟩
    have harrives := State.arrives_of_turn_next hp hturn
    refine ⟨harrives.loopCondition hp, ?_⟩
    exact harrives.not_isInside hp hloop houtside (hcondition.behind b target hb)

/-- A run that returns has come to the end of the program. -/
theorem Ends.pc_eq_size (hp : p.Admissible) (hjumps : p.JumpsInside) (h : m.Ends p none t) :
    t.registers.pc = p.size ∧ ∃ n, m.Visits p n t := by
  obtain ⟨n, r, hr, hstops⟩ := (ends_iff_visits hp).mp h
  obtain ⟨hend, rfl⟩ := State.stops_none_iff.mp hstops
  have hle : t.registers.pc ≤ p.size :=
    hr.induction (P := fun s => s.registers.pc ≤ p.size) (Nat.zero_le _)
      fun hturn _ => State.pc_le_size_of_turn_next hjumps hturn
  exact ⟨Nat.le_antisymm hle (Array.getElem?_eq_none_iff.mp hend), n, hr⟩

/-- **Loop conditions hold** in every run of a compiled program, whenever the kernel is between two
instructions: behind the jump at the beginning of a loop the current cell is not zero, and behind
the jump at its end it is zero. So a loop that directly follows on another one is never entered,
and if the last operator of the text closes a loop, then a run that returns leaves a zero in the
current cell. -/
theorem loop_conditions_hold {source : List Char} (h : compile source = .ok p)
    (hlength : source.length < int64Bound) (m : Machine δ) :
    (∀ s, m.Passes p s → s.LoopCondition p) ∧
    (∀ b, (blocks source)[b]? = some [']'] → (blocks source)[b + 1]? = some ['['] →
      ∃ e, b + 1 < e ∧ p[b + 1]? = some ⟨.jumpIfZero, e + 1⟩ ∧
        p[e]? = some ⟨.jumpIfNonzero, (b + 1 : Nat) + 1⟩ ∧
        ∀ s, m.Passes p s → ¬ (b + 1 < s.registers.pc ∧ s.registers.pc ≤ e)) ∧
    ∀ t, (source.filter fun c => (Operator.ofSymbol? c).isSome).getLast? = some ']' →
      m.Ends p none t → t.cell = 0 := by
  have hp := admissible_of_compile h hlength
  have hmatched := matched_of_compile h
  -- A block of one bracket is written by one jump.
  have hjump : ∀ (a : Nat) (op : Operator), (blocks source)[a]? = some [op.symbol] →
      ∃ n, p[a]? = some ⟨op, n⟩ := by
    intro a op hblock
    rw [← renders_of_compile h, List.getElem?_map, Array.getElem?_toList,
      Option.map_eq_some_iff] at hblock
    obtain ⟨⟨op', n⟩, hi, hrender⟩ := hblock
    obtain rfl : op' = op := operator_eq_of_render hrender
    exact ⟨n, hi⟩
  refine ⟨?_, ?_, ?_⟩
  · intro s hs
    exact ((passes_iff_visits hp).mp hs).loopCondition hmatched
  · intro b hclosing hopening
    obtain ⟨target, hb⟩ := hjump b .jumpIfNonzero hclosing
    obtain ⟨n, hn⟩ := hjump (b + 1) .jumpIfZero hopening
    obtain ⟨e, hloop⟩ := hmatched.exists_end hn
    have henters := hloop.enters
    have hrepeats := hloop.repeats
    rw [Array.getElem?_toList] at henters hrepeats
    refine ⟨e, hloop.lt, henters, hrepeats, ?_⟩
    intro s hs
    exact ((passes_iff_visits hp).mp hs).not_isInside hmatched hb hloop
  · intro t hlast hends
    obtain ⟨b, n, hsize, hb⟩ := exists_last_of_compile h hlast
    obtain ⟨hpc, k, hvisits⟩ := hends.pc_eq_size hp (jumpsInside_of_compile h)
    exact (hvisits.loopCondition hmatched).behind b n hb (hpc.trans hsize)

/-- Loop conditions in a program of two loops, of which the second directly follows on the first. -/
theorem loop_conditions_hold_two_loops :
    compile ['+', '[', '-', ']', '[', '+', ']'] =
      .ok #[⟨.increment, 1⟩, ⟨.jumpIfZero, 4⟩, ⟨.decrement, 1⟩, ⟨.jumpIfNonzero, 2⟩,
        ⟨.jumpIfZero, 7⟩, ⟨.increment, 1⟩, ⟨.jumpIfNonzero, 5⟩] ∧
    ∃ m : Machine Ports, ∃ s t,
      m.Passes #[⟨.increment, 1⟩, ⟨.jumpIfZero, 4⟩, ⟨.decrement, 1⟩, ⟨.jumpIfNonzero, 2⟩,
        ⟨.jumpIfZero, 7⟩, ⟨.increment, 1⟩, ⟨.jumpIfNonzero, 5⟩] s ∧
      s.registers.pc = 2 ∧ s.cell ≠ 0 ∧
      m.Ends #[⟨.increment, 1⟩, ⟨.jumpIfZero, 4⟩, ⟨.decrement, 1⟩, ⟨.jumpIfNonzero, 2⟩,
        ⟨.jumpIfZero, 7⟩, ⟨.increment, 1⟩, ⟨.jumpIfNonzero, 5⟩] none t ∧ t.cell = 0 := by
  have hcompile : compile ['+', '[', '-', ']', '[', '+', ']'] =
      .ok #[⟨.increment, 1⟩, ⟨.jumpIfZero, 4⟩, ⟨.decrement, 1⟩, ⟨.jumpIfNonzero, 2⟩,
        ⟨.jumpIfZero, 7⟩, ⟨.increment, 1⟩, ⟨.jumpIfNonzero, 5⟩] := by rfl
  have hp := admissible_of_compile hcompile (by decide)
  obtain ⟨hcondition, -, hreturn⟩ := loop_conditions_hold hcompile (by decide)
    (Machine.new { tapeSize := 1 } (Ports.inMemory []))
  -- The run enters the first loop, and it returns.
  have hpasses := (passes_iff_visits (m := Machine.new { tapeSize := 1 } (Ports.inMemory []))
    (s := ⟨⟨2, 0, 2, #[1]⟩, Ports.inMemory []⟩) hp).mpr rfl
  have hends := (execute_iff_runToEnd hp (Machine.new { tapeSize := 1 } (Ports.inMemory [])) none
    ⟨⟨7, 0, 5, #[0]⟩, Ports.inMemory []⟩).mpr ⟨6, rfl⟩
  exact ⟨hcompile, _, _, _, hpasses, rfl, (hcondition _ hpasses).inside 1 4 rfl rfl, hends,
    hreturn _ rfl hends⟩

end Machine

end FoldTape
