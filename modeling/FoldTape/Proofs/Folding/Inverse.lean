import FoldTape.Proofs.Folding.Layout
import FoldTape.Proofs.Nesting

/-!
# Writing and compiling

A well-formed program that is written as text is compiled to itself, and what a source is compiled
to is well formed and is written as the source without its comments. So the well-formed programs
are those that the compiler makes, and each is determined by the operators of its source.

## Architecture

- **§1 Written programs**: a text comes apart where the program does.
- **§2 Reading a written program**: each run and each loop is read as what it was
  (`Builder.feedAll_renderAll`).
- **§3 Compiled programs**: their jumps are matched (`matched_of_compile`).
- **§4 Both ways**: `compile_inverts_render`.
-/

namespace FoldTape

/-! ## §1 Written programs -/

/-- What is written between an instruction and those that follow. -/
def gap (i : Instruction) : List Instruction → List Char
  | j :: _ => if i.runsInto j then [' '] else []
  | [] => []

theorem renderAll_cons (i : Instruction) (l : List Instruction) :
    renderAll (i :: l) = i.render ++ (gap i l ++ renderAll l) := by
  cases l <;> simp [renderAll, gap]

theorem gap_of_isJump {i : Instruction} (hi : i.operator.isJump = true) (l : List Instruction) :
    gap i l = [] := by
  cases l <;> simp [gap, Instruction.runsInto, hi]

/-- Nothing is written between an instruction and a bracket. -/
theorem renderAll_append_jump {j : Instruction} (hj : j.operator.isJump = true)
    (l rest : List Instruction) :
    renderAll (l ++ j :: rest) = renderAll l ++ renderAll (j :: rest) := by
  induction l with
  | nil => rfl
  | cons i l ih =>
    have hgap : gap i (l ++ j :: rest) = gap i l := by
      cases l with
      | nil =>
        -- What runs into a bracket would be a bracket.
        have hapart : i.runsInto j = false := by
          rw [Instruction.runsInto]
          by_cases hsame : i.operator = j.operator
          · simp [hsame, hj]
          · simp [hsame]
        simp [gap, hapart]
      | cons k l => rfl
    rw [List.cons_append, renderAll_cons, renderAll_cons, ih, hgap]
    simp only [List.append_assoc]

/-! ## §2 Reading a written program -/

namespace Builder

variable {op : Operator} {b : Builder}

theorem isUnmatched_of_ne {c : Char} (hc : c ≠ ']') (b : Builder) : b.isUnmatched c = false := by
  have hne : c ≠ Operator.jumpIfNonzero.symbol := hc
  rw [isUnmatched, decide_eq_false hne, Bool.false_and]

/-- The six operators that fold are read alike. -/
theorem feed_run (hop : op.isJump = false) (previous : Option Char) (position : Nat)
    (b : Builder) :
    b.feed previous position op.symbol =
      if previous = some op.symbol then b.extendRun else b.startRun op := by
  rw [feed, Operator.ofSymbol?_symbol]
  cases op with
  | jumpIfZero | jumpIfNonzero => cases hop
  | _ => rfl

theorem isUnmatched_run (hop : op.isJump = false) (b : Builder) :
    b.isUnmatched op.symbol = false := by
  apply isUnmatched_of_ne
  intro hclose
  rw [isJump_iff.mpr (.inr hclose)] at hop
  cases hop

/-- One more repetition of the operator of the last instruction. -/
theorem extendRun_push (code : Program) (i : Instruction) (opened : List OpenLoop) (loops : Nat) :
    extendRun ⟨code.push i, opened, loops⟩ =
      ⟨code.push { i with operand := i.operand + 1 }, opened, loops⟩ := by
  have hmodify : (code.push i).modify ((code.push i).size - 1)
      (fun i => { i with operand := i.operand + 1 }) =
        code.push { i with operand := i.operand + 1 } := by
    apply Array.ext_getElem?
    intro a
    rw [Array.size_push, Nat.add_sub_cancel, Array.getElem?_modify, Array.getElem?_push,
      Array.getElem?_push]
    by_cases ha : a = code.size
    · simp [ha]
    · rw [if_neg (Ne.symm ha), if_neg ha, if_neg ha]
  rw [extendRun, hmodify]

/-- More repetitions of the operator of the last instruction. -/
theorem feedAll_more (hop : op.isJump = false) (k : Nat) (position : Nat) (n : Int)
    (code : Program) (opened : List OpenLoop) (loops : Nat) :
    feedAll (some op.symbol) position (List.replicate k op.symbol)
        ⟨code.push ⟨op, n⟩, opened, loops⟩ =
      .ok () ⟨code.push ⟨op, n + k⟩, opened, loops⟩ := by
  induction k generalizing position n with
  | zero => simp [feedAll]
  | succ k ih =>
    rw [List.replicate_succ, feedAll, isUnmatched_run hop, feed_run hop, if_pos rfl,
      extendRun_push]
    have hcount : n + (k + 1 : Nat) = n + 1 + k := by omega
    rw [hcount]
    exact ih (position + 1) (n + 1)

/-- **A run** is read as the instruction that it was written from, unless it goes on with what was
read before. -/
theorem feedAll_run {i : Instruction} (hi : i.operator.isJump = false) (hpositive : 1 ≤ i.operand)
    {previous : Option Char} (hprevious : previous ≠ some i.operator.symbol) (position : Nat)
    (b : Builder) :
    feedAll previous position i.render b = .ok () ⟨b.code.push i, b.opened, b.loops⟩ ∧
      i.render.getLast? = some i.operator.symbol := by
  obtain ⟨code, opened, loops⟩ := b
  obtain ⟨op, n⟩ := i
  have hpositive : 1 ≤ n := hpositive
  obtain ⟨k, rfl⟩ : ∃ k : Nat, n = (k + 1 : Nat) := ⟨n.toNat - 1, by omega⟩
  have hcount : ((k + 1 : Nat) : Int) = 1 + k := by omega
  rw [render_run hi]
  refine ⟨?_, by simp [List.getLast?_replicate]⟩
  rw [List.replicate_succ, feedAll, isUnmatched_run hi, feed_run hi, if_neg hprevious, hcount]
  exact feedAll_more hi k (position + 1) 1 code opened loops

/-- After a run and what is written behind it, the next instruction is no part of the run. -/
theorem exists_feedAll_gap (i : Instruction) (l : List Instruction) (position : Nat)
    (t : List Char) (b : Builder) :
    ∃ previous position', feedAll (some i.operator.symbol) position (gap i l ++ t) b =
        feedAll previous position' t b ∧
      ∀ j ∈ l.head?, j.operator.isJump = false → previous ≠ some j.operator.symbol := by
  cases l with
  | nil => exact ⟨_, position, rfl, nofun⟩
  | cons j l =>
    by_cases hjoin : i.runsInto j = true
    · -- A blank ends the run.
      refine ⟨some ' ', position + 1, ?_, ?_⟩
      · simp only [gap, hjoin, if_true]
        rfl
      · intro k hk _
        cases k.operator <;> simp [Operator.symbol]
    · refine ⟨some i.operator.symbol, position, ?_, ?_⟩
      · simp only [gap, hjoin]
        rfl
      · intro k hk hkrun hsame
        rw [List.head?_cons, Option.mem_some] at hk
        subst hk
        have hoperator := symbol_inj (Option.some.inj hsame)
        simp [Instruction.runsInto, hoperator, hkrun] at hjoin

/-- A bracket is no part of a run. -/
theorem bracket_ne_run {c : Char} (hc : c = '[' ∨ c = ']') {l : List Instruction} :
    ∀ i ∈ l.head?, i.operator.isJump = false → some c ≠ some i.operator.symbol := by
  intro i _ hi hsame
  rw [Option.some.injEq] at hsame
  rw [isJump_iff.mpr (hsame ▸ hc)] at hi
  cases hi

/-- The code in which a loop with its body has been entered and closed. -/
theorem closedAt_append (code : Program) (body : List Instruction) :
    closedAt (code.push ⟨.jumpIfZero, 0⟩ ++ body.toArray) code.size =
      code ++ (⟨.jumpIfZero, code.size + body.length + 2⟩ ::
        (body ++ [⟨.jumpIfNonzero, code.size + 1⟩])).toArray := by
  apply Array.toList_inj.mp
  have hsize : ((code.push ⟨.jumpIfZero, 0⟩ ++ body.toArray).size + 1 : Nat) =
      (code.size + body.length + 2 : Int) := by
    simp only [Array.size_append, Array.size_push, List.size_toArray]
    omega
  rw [closedAt, hsize, Array.toList_setIfInBounds]
  simp

/-- A written loop is its two brackets with the body between them. -/
theorem renderAll_loop (n m : Int) (body rest : List Instruction) :
    renderAll (⟨.jumpIfZero, n⟩ :: (body ++ ⟨.jumpIfNonzero, m⟩ :: rest)) =
      '[' :: (renderAll body ++ ']' :: renderAll rest) := by
  rw [renderAll_cons, gap_of_isJump rfl, renderAll_append_jump rfl, renderAll_cons,
    gap_of_isJump rfl]
  rfl

/-- **A loop** is read as a loop if its body, read with the loop open, leaves as many loops open as
there were. -/
theorem feedAll_loop {body : List Instruction} {code : Program} {opened : List OpenLoop}
    {position loops loops' : Nat}
    (hbody : feedAll (some '[') (position + 1) (renderAll body)
        ⟨code.push ⟨.jumpIfZero, 0⟩, ⟨code.size, position⟩ :: opened, loops⟩ =
      .ok () ⟨code.push ⟨.jumpIfZero, 0⟩ ++ body.toArray, ⟨code.size, position⟩ :: opened, loops'⟩)
    (previous : Option Char) (t : List Char) :
    feedAll previous position ('[' :: (renderAll body ++ ']' :: t)) ⟨code, opened, loops⟩ =
      feedAll (some ']') (position + 1 + (renderAll body).length + 1) t
        ⟨code ++ (⟨.jumpIfZero, code.size + body.length + 2⟩ ::
          (body ++ [⟨.jumpIfNonzero, code.size + 1⟩])).toArray, opened, loops' + 1⟩ := by
  have hclosed : closeLoop ⟨code.push ⟨.jumpIfZero, 0⟩ ++ body.toArray,
      ⟨code.size, position⟩ :: opened, loops'⟩ =
        ⟨code ++ (⟨.jumpIfZero, code.size + body.length + 2⟩ ::
          (body ++ [⟨.jumpIfNonzero, code.size + 1⟩])).toArray, opened, loops' + 1⟩ := by
    rw [← closedAt_append, closedAt, ← Array.size_push]
    rfl
  calc feedAll previous position ('[' :: (renderAll body ++ ']' :: t)) ⟨code, opened, loops⟩
      = feedAll (some '[') (position + 1) (renderAll body ++ ']' :: t)
          ⟨code.push ⟨.jumpIfZero, 0⟩, ⟨code.size, position⟩ :: opened, loops⟩ := by
        rw [feedAll, isUnmatched_of_ne (by decide)]
        rfl
    _ = feedAll (some ']') (position + 1 + (renderAll body).length + 1) t
          (closeLoop ⟨code.push ⟨.jumpIfZero, 0⟩ ++ body.toArray,
            ⟨code.size, position⟩ :: opened, loops'⟩) := by
        rw [feedAll_append, hbody]
        rfl
    _ = _ := by rw [hclosed]

/-- **A written program is read as what it is**, on top of what has been read before, and leaves
as many loops open as there were. -/
theorem feedAll_renderAll {address : Nat} {l : List Instruction} (h : Nested address l)
    {b : Builder} (hsize : b.code.size = address) (position : Nat) (previous : Option Char)
    (hprevious : ∀ i ∈ l.head?, i.operator.isJump = false →
      previous ≠ some i.operator.symbol) :
    ∃ loops, feedAll previous position (renderAll l) b =
      .ok () ⟨b.code ++ l.toArray, b.opened, loops⟩ := by
  -- Induction on how the program is built, for whatever has been read before: the body of a loop is
  -- read with that loop open, and what follows it is not.
  induction h generalizing b position previous with
  | nil address => exact ⟨b.loops, by simp [renderAll, feedAll]⟩
  | @run address i rest hi hpositive _ ih =>
    obtain ⟨hrun, hlast⟩ := feedAll_run hi hpositive (hprevious i rfl hi) position b
    obtain ⟨previous', position', hgap, hnext⟩ := exists_feedAll_gap i rest
      (position + i.render.length) (renderAll rest) ⟨b.code.push i, b.opened, b.loops⟩
    obtain ⟨loops, hrest⟩ := ih (b := ⟨b.code.push i, b.opened, b.loops⟩)
      (by rw [Array.size_push, hsize]) position' _ hnext
    refine ⟨loops, ?_⟩
    rw [renderAll_cons, feedAll_append, hrun, hlast, Option.some_or]
    simp only
    rw [hgap, hrest]
    simp
  | @loop address body rest _ _ ihbody ihrest =>
    subst hsize
    obtain ⟨code, opened, loops⟩ := b
    obtain ⟨loops', hbody⟩ := ihbody
      (b := ⟨code.push ⟨.jumpIfZero, 0⟩, ⟨code.size, position⟩ :: opened, loops⟩)
      (Array.size_push _) (position + 1) _ (bracket_ne_run (.inl rfl))
    obtain ⟨loops'', hrest⟩ := ihrest
      (b := ⟨code ++ (⟨.jumpIfZero, code.size + body.length + 2⟩ ::
        (body ++ [⟨.jumpIfNonzero, code.size + 1⟩])).toArray, opened, loops' + 1⟩)
      (by simp; omega) (position + 1 + (renderAll body).length + 1) _ (bracket_ne_run (.inr rfl))
    refine ⟨loops'', ?_⟩
    rw [renderAll_loop, feedAll_loop hbody, hrest]
    simp

end Builder

/-- **A well-formed program that is written and compiled** is what it was. -/
theorem compile_render {p : Program} (h : p.WellFormed) : compile p.render = .ok p := by
  obtain ⟨loops, hfeed⟩ := Builder.feedAll_renderAll (b := .empty) h rfl 0 none nofun
  have hread : Builder.feedAll none 0 p.render Compiler.fresh.reset.state =
      .ok () ⟨p, [], loops⟩ := by
    refine hfeed.trans ?_
    simp [Builder.empty]
  rw [compile, Compiler.compile, hread]

/-! ## §3 Compiled programs -/

section Compiled

variable {s : List Char} {p : Program} {loops : Nat}

/-- The brackets of a loop become the two ends of a loop. -/
theorem LoopAt.loopEnds {i j : Nat} (h : LoopAt s p i j) :
    LoopEnds p.toList (blockAddress s i) (blockAddress s j) where
  lt := blockAddress_lt .jumpIfZero rfl h.opening h.lt
  enters := by
    rw [Array.getElem?_toList, h.enters]
  repeats := by
    rw [Array.getElem?_toList, h.repeats]

/-- Every loop of a compiled program comes from the brackets of a loop. -/
theorem exists_loopAt_of_loopEnds (hp : Builder.Describes s ⟨p, [], loops⟩) {a b : Nat}
    (h : LoopEnds p.toList a b) :
    ∃ i j, LoopAt s p i j ∧ a = blockAddress s i ∧ b = blockAddress s j := by
  have henters := h.enters
  rw [Array.getElem?_toList] at henters
  have hblock : (blocks s)[a]? = some [Operator.jumpIfZero.symbol] := by
    rw [hp.getElem?_blocks, henters]
    rfl
  obtain ⟨i, j, hloop, rfl | rfl⟩ := hp.exists_loopAt_of_jump rfl rfl hblock
  · exact ⟨i, j, hloop, rfl, h.right_unique hloop.loopEnds⟩
  · -- The second jump of a loop is not the first one of another.
    exact absurd rfl (hloop.loopEnds.ne_of_ends h)

/-- **The jumps of a compiled program are matched**, and none of its runs is empty. -/
theorem matched_of_compile (h : compile s = .ok p) : Matched p.toList 0 p.size := by
  obtain ⟨loops, hp⟩ := describes_of_compile h
  have hjump : ∀ {a : Nat} {i : Instruction}, p.toList[a]? = some i → i.operator.isJump = true →
      ∃ i j, LoopAt s p i j ∧ (a = blockAddress s i ∨ a = blockAddress s j) := by
    intro a i ha hi
    refine hp.exists_loopAt_of_jump rfl hi ?_
    rw [hp.getElem?_blocks, ← Array.getElem?_toList, ha, Option.map_some, Instruction.render,
      if_pos hi]
  constructor
  case runs =>
    intro a i _ _ ha hi
    have hblock := hp.getElem?_blocks a
    rw [← Array.getElem?_toList, ha, Option.map_some] at hblock
    have hne := ne_nil_of_mem_blocks (List.mem_of_getElem? hblock)
    rw [Instruction.render, hi, if_neg Bool.false_ne_true, ne_eq, List.replicate_eq_nil_iff] at hne
    omega
  case opens =>
    intro a n _ _ ha
    obtain ⟨i, j, hloop, rfl | rfl⟩ := hjump ha rfl
    · exact ⟨_, hloop.loopEnds.lt_length, hloop.loopEnds⟩
    · rw [hloop.loopEnds.repeats, Option.some.injEq, Instruction.mk.injEq] at ha
      cases ha.1
  case closes =>
    intro b n _ _ hb
    obtain ⟨i, j, hloop, rfl | rfl⟩ := hjump hb rfl
    · rw [hloop.loopEnds.enters, Option.some.injEq, Instruction.mk.injEq] at hb
      cases hb.1
    · exact ⟨_, Nat.zero_le _, hloop.loopEnds⟩
  case apart =>
    intro a b a' b' _ _ hab hab' haa' hab''
    obtain ⟨i, j, hloop, rfl, rfl⟩ := exists_loopAt_of_loopEnds hp hab
    obtain ⟨i', j', hloop', rfl, rfl⟩ := exists_loopAt_of_loopEnds hp hab'
    -- Addresses are in the order of the source, where loops do not overlap.
    have hii' : i < i' := Nat.lt_of_not_le fun hle => by
      have := blockAddress_mono s hle
      omega
    have hi'j : i' < j := Nat.lt_of_not_le fun hle => by
      have := blockAddress_mono s hle
      omega
    obtain ⟨q, hq, hqj⟩ := closingPartner?_lt hloop.partner hloop'.opening hii' hi'j
    rw [hloop'.partner, Option.some.injEq] at hq
    subst hq
    exact blockAddress_lt .jumpIfNonzero rfl (getElem?_of_closingPartner? hloop'.partner) hqj

end Compiled

/-! ## §4 Both ways -/

/-- An instruction is written without blanks. -/
theorem filter_render (i : Instruction) : i.render.filter (· ≠ ' ') = i.render := by
  have hne : i.operator.symbol ≠ ' ' := by
    cases i.operator <;> decide
  rw [List.filter_eq_self]
  intro c hc
  obtain rfl : c = i.operator.symbol := by
    rw [Instruction.render] at hc
    split at hc
    · exact List.mem_singleton.mp hc
    · exact List.eq_of_mem_replicate hc
  exact decide_eq_true hne

/-- Without the blanks, a written program is what its instructions are written as. -/
theorem filter_renderAll (l : List Instruction) :
    (renderAll l).filter (· ≠ ' ') = (l.map Instruction.render).flatten := by
  induction l with
  | nil => rfl
  | cons i l ih =>
    have hgap : (gap i l).filter (· ≠ ' ') = [] := by
      cases l with
      | nil => rfl
      | cons j l => cases h : i.runsInto j <;> simp [gap, h]
    rw [renderAll_cons, List.filter_append, List.filter_append, filter_render, hgap, ih,
      List.nil_append, List.map_cons, List.flatten_cons]

/-- **Writing and compiling are inverse to each other.** A program is well formed if it is built of
runs and whole loops, which is to say that its runs have at least one repetition, its jumps are the
ends of loops, each to just past the other, and loops do not overlap. Every well-formed program is
what its text is compiled to; and whatever a source is compiled to is well formed, and its text
without the blanks is the source without all that is no operator. -/
theorem compile_inverts_render :
    (∀ p : Program, p.WellFormed ↔ Matched p.toList 0 p.size) ∧
    (∀ p : Program, p.WellFormed → compile p.render = .ok p) ∧
    (∀ (source : List Char) (p : Program), compile source = .ok p →
      p.WellFormed ∧
      p.render.filter (· ≠ ' ') = source.filter fun c => (Operator.ofSymbol? c).isSome) := by
  refine ⟨Program.wellFormed_iff, fun p => compile_render, ?_⟩
  intro source p h
  obtain ⟨loops, hp⟩ := describes_of_compile h
  refine ⟨p.wellFormed_iff.mpr (matched_of_compile h), ?_⟩
  rw [Program.render, filter_renderAll, ← flatten_blocks, ← hp.renders]

/-- A comment between two runs of one operator is what the blank between them stands for. -/
theorem compile_inverts_render_comment :
    compile ['+', '+', 'x', '+', '[', '-', ']'] =
      .ok #[⟨.increment, 2⟩, ⟨.increment, 1⟩, ⟨.jumpIfZero, 5⟩, ⟨.decrement, 1⟩,
        ⟨.jumpIfNonzero, 3⟩] ∧
    Program.WellFormed #[⟨.increment, 2⟩, ⟨.increment, 1⟩, ⟨.jumpIfZero, 5⟩, ⟨.decrement, 1⟩,
      ⟨.jumpIfNonzero, 3⟩] ∧
    compile ['+', '+', ' ', '+', '[', '-', ']'] =
      .ok #[⟨.increment, 2⟩, ⟨.increment, 1⟩, ⟨.jumpIfZero, 5⟩, ⟨.decrement, 1⟩,
        ⟨.jumpIfNonzero, 3⟩] := by
  have hcompile : compile ['+', '+', 'x', '+', '[', '-', ']'] =
      .ok #[⟨.increment, 2⟩, ⟨.increment, 1⟩, ⟨.jumpIfZero, 5⟩, ⟨.decrement, 1⟩,
        ⟨.jumpIfNonzero, 3⟩] := by rfl
  obtain ⟨-, hrender, hsource⟩ := compile_inverts_render
  have hformed := (hsource _ _ hcompile).1
  exact ⟨hcompile, hformed, hrender _ hformed⟩

end FoldTape
