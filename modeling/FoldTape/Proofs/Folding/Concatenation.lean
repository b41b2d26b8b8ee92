import FoldTape.Proofs.Folding.Commentary
import FoldTape.Proofs.Folding.Inverse

/-!
# Compiling texts that are put together

The program of two texts, one after the other, is the program of the first one and then that of the
second one, moved to where it now stands. Only a run can reach over the place where the texts meet;
then it is one instruction. A text in brackets is compiled to its program as the body of a loop.

The argument does not follow the builder. A program that is well formed and is written as the
blocks of a text is what the text is compiled to (`compile_of_renders`), so it is enough to put
blocks together, and to put together instructions.

## Architecture

- **§1 Blocks of two texts**: `blocks_append_apart`, `blocks_append_joined`.
- **§2 Instructions at another address**: `Nested.append`, `Nested.relocate`.
- **§3 Programs**: one lemma for each way in which texts can meet, and `compile_compositional`.
-/

namespace FoldTape

variable {s t : List Char} {op : Operator}

/-! ## §1 Blocks of two texts -/

/-- A run goes on from the end of one text to the beginning of another. -/
structure GoesOn (op : Operator) (s t : List Char) : Prop where
  run : op.isJump = false
  last : s.getLast? = some op.symbol
  head : t.head? = some op.symbol

/-- No run goes on after a character that belongs to none. -/
theorem not_goesOn_concat {c : Char}
    (hc : ∀ op : Operator, op.isJump = false → c ≠ op.symbol) : ¬ GoesOn op (s ++ [c]) t := by
  intro h
  have hlast := h.last
  rw [List.getLast?_concat, Option.some.injEq] at hlast
  exact hc op h.run hlast

theorem comment_ne_symbol {c : Char} (hc : Operator.ofSymbol? c = none) (op : Operator) :
    c ≠ op.symbol := by
  rintro rfl
  rw [Operator.ofSymbol?_symbol] at hc
  cases hc

theorem bracket_ne_symbol {c : Char} (hc : c = '[' ∨ c = ']') {op : Operator}
    (hop : op.isJump = false) : c ≠ op.symbol := by
  rintro rfl
  rw [isJump_iff.mpr hc] at hop
  cases hop

/-- **Where no run goes on**, the blocks of two texts are those of the one and those of the
other. -/
theorem blocks_append_apart (h : ∀ op, ¬ GoesOn op s t) :
    blocks (s ++ t) = blocks s ++ blocks t := by
  -- Comments at the beginning of the second text are passed over one by one.
  induction t generalizing s with
  | nil => simp
  | cons c t ih =>
    cases hc : Operator.ofSymbol? c with
    | none =>
      have hafter : ∀ s op, ¬ GoesOn op (s ++ [c]) t :=
        fun s op => not_goesOn_concat fun op _ => comment_ne_symbol hc op
      have hcomment : blocks [c] = [] := blocks_concat_comment (s := []) hc
      calc blocks (s ++ c :: t)
          = blocks ((s ++ [c]) ++ t) := by rw [List.append_assoc, List.singleton_append]
        _ = blocks s ++ blocks t := by rw [ih (hafter s), blocks_concat_comment hc]
        _ = blocks s ++ blocks ([] ++ [c] ++ t) := by
            rw [ih (hafter []), List.nil_append, hcomment, List.nil_append]
    | some op =>
      obtain rfl := Operator.ofSymbol?_eq_some_iff.mp hc
      apply blocks_append
      intro x hx y hy
      rw [List.head?_cons, Option.mem_some] at hy
      subst hy
      rw [← Bool.not_eq_true, sameBlock_symbol]
      rintro ⟨rfl, hop⟩
      exact h op ⟨hop, hx, rfl⟩

/-- The last character of a text is repeated from where another one comes before it, or from the
beginning. -/
theorem exists_append_replicate {c : Char} (hs : s.getLast? = some c) :
    ∃ u j, s = u ++ List.replicate (j + 1) c ∧ u.getLast? ≠ some c := by
  rw [List.getLast?_eq_head?_reverse, List.head?_eq_some_iff] at hs
  obtain ⟨v, hv⟩ := hs
  obtain ⟨j, u, hu, hhead⟩ := exists_replicate_append c v
  refine ⟨u.reverse, j, ?_, ?_⟩
  · rw [← List.reverse_reverse s, hv, hu, List.reverse_append, List.reverse_replicate]
  · rwa [List.getLast?_reverse]

/-- **Where a run goes on**, the last block of the first text and the first one of the second text
are one block. -/
theorem blocks_append_joined (h : GoesOn op s t) :
    ∃ bs cs j k, blocks s = bs ++ [List.replicate (j + 1) op.symbol] ∧
      blocks t = List.replicate (k + 1) op.symbol :: cs ∧
      blocks (s ++ t) = bs ++ List.replicate (j + 1 + (k + 1)) op.symbol :: cs := by
  obtain ⟨c, t', ht⟩ : ∃ c t', t = c :: t' := List.exists_cons_of_ne_nil (by
    rintro rfl
    cases h.head)
  obtain rfl : c = op.symbol := by
    have hhead := h.head
    rw [ht, List.head?_cons, Option.some.injEq] at hhead
    exact hhead
  obtain ⟨u, j, rfl, hu⟩ := exists_append_replicate h.last
  obtain ⟨k, v, hv, hafter⟩ := exists_replicate_append op.symbol t'
  obtain rfl : t = List.replicate (k + 1) op.symbol ++ v := ht.trans hv
  refine ⟨blocks u, blocks v, j, k, ?_, ?_, ?_⟩
  · exact (blocks_append_run h.run j hu hafter).1
  · exact (blocks_append_run (u := []) h.run k (by simp) hafter).2
  · -- Both parts of the run together are a run between `u` and `v`.
    have htogether := (blocks_append_run h.run (j + 1 + k) hu hafter).2
    have hrun : List.replicate (j + 1) op.symbol ++ List.replicate (k + 1) op.symbol =
        List.replicate (j + 1 + k + 1) op.symbol := List.replicate_append_replicate
    calc blocks (u ++ List.replicate (j + 1) op.symbol ++ (List.replicate (k + 1) op.symbol ++ v))
        = blocks (u ++ List.replicate (j + 1 + k + 1) op.symbol ++ v) := by
          rw [← hrun]
          simp only [List.append_assoc]
      _ = blocks u ++ List.replicate (j + 1 + (k + 1)) op.symbol :: blocks v := by
          rw [htogether, List.append_assoc]
          rfl

/-! ## §2 Instructions at another address -/

/-- The instruction with its jump target, if it is a jump, mapped. -/
def Instruction.mapTarget (g : Int → Int) (i : Instruction) : Instruction :=
  if i.operator.isJump then { i with operand := g i.operand } else i

section Targets

variable {g : Int → Int} {i : Instruction}

theorem Instruction.mapTarget_run (hi : i.operator.isJump = false) : i.mapTarget g = i := by
  simp [Instruction.mapTarget, hi]

@[simp] theorem Instruction.operator_mapTarget : (i.mapTarget g).operator = i.operator := by
  unfold Instruction.mapTarget
  split <;> rfl

/-- Where a jump leads to does not show in the text. -/
@[simp] theorem Instruction.render_mapTarget : (i.mapTarget g).render = i.render := by
  unfold Instruction.mapTarget
  split
  · rename_i hi
    simp [Instruction.render, hi]
  · rfl

/-- The same for a map of addresses. -/
abbrev Instruction.retarget (f : Nat → Nat) : Instruction → Instruction :=
  Instruction.mapTarget fun n => f n.toNat

end Targets

theorem Program.toList_shift (p : Program) (d : Int) :
    (p.shift d).toList = p.toList.map (Instruction.mapTarget (· + d)) := by
  simp only [Program.shift, Array.toList_map]
  rfl

theorem Program.map_render_shift (p : Program) (d : Int) :
    (p.shift d).toList.map Instruction.render = p.toList.map Instruction.render := by
  simp [Program.toList_shift]

variable {d : Int} {i : Instruction} {l m : List Instruction} {a b : Nat}

namespace Nested

/-- Runs and whole loops, and behind them more of these. -/
theorem append (hl : Nested a l) (hm : Nested (a + l.length) m) : Nested a (l ++ m) := by
  induction hl with
  | nil a => exact hm
  | @run a i rest hi hpositive _ ih =>
    rw [List.length_cons, ← Nat.add_assoc, Nat.add_right_comm] at hm
    exact .run hi hpositive (ih hm)
  | @loop a body rest hbody _ _ ih =>
    rw [List.cons_append, List.append_assoc, List.cons_append]
    refine .loop hbody (ih ?_)
    have haddress : a + body.length + 2 + rest.length =
        a + (⟨.jumpIfZero, a + body.length + 2⟩ ::
          (body ++ ⟨.jumpIfNonzero, a + 1⟩ :: rest) : List Instruction).length := by
      simp only [List.length_cons, List.length_append]
      omega
    rwa [haddress]

/-- **Runs and whole loops can be moved** to another address, if the jump targets are moved by the
same distance. -/
theorem relocate (h : Nested a l) (hd : (b : Int) = a + d) :
    Nested b (l.map (Instruction.mapTarget (· + d))) := by
  -- The distance stays the same in the body of a loop and behind it.
  induction h generalizing b with
  | nil a => exact .nil b
  | @run a i rest hi hpositive _ ih =>
    rw [List.map_cons, Instruction.mapTarget_run hi]
    exact .run hi hpositive (ih (by omega))
  | @loop a body rest _ _ ihbody ihrest =>
    have hopen : Instruction.mapTarget (· + d) ⟨.jumpIfZero, a + body.length + 2⟩ =
        ⟨.jumpIfZero, b + (body.map (Instruction.mapTarget (· + d))).length + 2⟩ := by
      simp only [Instruction.mapTarget, Operator.isJump, if_true, List.length_map,
        Instruction.mk.injEq, true_and]
      omega
    have hclose : Instruction.mapTarget (· + d) ⟨.jumpIfNonzero, a + 1⟩ =
        ⟨.jumpIfNonzero, b + 1⟩ := by
      simp only [Instruction.mapTarget, Operator.isJump, if_true, Instruction.mk.injEq, true_and]
      omega
    rw [List.map_cons, List.map_append, List.map_cons, hopen, hclose]
    refine .loop (ihbody (by omega)) (ihrest ?_)
    rw [List.length_map]
    omega

/-- A run at the end can be taken off. -/
theorem of_concat_run (h : Nested a (l ++ [i])) (hi : i.operator.isJump = false) :
    Nested a l := by
  -- The run stands behind the last loop, or behind the last run.
  generalize hm : l ++ [i] = m at h
  induction h generalizing l with
  | nil a => simp at hm
  | @run a j rest hj hpositive _ ih =>
    cases l with
    | nil =>
      exact .nil a
    | cons k l =>
      rw [List.cons_append, List.cons.injEq] at hm
      obtain ⟨rfl, hrest⟩ := hm
      exact .run hj hpositive (ih hrest)
  | @loop a body rest hbody _ _ ih =>
    rcases List.eq_nil_or_concat rest with rfl | ⟨rest, j, rfl⟩
    · -- The last instruction is the end of a loop.
      have hlast := congrArg List.getLast? hm
      rw [← List.cons_append, List.getLast?_concat, List.getLast?_concat, Option.some.injEq]
        at hlast
      rw [hlast] at hi
      cases hi
    · rw [List.concat_eq_append] at hm ih
      have hsplit : l ++ [i] = (⟨.jumpIfZero, a + body.length + 2⟩ ::
          (body ++ ⟨.jumpIfNonzero, a + 1⟩ :: rest)) ++ [j] := by
        simpa using hm
      obtain ⟨rfl, hij⟩ := List.append_inj' hsplit rfl
      exact .loop hbody (ih (by rw [hij]))

/-- What comes after a run at the beginning. -/
theorem tail_run (h : Nested a (i :: l)) (hi : i.operator.isJump = false) :
    Nested (a + 1) l := by
  cases h with
  | run _ _ hrest => exact hrest
  | loop => cases hi

end Nested

/-! ## §3 Programs -/

variable {p q : Program}

theorem wellFormed_of_compile (h : compile s = .ok p) : p.WellFormed :=
  p.wellFormed_iff.mpr (matched_of_compile h)

/-- The instructions of a program are written as the blocks of its source. -/
theorem renders_of_compile (h : compile s = .ok p) :
    p.toList.map Instruction.render = blocks s := by
  obtain ⟨loops, hp⟩ := describes_of_compile h
  exact hp.renders

/-- **A well-formed program that is written as the blocks of a text** is what the text is compiled
to. -/
theorem compile_of_renders (hp : p.WellFormed) (h : p.toList.map Instruction.render = blocks s) :
    compile s = .ok p := by
  have hrender := compile_render hp
  exact compile_of_blocks_eq ((renders_of_compile hrender).symm.trans h) hrender

/-- Two texts between which no run goes on. -/
theorem compile_append_apart (hs : compile s = .ok p) (ht : compile t = .ok q)
    (h : ∀ op, ¬ GoesOn op s t) : compile (s ++ t) = .ok (p ++ q.shift p.size) := by
  apply compile_of_renders
  · rw [Program.WellFormed, Array.toList_append, Program.toList_shift]
    refine (wellFormed_of_compile hs).append ((wellFormed_of_compile ht).relocate ?_)
    rw [Array.length_toList]
    omega
  · rw [Array.toList_append, List.map_append, Program.map_render_shift, renders_of_compile hs,
      renders_of_compile ht, blocks_append_apart h]

/-- **Two texts with a comment between them.** -/
theorem compile_append_comment {c : Char} (hs : compile s = .ok p) (ht : compile t = .ok q)
    (hc : Operator.ofSymbol? c = none) :
    compile (s ++ c :: t) = .ok (p ++ q.shift p.size) := by
  have hs' : compile (s ++ [c]) = .ok p :=
    compile_of_blocks_eq (blocks_concat_comment hc).symm hs
  have happend := compile_append_apart hs' ht fun op =>
    not_goesOn_concat fun op _ => comment_ne_symbol hc op
  rwa [List.append_assoc, List.singleton_append] at happend

/-- A run at the end of one text that goes on at the beginning of the other. -/
theorem compile_append_joined (hs : compile s = .ok p) (ht : compile t = .ok q)
    (h : GoesOn op s t) :
    ∃ (init rest : Program) (m n : Int), p = init.push ⟨op, m⟩ ∧ q = #[⟨op, n⟩] ++ rest ∧
      compile (s ++ t) = .ok (init.push ⟨op, m + n⟩ ++ rest.shift (p.size - 1)) := by
  obtain ⟨bs, cs, j, k, hbs, hcs, htogether⟩ := blocks_append_joined h
  -- The instructions of the two parts of the run can be told from what they are written as.
  have hp := renders_of_compile hs
  have hq := renders_of_compile ht
  rw [hbs, List.map_eq_append_iff] at hp
  rw [hcs, List.map_eq_cons_iff] at hq
  obtain ⟨init, last, hplist, hinit, hlast⟩ := hp
  obtain ⟨first, rest, hqlist, hfirst, hrest⟩ := hq
  obtain ⟨i, rfl, hi⟩ := List.map_eq_singleton_iff.mp hlast
  obtain rfl := eq_of_render_run h.run hi
  obtain rfl := eq_of_render_run h.run hfirst
  -- What is before the run stays where it is; what is behind it is moved.
  have hwfp := wellFormed_of_compile hs
  have hwfq := wellFormed_of_compile ht
  rw [Program.WellFormed, hplist] at hwfp
  rw [Program.WellFormed, hqlist] at hwfq
  have hwfinit := hwfp.of_concat_run h.run
  have hwfrest := hwfq.tail_run h.run
  have hsize : p.size = init.length + 1 := by
    rw [← Array.length_toList, hplist, List.length_append, List.length_singleton]
  have hsum : ((j + 1 : Nat) : Int) + (k + 1 : Nat) = (j + 1 + (k + 1) : Nat) := by omega
  have hpositive : (1 : Int) ≤ (j + 1 + (k + 1) : Nat) := by omega
  refine ⟨init.toArray, rest.toArray, (j + 1 : Nat), (k + 1 : Nat), ?_, ?_, ?_⟩
  · apply Array.toList_inj.mp
    rw [hplist, Array.toList_push]
  · apply Array.toList_inj.mp
    rw [hqlist, Array.toList_append]
    rfl
  · rw [hsum]
    apply compile_of_renders
    · rw [Program.WellFormed, Array.toList_append, Array.toList_push, Program.toList_shift,
        List.append_assoc]
      refine hwfinit.append (.run h.run hpositive (hwfrest.relocate ?_))
      omega
    · rw [Array.toList_append, Array.toList_push, List.map_append, List.map_append,
        Program.map_render_shift, hinit, List.map_singleton, render_run h.run, hrest, htogether,
        List.append_assoc, List.singleton_append]

/-- A text in brackets. -/
theorem compile_loop (hs : compile s = .ok p) :
    compile ('[' :: (s ++ [']'])) =
      .ok (#[⟨.jumpIfZero, p.size + 2⟩] ++ p.shift 1 ++ #[⟨.jumpIfNonzero, 1⟩]) := by
  have hopen : ∀ op, ¬ GoesOn op ([] ++ ['[']) (s ++ [']']) :=
    fun op => not_goesOn_concat fun op => bracket_ne_symbol (.inl rfl)
  have hclose : ∀ op, ¬ GoesOn op s [']'] := by
    intro op h
    exact bracket_ne_symbol (.inr rfl) h.run (Option.some.inj h.head)
  apply compile_of_renders
  · have hbody := (wellFormed_of_compile hs).relocate (b := 1) (d := 1) (by omega)
    rw [← Program.toList_shift] at hbody
    have hloop := @Nested.loop 0 _ _ hbody (.nil _)
    rw [Array.length_toList, Program.shift, Array.size_map] at hloop
    simpa [Program.WellFormed, Program.shift] using hloop
  · have hblocks : blocks ('[' :: (s ++ [']'])) = [['[']] ++ (blocks s ++ [[']']]) := by
      have hfirst := blocks_append_apart hopen
      rw [blocks_append_apart hclose] at hfirst
      exact hfirst
    rw [hblocks, Array.toList_append, Array.toList_append, List.map_append, List.map_append,
      Program.map_render_shift, renders_of_compile hs, List.append_assoc]
    rfl

/-- **Compiling is compositional.** For all texts that are compiled:

- one after the other, without a run that goes on from the one to the other, they are compiled to
  the one program and behind it the other one, with its jump targets moved by the length of the
  first one;
- with such a run they are compiled to the same but for the two parts of the run, which are one
  instruction: the operands are added, and what follows stands one address earlier;
- in brackets, a text is compiled to a loop with its program, moved by one, as the body. -/
theorem compile_compositional (hs : compile s = .ok p) (ht : compile t = .ok q) :
    ((∀ op, ¬ GoesOn op s t) → compile (s ++ t) = .ok (p ++ q.shift p.size)) ∧
    (∀ op, GoesOn op s t →
      ∃ (init rest : Program) (m n : Int), p = init.push ⟨op, m⟩ ∧ q = #[⟨op, n⟩] ++ rest ∧
        compile (s ++ t) = .ok (init.push ⟨op, m + n⟩ ++ rest.shift (p.size - 1))) ∧
    compile ('[' :: (s ++ [']'])) =
      .ok (#[⟨.jumpIfZero, p.size + 2⟩] ++ p.shift 1 ++ #[⟨.jumpIfNonzero, 1⟩]) :=
  ⟨compile_append_apart hs ht, fun _ => compile_append_joined hs ht, compile_loop hs⟩

/-- A loop and a run, in front of a run of the same operator and another loop. -/
theorem compile_compositional_runs :
    compile ['[', '-', ']', '+'] =
      .ok #[⟨.jumpIfZero, 3⟩, ⟨.decrement, 1⟩, ⟨.jumpIfNonzero, 1⟩, ⟨.increment, 1⟩] ∧
    compile ['+', '+', '[', '>', ']'] =
      .ok #[⟨.increment, 2⟩, ⟨.jumpIfZero, 4⟩, ⟨.moveRight, 1⟩, ⟨.jumpIfNonzero, 2⟩] ∧
    GoesOn .increment ['[', '-', ']', '+'] ['+', '+', '[', '>', ']'] ∧
    ∃ (init rest : Program) (m n : Int),
      #[⟨.jumpIfZero, 3⟩, ⟨.decrement, 1⟩, ⟨.jumpIfNonzero, 1⟩, ⟨.increment, 1⟩] =
        init.push ⟨.increment, m⟩ ∧
      #[⟨.increment, 2⟩, ⟨.jumpIfZero, 4⟩, ⟨.moveRight, 1⟩, ⟨.jumpIfNonzero, 2⟩] =
        #[⟨.increment, n⟩] ++ rest ∧
      compile ['[', '-', ']', '+', '+', '+', '[', '>', ']'] =
        .ok (init.push ⟨.increment, m + n⟩ ++ rest.shift 3) := by
  have hs : compile ['[', '-', ']', '+'] =
      .ok #[⟨.jumpIfZero, 3⟩, ⟨.decrement, 1⟩, ⟨.jumpIfNonzero, 1⟩, ⟨.increment, 1⟩] := by rfl
  have ht : compile ['+', '+', '[', '>', ']'] =
      .ok #[⟨.increment, 2⟩, ⟨.jumpIfZero, 4⟩, ⟨.moveRight, 1⟩, ⟨.jumpIfNonzero, 2⟩] := by rfl
  have hgoes : GoesOn .increment ['[', '-', ']', '+'] ['+', '+', '[', '>', ']'] :=
    ⟨rfl, rfl, rfl⟩
  exact ⟨hs, ht, hgoes, (compile_compositional hs ht).2.1 .increment hgoes⟩

end FoldTape
