import FoldTape.Proofs.Folding.Acceptance
import FoldTape.Proofs.Folding.Inverse

/-!
# What commentary can change

A program depends on the blocks of its source and on nothing else, and which bracket is to blame
depends on the brackets before and after it. What stands between the blocks matters only where it
keeps two runs of one operator apart, so a stretch of commentary can be replaced by any other that
is not empty.

## Architecture

- **§1 The same runs**: `SameRuns`, kept by what is added at the end of both texts.
- **§2 Programs**: `compile_of_blocks_eq`.
- **§3 Blame**: `compile_error_iff`, `Imbalance.Blames`, which only looks at the blocks.
-/

namespace FoldTape

/-! ## §1 The same runs -/

/-- A text without operators. -/
def IsComment (text : List Char) : Prop := ∀ c ∈ text, Operator.ofSymbol? c = none

/-- Two texts have the same blocks, also with the same characters added to both. -/
structure SameRuns (s t : List Char) : Prop where
  blocks : blocks s = blocks t
  /-- An operator goes on with a run in the one text if it does in the other. -/
  last : ∀ op : Operator, s.getLast? = some op.symbol ↔ t.getLast? = some op.symbol

namespace SameRuns

variable {s t u v : List Char}

theorem refl (s : List Char) : SameRuns s s := ⟨rfl, fun _ => Iff.rfl⟩

theorem symm (h : SameRuns s t) : SameRuns t s := ⟨h.blocks.symm, fun op => (h.last op).symm⟩

theorem trans (h : SameRuns s t) (h' : SameRuns t u) : SameRuns s u :=
  ⟨h.blocks.trans h'.blocks, fun op => (h.last op).trans (h'.last op)⟩

/-- The same character may be added to both texts. -/
theorem concat (h : SameRuns s t) (c : Char) : SameRuns (s ++ [c]) (t ++ [c]) where
  blocks := by
    cases hop : Operator.ofSymbol? c with
    | none => rw [blocks_concat_comment hop, blocks_concat_comment hop, h.blocks]
    | some op =>
      obtain rfl := Operator.ofSymbol?_eq_some_iff.mp hop
      by_cases hstart : op.isJump = true ∨ s.getLast? ≠ some op.symbol
      · have hstart' : op.isJump = true ∨ t.getLast? ≠ some op.symbol :=
          hstart.imp_right fun hne => mt (h.last op).mpr hne
        rw [blocks_concat_start hstart, blocks_concat_start hstart', h.blocks]
      · -- In both texts the last block becomes longer, and it is the same block.
        rw [not_or, not_not, Bool.not_eq_true] at hstart
        obtain ⟨bs, k, hs, hsc⟩ := blocks_concat_extend hstart.1 hstart.2
        obtain ⟨bs', k', ht, htc⟩ := blocks_concat_extend hstart.1 ((h.last op).mp hstart.2)
        have hsame := h.blocks
        rw [hs, ht] at hsame
        obtain ⟨rfl, hlast⟩ := List.append_inj' hsame rfl
        have hlength := congrArg List.length (List.cons.inj hlast).1
        rw [List.length_replicate, List.length_replicate] at hlength
        rw [hsc, htc, (by omega : k + 2 = k' + 2)]
  last op := by rw [List.getLast?_concat, List.getLast?_concat]

end SameRuns

variable {s t u v : List Char}

theorem blocks_append_comment (hu : IsComment u) (s : List Char) : blocks (s ++ u) = blocks s := by
  induction u using List.reverseRecOn with
  | nil => rw [List.append_nil]
  | append_singleton u c ih =>
    rw [← List.append_assoc, blocks_concat_comment (hu c (by simp)),
      ih fun d hd => hu d (List.mem_append_left _ hd)]

theorem getLast?_append_comment (hu : IsComment u) (hne : u ≠ []) (s : List Char) (op : Operator) :
    (s ++ u).getLast? ≠ some op.symbol := by
  rw [List.getLast?_append_of_ne_nil s hne]
  intro hlast
  have hnone := hu _ (List.mem_of_getLast? hlast)
  rw [Operator.ofSymbol?_symbol] at hnone
  cases hnone

/-- **Any two stretches of commentary** may be added to the two texts, if neither is empty. -/
theorem SameRuns.append_comment (h : SameRuns s t) (hu : IsComment u) (hv : IsComment v)
    (hne : u ≠ []) (hne' : v ≠ []) : SameRuns (s ++ u) (t ++ v) where
  blocks := by rw [blocks_append_comment hu, blocks_append_comment hv, h.blocks]
  last op :=
    iff_of_false (getLast?_append_comment hu hne s op) (getLast?_append_comment hv hne' t op)

/-- After commentary it makes no difference whether there is more. -/
theorem SameRuns.append_more (h : SameRuns s t)
    (hlast : ∀ op : Operator, t.getLast? ≠ some op.symbol) (hv : IsComment v) :
    SameRuns s (t ++ v) := by
  by_cases hempty : v = []
  · rwa [hempty, List.append_nil]
  · exact ⟨by rw [blocks_append_comment hv, h.blocks], fun op =>
      iff_of_false (mt (h.last op).mp (hlast op)) (getLast?_append_comment hv hempty t op)⟩

/-! ## §2 Programs -/

/-- Instructions that are written alike have the same operator, if anything is written. -/
theorem operator_eq_of_render_eq {i j : Instruction} (h : i.render = j.render)
    (hne : i.render ≠ []) : i.operator = j.operator := by
  obtain ⟨m, hm⟩ : ∃ m, j.render = j.operator.symbol :: m := by
    rw [h, Instruction.render] at hne
    rw [Instruction.render]
    split
    · exact ⟨[], rfl⟩
    · rename_i hjump
      rw [if_neg hjump] at hne
      cases hcount : j.operand.toNat with
      | zero => rw [hcount] at hne; exact absurd rfl hne
      | succ k => exact ⟨_, List.replicate_succ⟩
  exact operator_eq_of_render (h.trans hm)

/-- Programs are written alike if their instructions are: the gaps are in the same places. -/
theorem renderAll_congr {l l' : List Instruction}
    (h : l.map Instruction.render = l'.map Instruction.render) (hne : ∀ i ∈ l, i.render ≠ []) :
    renderAll l = renderAll l' := by
  induction l generalizing l' with
  | nil => rw [List.map_eq_nil_iff.mp h.symm]
  | cons i l ih =>
    cases l' with
    | nil => cases h
    | cons j l' =>
      rw [List.map_cons, List.map_cons, List.cons.injEq] at h
      obtain ⟨hij, hrest⟩ := h
      have hop := operator_eq_of_render_eq hij (hne i List.mem_cons_self)
      have hne' : ∀ k ∈ l, k.render ≠ [] := fun k hk => hne k (List.mem_cons_of_mem i hk)
      -- A gap depends on the operators on both of its sides, and these can be read off.
      have hgap : gap i l = gap j l' := by
        cases l with
        | nil =>
          rw [List.map_eq_nil_iff.mp hrest.symm]
          rfl
        | cons k l =>
          cases l' with
          | nil => cases hrest
          | cons k' l' =>
            have hk := operator_eq_of_render_eq (List.cons.inj hrest).1 (hne' k List.mem_cons_self)
            have hruns : i.runsInto k = j.runsInto k' := by
              rw [Instruction.runsInto, Instruction.runsInto, hop, hk]
            rw [gap, gap, hruns]
      rw [renderAll_cons, renderAll_cons, hij, hgap, ih hrest hne']

/-- A program depends on the blocks of its source alone. -/
theorem eq_of_compile {p q : Program} (h : blocks s = blocks t) (hs : compile s = .ok p)
    (ht : compile t = .ok q) : p = q := by
  obtain ⟨loops, hp⟩ := describes_of_compile hs
  obtain ⟨loops', hq⟩ := describes_of_compile ht
  have hrenders : p.toList.map Instruction.render = q.toList.map Instruction.render :=
    hp.renders.trans (h.trans hq.renders.symm)
  have hne : ∀ i ∈ p.toList, i.render ≠ [] := by
    intro i hi
    have hblock : i.render ∈ blocks s := hp.renders ▸ List.mem_map_of_mem hi
    exact ne_nil_of_mem_blocks hblock
  -- Both programs are what one text is compiled to.
  have hread := compile_render (p.wellFormed_iff.mpr (matched_of_compile hs))
  rw [Program.render, renderAll_congr hrenders hne] at hread
  exact Except.ok.inj
    (hread.symm.trans (compile_render (q.wellFormed_iff.mpr (matched_of_compile ht))))

theorem bracketCount_filter (s : List Char) :
    bracketCount (s.filter fun c => (Operator.ofSymbol? c).isSome) = bracketCount s := by
  rw [bracketCount, List.count_filter rfl, List.count_filter rfl, bracketCount]

theorem staysOpen_filter_iff {depth : Nat} {s : List Char} :
    StaysOpen depth (s.filter fun c => (Operator.ofSymbol? c).isSome) ↔ StaysOpen depth s := by
  induction s generalizing depth with
  | nil => rfl
  | cons c s ih =>
    rcases bracket_cases c with rfl | rfl | hc
    · rw [List.filter_cons_of_pos rfl, StaysOpen.cons_open_iff, StaysOpen.cons_open_iff, ih]
    · rw [List.filter_cons_of_pos rfl]
      cases depth with
      | zero => exact iff_of_false StaysOpen.cons_close_zero StaysOpen.cons_close_zero
      | succ depth => rw [StaysOpen.cons_close_succ_iff, StaysOpen.cons_close_succ_iff, ih]
    · rw [StaysOpen.cons_other_iff hc, ← ih, List.filter_cons]
      split
      · exact StaysOpen.cons_other_iff hc
      · rfl

theorem bracketCount_eq_of_blocks_eq (h : blocks s = blocks t) :
    bracketCount s = bracketCount t := by
  rw [← bracketCount_filter s, ← bracketCount_filter t, ← flatten_blocks, ← flatten_blocks, h]

theorem StaysOpen.of_blocks_eq (h : blocks s = blocks t) {depth : Nat} (hs : StaysOpen depth s) :
    StaysOpen depth t := by
  rw [← staysOpen_filter_iff, ← flatten_blocks] at hs ⊢
  rwa [← h]

theorem exists_compile_iff :
    (∃ p, compile s = .ok p) ↔ StaysOpen 0 s ∧ bracketCount s = 0 := by
  rcases compile_cases s with
    ⟨b, hb, hopen, hopened, hcompile⟩ | ⟨b, l, rest, hb, hopen, hopened, hcompile⟩ |
    ⟨u, v, rfl, hopen, hzero, hcompile⟩
  · have hdepth := hb.depth
    rw [hopened] at hdepth
    exact iff_of_true ⟨b.code, hcompile⟩ ⟨hopen, hdepth⟩
  · refine iff_of_false ?_ ?_
    · rintro ⟨p, hp⟩
      rw [hcompile] at hp
      cases hp
    · rintro ⟨-, hzero⟩
      have hdepth := hb.depth
      rw [hopened, List.length_cons] at hdepth
      omega
  · refine iff_of_false ?_ ?_
    · rintro ⟨p, hp⟩
      rw [hcompile] at hp
      cases hp
    · rintro ⟨hall, -⟩
      exact hall.not_overclosedAt _ (isLeast_overclosedAt hopen hzero).1

/-- **Sources with the same blocks** are compiled to the same program. -/
theorem compile_of_blocks_eq {p : Program} (h : blocks s = blocks t) (hs : compile s = .ok p) :
    compile t = .ok p := by
  obtain ⟨hopen, hzero⟩ := exists_compile_iff.mp ⟨p, hs⟩
  obtain ⟨q, ht⟩ := exists_compile_iff.mpr
    ⟨hopen.of_blocks_eq h, bracketCount_eq_of_blocks_eq h ▸ hzero⟩
  rw [ht, eq_of_compile h hs ht]

/-! ## §3 Blame -/

/-- Which of two brackets an imbalance is about. -/
def Imbalance.bracket : Imbalance → Operator
  | unmatchedClosing => .jumpIfNonzero
  | unmatchedOpening => .jumpIfZero

/-- Whether an imbalance is to be reported of the bracket between two parts of a source: nothing is
left open before a closing one, or all that is opened after an opening one is closed. -/
def Imbalance.Blames (before after : List Char) : Imbalance → Prop
  | unmatchedClosing => StaysOpen 0 before ∧ bracketCount before = 0
  | unmatchedOpening => StaysOpen 0 before ∧ StaysOpen 0 after ∧ bracketCount after = 0

/-- A beginning of a text that stays open stays open. -/
theorem StaysOpen.take {depth : Nat} (h : StaysOpen depth s) (n : Nat) :
    StaysOpen depth (s.take n) := by
  intro k
  rw [List.take_take]
  exact h _

/-- A loop may be opened between two texts that stay open. -/
theorem StaysOpen.append_open (hu : StaysOpen 0 u) (hv : StaysOpen 0 v) :
    StaysOpen 0 (u ++ '[' :: v) := by
  have hmore : StaysOpen ((0 : Nat) + bracketCount u).toNat ('[' :: v) := by
    rw [StaysOpen.cons_open_iff]
    intro n
    have hnonneg := hv n
    omega
  have hnone : closingFrom 0 0 (u ++ '[' :: v) = none := by
    rw [closingFrom_append hu]
    exact closingFrom_eq_none_iff.mpr hmore
  exact closingFrom_eq_none_iff.mp hnone

/-- An opening bracket is the last one without partner if all that is opened after it is closed. -/
theorem isGreatest_unmatchedAt (hopen : StaysOpen 0 v) (hzero : bracketCount v = 0) :
    IsGreatest {p | UnmatchedAt (u ++ '[' :: v) p} u.length := by
  have hdrop : ∀ k, (u ++ '[' :: v).drop (u.length + 1 + k) = v.drop k := by
    intro k
    rw [← List.drop_drop, ← List.drop_drop, List.drop_left]
    rfl
  refine ⟨⟨by simp, closingPartner?_eq_none_iff.mpr ?_⟩, ?_⟩
  · have hrest := hdrop 0
    rw [Nat.add_zero, List.drop_zero] at hrest
    rwa [hrest]
  · rintro p ⟨hbracket, hunmatched⟩
    by_contra hlt
    -- A bracket without partner in the text after it would be left open there.
    obtain ⟨k, rfl⟩ : ∃ k, p = u.length + 1 + k := ⟨p - (u.length + 1), by omega⟩
    rw [closingPartner?_eq_none_iff, Nat.add_assoc _ k, hdrop] at hunmatched
    have hk : v[k]? = some '[' := by
      rw [← hbracket, ← Nat.add_zero (u.length + 1 + k), ← List.getElem?_drop, hdrop,
        List.getElem?_drop, Nat.add_zero]
    have hsplit := bracketCount_take_add_drop v (k + 1)
    rw [take_succ_of_getElem? hk, bracketCount_append, bracketCount_cons_open,
      bracketCount_nil] at hsplit
    have hbefore := hopen k
    have hafter := hunmatched.end_nonneg
    omega

/-- **Blame, said with the two parts of a source**: a bracket is reported exactly if
`Imbalance.Blames` holds of what comes before and after it. -/
theorem compile_error_iff {i : Imbalance} {p : Nat} :
    compile s = .error ⟨i, p⟩ ↔
      ∃ u v, s = u ++ i.bracket.symbol :: v ∧ p = u.length ∧ i.Blames u v := by
  constructor
  · intro h
    rcases compile_cases s with
      ⟨b, -, -, -, hcompile⟩ | ⟨b, l, rest, hb, hopen, hopened, hcompile⟩ |
      ⟨u, v, rfl, hopen, hzero, hcompile⟩
    · rw [hcompile] at h
      cases h
    · -- The innermost open loop waits for its partner, and no loop is open inside it.
      rw [hcompile] at h
      cases h
      have hl : l.Waits s b.code 0 := hb.waits 0 l (by rw [hopened]; rfl)
      refine ⟨s.take l.position, s.drop (l.position + 1), ?_, ?_, hopen.take _,
        closingPartner?_eq_none_iff.mp hl.unmatched, hl.inside⟩
      · have hsplit := List.take_append_drop (l.position + 1) s
        rw [take_succ_of_getElem? hl.bracket, List.append_assoc] at hsplit
        exact hsplit.symm
      · rw [List.length_take,
          Nat.min_eq_left (Nat.le_of_lt (lt_length_of_getElem? hl.bracket))]
    · rw [hcompile] at h
      cases h
      exact ⟨u, v, rfl, rfl, hopen, hzero⟩
  · rintro ⟨u, v, rfl, rfl, hblames⟩
    cases i with
    | unmatchedClosing =>
      obtain ⟨hopen, hzero⟩ := hblames
      have hleast : IsLeast _ u.length := isLeast_overclosedAt (v := v) hopen hzero
      -- There is only one first position up to which more loops are closed than opened.
      rcases compile_cases (u ++ ']' :: v) with
        ⟨b, -, hall, -⟩ | ⟨b, l, rest, -, hall, -⟩ | ⟨u', v', hsplit, hopen', hzero', hcompile⟩
      · exact absurd hleast.1 (hall.not_overclosedAt _)
      · exact absurd hleast.1 (hall.not_overclosedAt _)
      · have hleast' : IsLeast _ u'.length := isLeast_overclosedAt (v := v') hopen' hzero'
        rw [← hsplit] at hleast'
        rw [hleast.unique hleast']
        exact hcompile
    | unmatchedOpening =>
      obtain ⟨hbefore, hafter, hzero⟩ := hblames
      have hall := hbefore.append_open hafter
      rcases compile_cases (u ++ '[' :: v) with
        ⟨b, hb, -, hopened, -⟩ | ⟨b, l, rest, hb, -, hopened, hcompile⟩ |
        ⟨u', v', hsplit, hopen', hzero', -⟩
      · -- The loop of this bracket at least is open at the end.
        have hdepth := hb.depth
        have hnonneg := hbefore.end_nonneg
        rw [bracketCount_append, bracketCount_cons_open, hzero, hopened] at hdepth
        simp only [List.length_nil] at hdepth
        omega
      · have hlast := hb.isGreatest_unmatchedAt hopened
        rw [(isGreatest_unmatchedAt hafter hzero).unique hlast]
        exact hcompile
      · have hover : OverclosedAt (u' ++ ']' :: v') u'.length :=
          (isLeast_overclosedAt hopen' hzero').1
        rw [← hsplit] at hover
        exact absurd hover (hall.not_overclosedAt _)

/-- **The same bracket is to blame** if the blocks before and after it are the same. -/
theorem compile_error_of_blocks_eq {i : Imbalance} {u' v' : List Char} (hu : blocks u = blocks u')
    (hv : blocks v = blocks v') (h : i.Blames u v) :
    compile (u' ++ i.bracket.symbol :: v') = .error ⟨i, u'.length⟩ := by
  refine compile_error_iff.mpr ⟨u', v', rfl, rfl, ?_⟩
  cases i with
  | unmatchedClosing =>
    exact ⟨h.1.of_blocks_eq hu, bracketCount_eq_of_blocks_eq hu ▸ h.2⟩
  | unmatchedOpening =>
    exact ⟨h.1.of_blocks_eq hu, h.2.1.of_blocks_eq hv, bracketCount_eq_of_blocks_eq hv ▸ h.2.2⟩

end FoldTape
