import FoldTape.Folding
import FoldTape.Proofs.Blocks
import FoldTape.Proofs.Brackets

/-!
# What the compiler has built

After each character the builder describes the text read so far: one instruction for every block,
the loops that are still open, and the targets of those that have been closed.

## Architecture

- **§1 The invariant**: `Builder.Describes`, with a loop that waits (`OpenLoop.Waits`) and a loop
  whose two jumps are known (`LoopAt`).
- **§2 One character**: each way of taking a character keeps the invariant (`Describes.feed`).
- **§3 A whole text**: `describes_of_feedAll`, and what is known where reading stops
  (`feedAll_error`).
- **§4 Compiling a source**: the three ways in which it ends (`compile_cases`).
-/

namespace FoldTape

/-! ## §1 The invariant -/

theorem lt_size_of_getElem? {code : Program} {a : Nat} {i : Instruction}
    (h : code[a]? = some i) : a < code.size :=
  (Array.getElem?_eq_some_iff.mp h).1

/-- A loop that is still open, with `k` loops open inside it: its bracket has no partner yet, and
its instruction waits for the target. -/
structure OpenLoop.Waits (s : List Char) (code : Program) (k : Nat) (l : OpenLoop) : Prop where
  bracket : s[l.position]? = some '['
  address_eq : l.address = blockAddress s l.position
  unmatched : closingPartner? s l.position = none
  inside : bracketCount (s.drop (l.position + 1)) = k
  placeholder : code[l.address]? = some ⟨.jumpIfZero, 0⟩

/-- The brackets at `i` and `j` are partners, and each jumps to just past the other. -/
structure LoopAt (s : List Char) (code : Program) (i j : Nat) : Prop where
  opening : s[i]? = some '['
  partner : closingPartner? s i = some j
  enters : code[blockAddress s i]? = some ⟨.jumpIfZero, blockAddress s j + 1⟩
  repeats : code[blockAddress s j]? = some ⟨.jumpIfNonzero, blockAddress s i + 1⟩

/-- The builder is what has been built from a text. -/
structure Builder.Describes (s : List Char) (b : Builder) : Prop where
  /-- There is one instruction for every block. -/
  renders : b.code.toList.map Instruction.render = blocks s
  nested : b.opened.Pairwise fun l l' => l'.position < l.position ∧ l'.address < l.address
  waits : ∀ (k : Nat) (l : OpenLoop), b.opened[k]? = some l → l.Waits s b.code k
  /-- Every opening bracket without partner waits. -/
  complete : ∀ i : Nat, s[i]? = some '[' → closingPartner? s i = none →
    ∃ l ∈ b.opened, l.position = i
  closed : ∀ j : Nat, s[j]? = some ']' → ∃ i, LoopAt s b.code i j
  depth : bracketCount s = b.opened.length
  loops : b.loops = s.count ']'

/-- All jumps stay where and what they are. -/
def KeepsJumps (code code' : Program) : Prop :=
  ∀ (a : Nat) (i : Instruction), i.operator.isJump = true → code[a]? = some i → code'[a]? = some i

theorem KeepsJumps.refl (code : Program) : KeepsJumps code code := fun _ _ _ h => h

theorem KeepsJumps.push (code : Program) (i : Instruction) : KeepsJumps code (code.push i) := by
  intro a j _ ha
  have hlt := lt_size_of_getElem? ha
  rw [Array.getElem?_push_lt hlt, ← Array.getElem?_eq_getElem hlt]
  exact ha

/-- One more character leaves a loop waiting that it does not close. -/
theorem OpenLoop.Waits.concat {s : List Char} {code code' : Program} {k k' : Nat} {l : OpenLoop}
    {c : Char} (h : l.Waits s code k) (hk : (k' : Int) = k + bracketCount [c])
    (hcode : code'[l.address]? = some ⟨.jumpIfZero, 0⟩) : l.Waits (s ++ [c]) code' k' where
  bracket := getElem?_concat_eq_some.mpr (.inl h.bracket)
  address_eq := by
    rw [blockAddress_append (Nat.le_of_lt (lt_length_of_getElem? h.bracket))]
    exact h.address_eq
  unmatched := by
    rw [closingPartner?_concat (lt_length_of_getElem? h.bracket), h.unmatched, h.inside,
      Option.none_or, if_neg]
    -- The loop that `]` would close is the one with no loop open inside it.
    rintro ⟨rfl, hzero⟩
    rw [bracketCount_cons_close, bracketCount_nil] at hk
    omega
  inside := by
    rw [List.drop_append_of_le_length (lt_length_of_getElem? h.bracket), bracketCount_append,
      h.inside, hk]
  placeholder := hcode

/-- One more character leaves a closed loop as it is, if the jumps stay. -/
theorem LoopAt.concat {s : List Char} {code code' : Program} {i j : Nat} (h : LoopAt s code i j)
    (c : Char) (henters : code'[blockAddress s i]? = some ⟨.jumpIfZero, blockAddress s j + 1⟩)
    (hrepeats : code'[blockAddress s j]? = some ⟨.jumpIfNonzero, blockAddress s i + 1⟩) :
    LoopAt (s ++ [c]) code' i j := by
  have hi := lt_length_of_getElem? h.opening
  have hj := lt_length_of_getElem? (getElem?_of_closingPartner? h.partner)
  refine ⟨getElem?_concat_eq_some.mpr (.inl h.opening), ?_, ?_, ?_⟩
  · rw [closingPartner?_concat hi, h.partner]
    rfl
  · rw [blockAddress_append (Nat.le_of_lt hi), blockAddress_append (Nat.le_of_lt hj)]
    exact henters
  · rw [blockAddress_append (Nat.le_of_lt hi), blockAddress_append (Nat.le_of_lt hj)]
    exact hrepeats

namespace Builder

variable {s : List Char} {b : Builder} {c : Char}

theorem Describes.empty : Builder.empty.Describes [] where
  renders := rfl
  nested := .nil
  waits := by
    intro k l h
    cases h
  complete := by
    intro i h
    cases h
  closed := by
    intro j h
    cases h
  depth := rfl
  loops := rfl

/-- There are as many instructions as blocks. -/
theorem Describes.size_eq (h : b.Describes s) : b.code.size = (blocks s).length := by
  rw [← h.renders, List.length_map, Array.length_toList]

/-- Every open loop waits, whatever the number of loops open inside it. -/
theorem Describes.exists_waits (h : b.Describes s) {l : OpenLoop} (hl : l ∈ b.opened) :
    ∃ k, l.Waits s b.code k := by
  obtain ⟨k, hk⟩ := List.mem_iff_getElem?.mp hl
  exact ⟨k, h.waits k l hk⟩

/-! ## §2 One character -/

/-- A character that is no bracket keeps the loops as they are, if it keeps the jumps. -/
theorem Describes.keep (h : b.Describes s) (hc : c ≠ '[' ∧ c ≠ ']') {code' : Program}
    (hcode : KeepsJumps b.code code')
    (hrenders : code'.toList.map Instruction.render = blocks (s ++ [c])) :
    Describes (s ++ [c]) ⟨code', b.opened, b.loops⟩ where
  renders := hrenders
  nested := h.nested
  waits := by
    intro k l hl
    have hwaits := h.waits k l hl
    refine hwaits.concat ?_ (hcode _ _ rfl hwaits.placeholder)
    rw [bracketCount_cons_other hc, bracketCount_nil, Int.add_zero]
  complete := by
    intro i hi hnone
    have hi : s[i]? = some '[' := by
      rcases getElem?_concat_eq_some.mp hi with hi | ⟨-, hopen⟩
      · exact hi
      · exact absurd hopen hc.1
    rw [closingPartner?_concat (lt_length_of_getElem? hi), Option.or_eq_none_iff] at hnone
    exact h.complete i hi hnone.1
  closed := by
    intro j hj
    rcases getElem?_concat_eq_some.mp hj with hj | ⟨-, hclose⟩
    · obtain ⟨i, hloop⟩ := h.closed j hj
      exact ⟨i, hloop.concat c (hcode _ _ rfl hloop.enters) (hcode _ _ rfl hloop.repeats)⟩
    · exact absurd hclose hc.2
  depth := by
    rw [bracketCount_append, bracketCount_cons_other hc, bracketCount_nil, Int.add_zero]
    exact h.depth
  loops := by
    rw [List.count_append, List.count_singleton, h.loops]
    simp [hc.2]

theorem Describes.startRun (h : b.Describes s) {op : Operator} (hop : op.isJump = false)
    (hlast : s.getLast? ≠ some op.symbol) : (b.startRun op).Describes (s ++ [op.symbol]) := by
  apply h.keep
  · rw [← not_or, ← isJump_iff, hop]
    exact Bool.false_ne_true
  · exact KeepsJumps.push _ _
  · rw [blocks_concat_start (.inr hlast), ← h.renders, Array.toList_push, List.map_append]
    simp [Instruction.render, hop]

theorem Describes.extendRun (h : b.Describes s) {op : Operator} (hop : op.isJump = false)
    (hlast : s.getLast? = some op.symbol) : b.extendRun.Describes (s ++ [op.symbol]) := by
  obtain ⟨bs, k, hblocks, hconcat⟩ := blocks_concat_extend hop hlast
  -- The last instruction is the one that the last block was folded into.
  have hrenders := h.renders
  rw [hblocks] at hrenders
  obtain ⟨is, last, hcode, his, hlast⟩ := List.map_eq_append_iff.mp hrenders
  obtain ⟨i, tail, rfl, hi, htail⟩ := List.map_eq_cons_iff.mp hlast
  obtain rfl := List.map_eq_nil_iff.mp htail
  obtain rfl := eq_of_render_run hop hi
  have hsize : b.code.size - 1 = is.length := by
    rw [← Array.length_toList, hcode, List.length_append]
    rfl
  apply h.keep
  · rw [← not_or, ← isJump_iff, hop]
    exact Bool.false_ne_true
  · intro a j hj ha
    -- The run is no jump, so a jump is somewhere else.
    have hne : is.length ≠ a := by
      rintro rfl
      rw [← Array.getElem?_toList, hcode, List.getElem?_concat_length, Option.some.injEq] at ha
      rw [← ha, hop] at hj
      cases hj
    rw [hsize, Array.getElem?_modify, if_neg hne]
    exact ha
  · rw [hconcat, hsize, Array.toList_modify, hcode, ← his]
    rw [List.modify_eq_take_drop, List.take_left, List.drop_left, List.map_append,
      List.modifyHead_cons, List.map_singleton]
    rw [← render_run hop (k + 2)]
    rfl

theorem Describes.openLoop (h : b.Describes s) :
    (b.openLoop s.length).Describes (s ++ ['[']) := by
  have hlast : b.openLoop s.length =
      ⟨b.code.push ⟨.jumpIfZero, 0⟩, ⟨b.code.size, s.length⟩ :: b.opened, b.loops⟩ := rfl
  rw [hlast]
  constructor
  case renders =>
    have hblocks : blocks (s ++ [Operator.jumpIfZero.symbol]) = _ := blocks_concat_start (.inl rfl)
    rw [Array.toList_push, List.map_append, h.renders]
    exact hblocks.symm
  case nested =>
    refine List.pairwise_cons.mpr ⟨?_, h.nested⟩
    intro l hl
    obtain ⟨k, hl⟩ := h.exists_waits hl
    exact ⟨lt_length_of_getElem? hl.bracket, lt_size_of_getElem? hl.placeholder⟩
  case waits =>
    intro k l hl
    cases k with
    | zero =>
      -- The loop just opened: it begins with the new block.
      rw [List.getElem?_cons_zero, Option.some.injEq] at hl
      subst hl
      refine ⟨getElem?_concat_eq_some.mpr (.inr ⟨rfl, rfl⟩), ?_, closingPartner?_concat_length s _,
        ?_, Array.getElem?_push_size⟩
      · rw [blockAddress_append (Nat.le_refl _), blockAddress_length, h.size_eq]
      · rw [List.drop_eq_nil_of_le (by simp)]
        rfl
    | succ k =>
      -- A loop around it has one more loop open inside.
      rw [List.getElem?_cons_succ] at hl
      have hl := h.waits k l hl
      refine hl.concat ?_ (KeepsJumps.push _ _ _ _ rfl hl.placeholder)
      rw [bracketCount_cons_open, bracketCount_nil]
      omega
  case complete =>
    intro i hi hnone
    rcases getElem?_concat_eq_some.mp hi with hi | ⟨rfl, -⟩
    · rw [closingPartner?_concat (lt_length_of_getElem? hi), Option.or_eq_none_iff] at hnone
      obtain ⟨l, hl, rfl⟩ := h.complete i hi hnone.1
      exact ⟨l, List.mem_cons_of_mem _ hl, rfl⟩
    · exact ⟨_, List.mem_cons_self, rfl⟩
  case closed =>
    intro j hj
    rcases getElem?_concat_eq_some.mp hj with hj | ⟨-, hclose⟩
    · obtain ⟨i, hloop⟩ := h.closed j hj
      exact ⟨i, hloop.concat _ (KeepsJumps.push _ _ _ _ rfl hloop.enters)
        (KeepsJumps.push _ _ _ _ rfl hloop.repeats)⟩
    · cases hclose
  case depth =>
    rw [bracketCount_append, h.depth, bracketCount_cons_open, bracketCount_nil, List.length_cons]
    omega
  case loops =>
    rw [List.count_append, h.loops]
    rfl

/-- The code in which the loop that begins at an address is closed. -/
def closedAt (code : Program) (a : Nat) : Program :=
  (code.push ⟨.jumpIfNonzero, a + 1⟩).setIfInBounds a ⟨.jumpIfZero, (code.size + 1 : Nat)⟩

section ClosedAt

variable {code : Program} {a : Nat} (ha : code[a]? = some ⟨.jumpIfZero, 0⟩)
include ha

/-- The placeholder has been replaced. -/
theorem closedAt_opening : (closedAt code a)[a]? = some ⟨.jumpIfZero, (code.size + 1 : Nat)⟩ := by
  have hlt := lt_size_of_getElem? ha
  rw [closedAt, Array.getElem?_setIfInBounds, if_pos rfl, if_pos]
  rw [Array.size_push]
  omega

theorem closedAt_closing : (closedAt code a)[code.size]? = some ⟨.jumpIfNonzero, a + 1⟩ := by
  have hlt := lt_size_of_getElem? ha
  rw [closedAt, Array.getElem?_setIfInBounds, if_neg (by omega), Array.getElem?_push_size]

omit ha in
/-- Whatever is not the placeholder stays. -/
theorem closedAt_other {target : Nat} {i : Instruction} (hi : code[target]? = some i)
    (hne : target ≠ a) : (closedAt code a)[target]? = some i := by
  have hlt := lt_size_of_getElem? hi
  rw [closedAt, Array.getElem?_setIfInBounds, if_neg (Ne.symm hne), Array.getElem?_push,
    if_neg (by omega)]
  exact hi

/-- The placeholder and what replaces it are written alike. -/
theorem map_render_closedAt :
    (closedAt code a).toList.map Instruction.render =
      code.toList.map Instruction.render ++ [[']']] := by
  have hpush : (code.push ⟨.jumpIfNonzero, a + 1⟩).toList.map Instruction.render =
      code.toList.map Instruction.render ++ [[']']] := by
    rw [Array.toList_push, List.map_append]
    rfl
  have hsame : ((code.push ⟨.jumpIfNonzero, a + 1⟩).toList.map Instruction.render)[a]? =
      some ['['] := by
    rw [List.getElem?_map, Array.getElem?_toList, KeepsJumps.push _ _ _ _ rfl ha]
    rfl
  obtain ⟨hbound, hsame⟩ := List.getElem?_eq_some_iff.mp hsame
  have hset := List.set_getElem_self hbound
  rw [hsame] at hset
  rw [closedAt, Array.toList_setIfInBounds, List.map_set, ← hpush]
  exact hset

/-- A loop that is closed already keeps both jumps: neither of them is a placeholder. -/
theorem closedAt_loopAt {i j : Nat} (hloop : LoopAt s code i j) :
    (closedAt code a)[blockAddress s i]? = some ⟨.jumpIfZero, blockAddress s j + 1⟩ ∧
      (closedAt code a)[blockAddress s j]? = some ⟨.jumpIfNonzero, blockAddress s i + 1⟩ := by
  refine ⟨closedAt_other hloop.enters ?_, closedAt_other hloop.repeats ?_⟩
  · rintro rfl
    have henters := hloop.enters
    rw [ha, Option.some.injEq, Instruction.mk.injEq] at henters
    omega
  · rintro rfl
    have hrepeats := hloop.repeats
    rw [ha, Option.some.injEq, Instruction.mk.injEq] at hrepeats
    cases hrepeats.1

end ClosedAt

theorem Describes.closeLoop (h : b.Describes s) {l : OpenLoop} {rest : List OpenLoop}
    (hopened : b.opened = l :: rest) : b.closeLoop.Describes (s ++ [']']) := by
  obtain ⟨code, opened, loops⟩ := b
  simp only at hopened
  subst hopened
  have hl : l.Waits s code 0 := h.waits 0 l rfl
  have hsize : code.size = blockAddress s s.length := h.size_eq.trans (blockAddress_length s).symm
  have hlt := lt_length_of_getElem? hl.bracket
  obtain ⟨hinner, hnested⟩ := List.pairwise_cons.mp h.nested
  have hclose : Builder.closeLoop ⟨code, l :: rest, loops⟩ =
      ⟨closedAt code l.address, rest, loops + 1⟩ := by
    rw [closedAt, ← Array.size_push]
    rfl
  rw [hclose]
  constructor
  case renders =>
    have hblocks : blocks (s ++ [Operator.jumpIfNonzero.symbol]) = _ :=
      blocks_concat_start (.inl rfl)
    rw [map_render_closedAt hl.placeholder, h.renders]
    exact hblocks.symm
  case nested => exact hnested
  case waits =>
    intro k l' hl'
    have hwaits : l'.Waits s code (k + 1 : Nat) := h.waits (k + 1) l' hl'
    -- Loops that still wait are further out, so their placeholders are at lower addresses.
    obtain ⟨-, haddress⟩ := hinner l' (List.mem_of_getElem? hl')
    refine hwaits.concat ?_ (closedAt_other hwaits.placeholder (by omega))
    rw [bracketCount_cons_close, bracketCount_nil]
    omega
  case complete =>
    intro i hi hnone
    rcases getElem?_concat_eq_some.mp hi with hi | ⟨-, hopen⟩
    · rw [closingPartner?_concat (lt_length_of_getElem? hi), Option.or_eq_none_iff] at hnone
      obtain ⟨l', hl', rfl⟩ := h.complete i hi hnone.1
      rcases List.mem_cons.mp hl' with rfl | hl'
      · -- The loop just closed has a partner now.
        rw [hl.inside, if_pos ⟨rfl, rfl⟩] at hnone
        cases hnone.2
      · exact ⟨l', hl', rfl⟩
    · cases hopen
  case closed =>
    intro j hj
    rcases getElem?_concat_eq_some.mp hj with hj | ⟨rfl, -⟩
    · obtain ⟨i, hloop⟩ := h.closed j hj
      obtain ⟨henters, hrepeats⟩ := closedAt_loopAt hl.placeholder hloop
      exact ⟨i, hloop.concat _ henters hrepeats⟩
    · -- The loop just closed: both of its targets are written now.
      refine ⟨l.position, getElem?_concat_eq_some.mpr (.inl hl.bracket), ?_, ?_, ?_⟩
      · rw [closingPartner?_concat hlt, hl.unmatched, hl.inside, if_pos ⟨rfl, rfl⟩]
        rfl
      · rw [blockAddress_append (Nat.le_of_lt hlt), blockAddress_append (Nat.le_refl _),
          ← hl.address_eq, ← hsize, closedAt_opening hl.placeholder]
        rfl
      · rw [blockAddress_append (Nat.le_of_lt hlt), blockAddress_append (Nat.le_refl _),
          ← hl.address_eq, ← hsize, closedAt_closing hl.placeholder]
  case depth =>
    have hdepth := h.depth
    rw [List.length_cons] at hdepth
    rw [bracketCount_append, hdepth, bracketCount_cons_close, bracketCount_nil]
    show (rest.length + 1 : Nat) + (0 - 1) = (rest.length : Int)
    omega
  case loops =>
    have hloops : loops = s.count ']' := h.loops
    rw [List.count_append, hloops]
    rfl

/-- **One character**: what is built from a text with one more character, unless that is a closing
bracket for which no loop is open. -/
theorem Describes.feed (h : b.Describes s) (hmatched : b.isUnmatched c = false) :
    (b.feed s.getLast? s.length c).Describes (s ++ [c]) := by
  cases hop : Operator.ofSymbol? c with
  | none =>
    -- A comment changes nothing.
    have hc : c ≠ '[' ∧ c ≠ ']' := by
      constructor
      · rintro rfl
        cases hop
      · rintro rfl
        cases hop
    have hfeed : b.feed s.getLast? s.length c = b := by
      rw [Builder.feed, hop]
    rw [hfeed]
    refine h.keep hc (KeepsJumps.refl _) ?_
    rw [blocks_concat_comment hop, h.renders]
  | some op =>
    obtain rfl := Operator.ofSymbol?_eq_some_iff.mp hop
    -- The six operators that fold are treated alike.
    have hrun : op.isJump = false →
        Describes (s ++ [op.symbol])
          (if s.getLast? = some op.symbol then b.extendRun else b.startRun op) := by
      intro hjump
      by_cases hlast : s.getLast? = some op.symbol
      · rw [if_pos hlast]
        exact h.extendRun hjump hlast
      · rw [if_neg hlast]
        exact h.startRun hjump hlast
    rw [Builder.feed, hop]
    cases op with
    | jumpIfZero => exact h.openLoop
    | jumpIfNonzero =>
      cases hopened : b.opened with
      | nil =>
        -- Reading would have stopped at this bracket.
        rw [isUnmatched, hopened] at hmatched
        cases hmatched
      | cons l rest => exact h.closeLoop hopened
    | moveRight => exact hrun rfl
    | moveLeft => exact hrun rfl
    | increment => exact hrun rfl
    | decrement => exact hrun rfl
    | output => exact hrun rfl
    | input => exact hrun rfl

/-! ## §3 A whole text -/

/-- Reading a text with one more character is reading the text and then the character. -/
theorem feedAll_concat {s : List Char} {c : Char} :
    feedAll none 0 (s ++ [c]) .empty =
      match feedAll none 0 s .empty with
      | .ok _ b =>
        if b.isUnmatched c then .error s.length b else .ok () (b.feed s.getLast? s.length c)
      | .error p b => .error p b := by
  rw [feedAll_append, Option.or_none, Nat.zero_add]
  rfl

/-- **The invariant holds** of what is built from a text. -/
theorem describes_of_feedAll {s : List Char} {b : Builder}
    (h : feedAll none 0 s .empty = .ok () b) : b.Describes s := by
  -- The text grows at its end, as the blocks do.
  induction s using List.reverseRecOn generalizing b with
  | nil =>
    cases h
    exact Describes.empty
  | append_singleton s c ih =>
    rw [feedAll_concat] at h
    split at h
    · rename_i b' hs
      split at h
      · cases h
      · rename_i hmatched
        cases h
        exact (ih hs).feed (Bool.not_eq_true _ ▸ hmatched)
    · cases h

/-- **Where reading stops**: at a closing bracket after a text that leaves no loop open. -/
theorem feedAll_error {s : List Char} {p : Nat} {b : Builder}
    (h : feedAll none 0 s .empty = .error p b) :
    ∃ u v, s = u ++ ']' :: v ∧ p = u.length ∧ feedAll none 0 u .empty = .ok () b ∧
      b.opened = [] := by
  induction s using List.reverseRecOn generalizing b with
  | nil => cases h
  | append_singleton s c ih =>
    rw [feedAll_concat] at h
    split at h
    · rename_i b' hs
      split at h
      · -- Reading stops here; before that it had not stopped.
        rename_i hunmatched
        cases h
        rw [isUnmatched, Bool.and_eq_true, decide_eq_true_eq, List.isEmpty_iff] at hunmatched
        obtain ⟨rfl, hopened⟩ := hunmatched
        exact ⟨s, [], rfl, rfl, hs, hopened⟩
      · cases h
    · rename_i p' b' hs
      cases h
      obtain ⟨u, v, rfl, rfl, hu, hopened⟩ := ih hs
      exact ⟨u, v ++ [c], by simp, rfl, hu, hopened⟩

/-- A text that is read to its end is read to the end of each of its beginnings. -/
theorem feedAll_take {s : List Char} {b : Builder} (h : feedAll none 0 s .empty = .ok () b)
    (n : Nat) : ∃ b', feedAll none 0 (s.take n) .empty = .ok () b' := by
  rw [← List.take_append_drop n s, feedAll_append] at h
  split at h
  · rename_i b' hs
    exact ⟨b', hs⟩
  · cases h

/-- No beginning of a text that is read to its end closes more loops than it opens. -/
theorem staysOpen_of_feedAll {s : List Char} {b : Builder}
    (h : feedAll none 0 s .empty = .ok () b) : StaysOpen 0 s := by
  intro n
  obtain ⟨b', hb'⟩ := feedAll_take h n
  have hdepth := (describes_of_feedAll hb').depth
  omega

end Builder

/-! ## §4 Compiling a source -/

/-- **What compiling comes to**: a program, if no loop is open at the end; the blame on the
innermost open loop, if there is one; the blame on a closing bracket before which none is open. -/
theorem compile_cases (source : List Char) :
    (∃ b : Builder, b.Describes source ∧ StaysOpen 0 source ∧ b.opened = [] ∧
      compile source = .ok b.code) ∨
    (∃ (b : Builder) (l : OpenLoop) (rest : List OpenLoop), b.Describes source ∧
      StaysOpen 0 source ∧ b.opened = l :: rest ∧
      compile source = .error ⟨.unmatchedOpening, l.position⟩) ∨
    (∃ u v, source = u ++ ']' :: v ∧ StaysOpen 0 u ∧ bracketCount u = 0 ∧
      compile source = .error ⟨.unmatchedClosing, u.length⟩) := by
  have hcompile : compile source = (Compiler.fresh.compile source).1 := rfl
  rw [hcompile, Compiler.compile]
  cases hfeed : Builder.feedAll none 0 source .empty with
  | ok _ b =>
    -- The source has been read to its end: the stack of open loops decides.
    have hb := Builder.describes_of_feedAll hfeed
    have hopen := Builder.staysOpen_of_feedAll hfeed
    have hreset : Compiler.fresh.reset.state = .empty := rfl
    rw [hreset, hfeed]
    cases hopened : b.opened with
    | nil =>
      refine .inl ⟨b, hb, hopen, hopened, ?_⟩
      simp only [hopened]
    | cons l rest =>
      refine .inr (.inl ⟨b, l, rest, hb, hopen, hopened, ?_⟩)
      simp only [hopened]
  | error p b =>
    -- Reading has stopped where as many loops had been closed as opened.
    obtain ⟨u, v, hsource, rfl, hu, hopened⟩ := Builder.feedAll_error hfeed
    have hdepth := (Builder.describes_of_feedAll hu).depth
    rw [hopened] at hdepth
    have hreset : Compiler.fresh.reset.state = .empty := rfl
    rw [hreset, hfeed]
    exact .inr (.inr ⟨u, v, hsource, Builder.staysOpen_of_feedAll hu, hdepth, rfl⟩)

/-- What is blamed is a bracket. -/
theorem bracket_of_compile_error {source : List Char} {u : Unbalanced}
    (h : compile source = .error u) :
    source[u.position]? = some '[' ∨ source[u.position]? = some ']' := by
  rcases compile_cases source with
    ⟨b, -, -, -, hcompile⟩ | ⟨b, l, rest, hb, -, hopened, hcompile⟩ |
    ⟨before, after, hsource, -, -, hcompile⟩
  · rw [hcompile] at h
    cases h
  · rw [hcompile] at h
    cases h
    -- The innermost open loop begins at an opening bracket.
    have hl : l.Waits source b.code 0 := hb.waits 0 l (by rw [hopened]; rfl)
    exact .inl hl.bracket
  · rw [hcompile] at h
    cases h
    right
    rw [hsource]
    simp

/-- **An accepted source** has been read to its end, and no loop is open there. -/
theorem describes_of_compile {source : List Char} {p : Program} (h : compile source = .ok p) :
    ∃ loops, Builder.Describes source ⟨p, [], loops⟩ := by
  rcases compile_cases source with
    ⟨⟨code, opened, loops⟩, hb, -, hopened, hcompile⟩ | ⟨b, l, rest, -, -, -, hcompile⟩ |
    ⟨u, v, -, -, -, hcompile⟩
  · rw [hcompile, Except.ok.injEq] at h
    simp only at h hopened
    subst h hopened
    exact ⟨loops, hb⟩
  · rw [hcompile] at h
    cases h
  · rw [hcompile] at h
    cases h

end FoldTape
