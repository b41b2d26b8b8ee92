import FoldTape.Render
import Mathlib.Data.List.SplitBy

/-!
# Blocks of a growing text

How the blocks of a text change with one more character, and how they come apart where the text
does. A bracket is a block of its own; a run is as many copies of one operator.

Main statements:

- `blocks_append`: blocks do not reach over a boundary between different characters;
- `blocks_concat_comment`, `blocks_concat_start`, `blocks_concat_extend`: one more character;
- `Boundary.exists_stretch`: from a boundary on, a run is one block and ends at a boundary.
-/

namespace FoldTape

/-! ## §1 Growing texts -/

theorem getElem?_concat_eq_some {α : Type} {s : List α} {c d : α} {i : Nat} :
    (s ++ [c])[i]? = some d ↔ s[i]? = some d ∨ i = s.length ∧ c = d := by
  rcases Nat.lt_trichotomy i s.length with hlt | rfl | hgt
  · rw [List.getElem?_append_left hlt]
    constructor
    · exact .inl
    · rintro (h | ⟨h, -⟩)
      · exact h
      · omega
  · simp
  · rw [List.getElem?_eq_none (by simp; omega), List.getElem?_eq_none (by omega)]
    constructor
    · intro h
      cases h
    · rintro (h | ⟨h, -⟩)
      · cases h
      · omega

theorem lt_length_of_getElem? {α : Type} {s : List α} {i : Nat} {c : α} (h : s[i]? = some c) :
    i < s.length :=
  (List.getElem?_eq_some_iff.mp h).1

/-! ## §2 Kinds of operator -/

theorem isJump_iff {op : Operator} : op.isJump = true ↔ op.symbol = '[' ∨ op.symbol = ']' := by
  cases op <;> decide

theorem sameBlock_symbol {a : Char} {op : Operator} :
    sameBlock a op.symbol = true ↔ a = op.symbol ∧ op.isJump = false := by
  cases hjump : op.isJump with
  | true =>
    have hbracket : sameBlock a op.symbol = false := by
      rw [← Bool.not_eq_true]
      intro h
      simp only [sameBlock, Bool.and_eq_true, decide_eq_true_eq] at h
      obtain ⟨⟨rfl, hopen⟩, hclose⟩ := h
      exact (isJump_iff.mp hjump).elim hopen hclose
    simp [hbracket]
  | false =>
    -- What is no jump is no bracket.
    have hno : ¬ (op.symbol = '[' ∨ op.symbol = ']') := by
      rw [← isJump_iff, hjump]
      exact Bool.false_ne_true
    rw [not_or] at hno
    simp only [sameBlock, Bool.and_eq_true, decide_eq_true_eq, and_true]
    constructor
    · rintro ⟨⟨h, -⟩, -⟩
      exact h
    · rintro rfl
      exact ⟨⟨rfl, hno.1⟩, hno.2⟩

theorem eq_of_sameBlock {a b : Char} (h : sameBlock a b = true) : a = b := by
  simp only [sameBlock, Bool.and_eq_true, decide_eq_true_eq] at h
  exact h.1.1

/-! ## §3 Segments -/

/-- A segment consists of copies of its first character. -/
private theorem eq_replicate_of_isChain {a : Char} {m : List Char}
    (h : (a :: m).IsChain fun x y => sameBlock x y) : m = List.replicate m.length a := by
  induction m generalizing a with
  | nil => rfl
  | cons b m ih =>
    rw [List.isChain_cons_cons] at h
    obtain ⟨hab, hm⟩ := h
    obtain rfl := eq_of_sameBlock hab
    rw [List.length_cons, List.replicate_succ, ← ih hm]

/-- A segment that ends in `x` consists of copies of `x`. -/
private theorem eq_replicate_getLast {x : Char} {m : List Char}
    (h : m.IsChain fun x y => sameBlock x y) (hlast : m.getLast? = some x) :
    ∃ k, m = List.replicate (k + 1) x := by
  cases m with
  | nil => cases hlast
  | cons a m =>
    have hm := eq_replicate_of_isChain h
    have hax : a = x := by
      rw [hm, ← List.replicate_succ, List.getLast?_replicate] at hlast
      simpa using hlast
    refine ⟨m.length, ?_⟩
    rw [List.replicate_succ, ← hax, ← hm]

/-- A character that belongs to the last segment makes it longer. -/
private theorem splitBy_concat {s : List Char} {x a : Char} (hlast : s.getLast? = some x)
    (hr : sameBlock x a = true) :
    ∃ ms k, s.splitBy sameBlock = ms ++ [List.replicate (k + 1) x] ∧
      (s ++ [a]).splitBy sameBlock = ms ++ [List.replicate (k + 1) x ++ [a]] := by
  have hne : s ≠ [] := by
    rintro rfl
    cases hlast
  have hsplit : s.splitBy sameBlock ≠ [] := List.splitBy_ne_nil.mpr hne
  obtain ⟨ms, m, hms⟩ := (List.eq_nil_or_concat (s.splitBy sameBlock)).resolve_left hsplit
  rw [List.concat_eq_append] at hms
  obtain ⟨hflat, hnil, hchain, hbound⟩ := List.splitBy_eq_iff.mp hms
  -- The last segment ends as the text does, so it consists of copies of `x`.
  have hmem : m ∈ ms ++ [m] := by simp
  have hm : m ≠ [] := fun h => hnil (h ▸ hmem)
  have hmlast : m.getLast? = some x := by
    rw [hflat, List.flatten_append, List.flatten_singleton, List.getLast?_append_of_ne_nil _ hm]
      at hlast
    exact hlast
  obtain ⟨k, rfl⟩ := eq_replicate_getLast (hchain m hmem) hmlast
  -- The longer segments are a splitting of the longer text, and there is only one.
  refine ⟨ms, k, hms, List.splitBy_eq_iff.mpr ⟨?_, ?_, ?_, ?_⟩⟩
  · rw [hflat]
    simp
  · simpa using hnil
  · intro b hb
    rcases List.mem_append.mp hb with hb | hb
    · exact hchain b (List.mem_append_left _ hb)
    · obtain rfl := List.mem_singleton.mp hb
      rw [List.isChain_append]
      refine ⟨hchain _ hmem, List.isChain_singleton a, ?_⟩
      intro y hy z hz
      rw [hmlast, Option.mem_some] at hy
      rw [List.head?_cons, Option.mem_some] at hz
      rw [← hy, ← hz]
      exact hr
  · rw [List.isChain_append] at hbound ⊢
    obtain ⟨hms', -, hlink⟩ := hbound
    refine ⟨hms', List.isChain_singleton _, ?_⟩
    intro b hb d hd
    obtain ⟨hb', hd', hrel⟩ := hlink b hb _ rfl
    rw [List.head?_cons, Option.mem_some] at hd
    subst hd
    exact ⟨hb', by simp, by simpa using hrel⟩

/-! ## §4 Blocks -/

/-- Whether a segment is a block: it consists of an operator. -/
private def isBlock (segment : List Char) : Bool :=
  (segment.head?.bind Operator.ofSymbol?).isSome

private theorem blocks_eq (s : List Char) : blocks s = (s.splitBy sameBlock).filter isBlock := rfl

private theorem isBlock_replicate (k : Nat) (x : Char) (m : List Char) :
    isBlock (List.replicate (k + 1) x ++ m) = (Operator.ofSymbol? x).isSome := rfl

@[simp] theorem blocks_nil : blocks [] = [] := rfl

@[simp] theorem blocks_singleton (op : Operator) : blocks [op.symbol] = [[op.symbol]] := by
  cases op <;> rfl

/-- **Blocks do not reach over a boundary** between characters of different blocks. -/
theorem blocks_append {s t : List Char}
    (h : ∀ x ∈ s.getLast?, ∀ y ∈ t.head?, sameBlock x y = false) :
    blocks (s ++ t) = blocks s ++ blocks t := by
  rw [blocks_eq, List.splitBy_append h, List.filter_append]
  rfl

/-- A run is one block. -/
theorem blocks_replicate {op : Operator} (hop : op.isJump = false) (k : Nat) :
    blocks (List.replicate (k + 1) op.symbol) = [List.replicate (k + 1) op.symbol] := by
  have hchain : (List.replicate (k + 1) op.symbol).IsChain fun x y => sameBlock x y := by
    apply List.isChain_replicate_of_rel
    exact sameBlock_symbol.mpr ⟨rfl, hop⟩
  rw [blocks_eq, List.splitBy_of_isChain (by simp) hchain]
  rw [List.filter_cons_of_pos]
  · rfl
  · have := isBlock_replicate k op.symbol []
    rw [List.append_nil] at this
    rw [this, Operator.ofSymbol?_symbol]
    rfl

/-- A character that is no operator adds nothing. -/
theorem blocks_concat_comment {s : List Char} {c : Char} (hc : Operator.ofSymbol? c = none) :
    blocks (s ++ [c]) = blocks s := by
  by_cases hr : ∃ x, s.getLast? = some x ∧ sameBlock x c = true
  · -- The character belongs to the last segment, which is no block with or without it.
    obtain ⟨x, hlast, hr⟩ := hr
    obtain ⟨ms, k, hs, hsc⟩ := splitBy_concat hlast hr
    obtain rfl := eq_of_sameBlock hr
    have hwithout := isBlock_replicate k x []
    have hwith := isBlock_replicate k x [x]
    rw [List.append_nil] at hwithout
    rw [blocks_eq, blocks_eq, hs, hsc, List.filter_append, List.filter_append,
      List.filter_singleton, List.filter_singleton, hwithout, hwith, hc]
    rfl
  · have hboundary : ∀ x ∈ s.getLast?, ∀ y ∈ [c].head?, sameBlock x y = false := by
      intro x hx y hy
      rw [List.head?_cons, Option.mem_some] at hy
      subst hy
      exact Bool.not_eq_true _ ▸ fun h => hr ⟨x, hx, h⟩
    have hsingle : blocks [c] = [] := by
      show [[c]].filter isBlock = []
      simp [isBlock, hc]
    rw [blocks_append hboundary, hsingle, List.append_nil]

/-- An operator that does not go on with a run is a new block. -/
theorem blocks_concat_start {s : List Char} {op : Operator}
    (h : op.isJump = true ∨ s.getLast? ≠ some op.symbol) :
    blocks (s ++ [op.symbol]) = blocks s ++ [[op.symbol]] := by
  rw [blocks_append, blocks_singleton]
  intro x hx y hy
  rw [List.head?_cons, Option.mem_some] at hy
  subst hy
  rw [← Bool.not_eq_true, sameBlock_symbol]
  rintro ⟨rfl, hop⟩
  rcases h with h | h
  · rw [h] at hop
    cases hop
  · exact h hx

/-- An operator that goes on with a run makes the last block longer. -/
theorem blocks_concat_extend {s : List Char} {op : Operator} (hop : op.isJump = false)
    (hlast : s.getLast? = some op.symbol) :
    ∃ bs k, blocks s = bs ++ [List.replicate (k + 1) op.symbol] ∧
      blocks (s ++ [op.symbol]) = bs ++ [List.replicate (k + 2) op.symbol] := by
  obtain ⟨ms, k, hs, hsc⟩ := splitBy_concat hlast (sameBlock_symbol.mpr ⟨rfl, hop⟩)
  have hwithout := isBlock_replicate k op.symbol []
  have hwith := isBlock_replicate k op.symbol [op.symbol]
  rw [List.append_nil, Operator.ofSymbol?_symbol] at hwithout
  rw [Operator.ofSymbol?_symbol] at hwith
  refine ⟨ms.filter isBlock, k, ?_, ?_⟩
  · rw [blocks_eq, hs, List.filter_append, List.filter_singleton, hwithout]
    rfl
  · rw [blocks_eq, hsc, List.filter_append, List.filter_singleton, hwith,
      ← List.replicate_succ']
    rfl

/-- **One more character** adds nothing, is a new block, or makes the last block longer. -/
theorem blocks_concat_cases (s : List Char) (c : Char) :
    blocks (s ++ [c]) = blocks s ∨
    blocks (s ++ [c]) = blocks s ++ [[c]] ∨
    ∃ bs k, blocks s = bs ++ [List.replicate (k + 1) c] ∧
      blocks (s ++ [c]) = bs ++ [List.replicate (k + 2) c] := by
  cases hop : Operator.ofSymbol? c with
  | none => exact .inl (blocks_concat_comment hop)
  | some op =>
    obtain rfl := Operator.ofSymbol?_eq_some_iff.mp hop
    by_cases hstart : op.isJump = true ∨ s.getLast? ≠ some op.symbol
    · exact .inr (.inl (blocks_concat_start hstart))
    · rw [not_or, not_not, Bool.not_eq_true] at hstart
      exact .inr (.inr (blocks_concat_extend hstart.1 hstart.2))

/-- One more character does not make blocks fewer. -/
theorem length_blocks_le_concat (s : List Char) (c : Char) :
    (blocks s).length ≤ (blocks (s ++ [c])).length := by
  rcases blocks_concat_cases s c with h | h | ⟨bs, k, hs, h⟩
  · rw [h]
  · rw [h, List.length_append]
    omega
  · rw [hs, h, List.length_append, List.length_append, List.length_singleton,
      List.length_singleton]

/-- **Blocks lose nothing** but the characters that are no operators. -/
theorem flatten_blocks (s : List Char) :
    (blocks s).flatten = s.filter fun c => (Operator.ofSymbol? c).isSome := by
  induction s using List.reverseRecOn with
  | nil => rfl
  | append_singleton s c ih =>
    rw [List.filter_append, ← ih]
    cases hop : Operator.ofSymbol? c with
    | none =>
      rw [blocks_concat_comment hop]
      simp [hop]
    | some op =>
      obtain rfl := Operator.ofSymbol?_eq_some_iff.mp hop
      rw [List.filter_singleton, hop]
      by_cases hstart : op.isJump = true ∨ s.getLast? ≠ some op.symbol
      · rw [blocks_concat_start hstart]
        simp
      · -- The character goes on with the last block.
        rw [not_or, not_not, Bool.not_eq_true] at hstart
        obtain ⟨bs, k, hs, hsc⟩ := blocks_concat_extend hstart.1 hstart.2
        rw [hs, hsc, List.flatten_append, List.flatten_append, List.flatten_singleton,
          List.flatten_singleton, List.replicate_succ', ← List.append_assoc]
        rfl

/-- There are no more blocks than characters. -/
theorem length_blocks_le (s : List Char) : (blocks s).length ≤ s.length := by
  induction s using List.reverseRecOn with
  | nil => exact Nat.le_refl _
  | append_singleton s c ih =>
    rw [List.length_append, List.length_singleton]
    rcases blocks_concat_cases s c with h | h | ⟨bs, k, hs, h⟩
    · rw [h]
      omega
    · rw [h, List.length_append, List.length_singleton]
      omega
    · rw [hs] at ih
      rw [h]
      simp only [List.length_append, List.length_singleton] at ih ⊢
      omega

/-- A block is no longer than its text. -/
theorem length_le_of_mem_blocks {s block : List Char} (hblock : block ∈ blocks s) :
    block.length ≤ s.length := by
  induction s using List.reverseRecOn generalizing block with
  | nil => cases hblock
  | append_singleton s c ih =>
    rw [List.length_append, List.length_singleton]
    rcases blocks_concat_cases s c with h | h | ⟨bs, k, hs, h⟩
    · exact Nat.le_succ_of_le (ih (h ▸ hblock))
    · rw [h] at hblock
      rcases List.mem_append.mp hblock with hblock | hblock
      · exact Nat.le_succ_of_le (ih hblock)
      · rw [List.mem_singleton.mp hblock, List.length_singleton]
        omega
    · rw [h] at hblock
      rcases List.mem_append.mp hblock with hblock | hblock
      · exact Nat.le_succ_of_le (ih (hs ▸ List.mem_append_left _ hblock))
      · have hlast : (List.replicate (k + 1) c).length ≤ s.length :=
          ih (hs ▸ List.mem_append_right _ List.mem_cons_self)
        rw [List.mem_singleton.mp hblock]
        simp only [List.length_replicate] at hlast ⊢
        omega

/-! ## §5 Instructions that a block comes from -/

theorem symbol_inj {op op' : Operator} (h : op.symbol = op'.symbol) : op = op' := by
  have hread := Operator.ofSymbol?_symbol op
  rw [h, Operator.ofSymbol?_symbol, Option.some.injEq] at hread
  exact hread.symm

theorem render_run {op : Operator} (hop : op.isJump = false) (k : Nat) :
    Instruction.render ⟨op, k⟩ = List.replicate k op.symbol := by
  simp [Instruction.render, hop]

theorem render_jump {op : Operator} (hop : op.isJump = true) (n : Int) :
    Instruction.render ⟨op, n⟩ = [op.symbol] := by
  simp [Instruction.render, hop]

/-- An instruction is written with its own operator. -/
theorem operator_eq_of_render {i : Instruction} {op : Operator} {m : List Char}
    (h : i.render = op.symbol :: m) : i.operator = op := by
  apply symbol_inj
  rw [Instruction.render] at h
  split at h
  · exact (List.cons.inj h).1
  · exact List.eq_of_mem_replicate (h ▸ List.mem_cons_self) |>.symm

/-- **A run is written by one instruction only**: its operand is the length of the run. -/
theorem eq_of_render_run {i : Instruction} {op : Operator} (hop : op.isJump = false) {k : Nat}
    (h : i.render = List.replicate (k + 1) op.symbol) : i = ⟨op, (k + 1 : Nat)⟩ := by
  obtain ⟨op', n⟩ := i
  obtain rfl : op' = op := operator_eq_of_render (h.trans List.replicate_succ)
  have hlength := congrArg List.length h
  simp only [Instruction.render, hop, Bool.false_eq_true, if_false, List.length_replicate]
    at hlength
  congr 1
  omega

/-! ## §6 Addresses of blocks -/

/-- The address of the block that begins at a position: the number of blocks before it. -/
def blockAddress (s : List Char) (position : Nat) : Nat := (blocks (s.take position)).length

theorem blockAddress_append {s : List Char} {position : Nat} (h : position ≤ s.length)
    (t : List Char) : blockAddress (s ++ t) position = blockAddress s position := by
  rw [blockAddress, List.take_append_of_le_length h]
  rfl

@[simp] theorem blockAddress_length (s : List Char) :
    blockAddress s s.length = (blocks s).length := by
  rw [blockAddress, List.take_length]

theorem take_succ_of_getElem? {s : List Char} {q : Nat} {c : Char} (h : s[q]? = some c) :
    s.take (q + 1) = s.take q ++ [c] := by
  rw [List.take_add_one, h]
  rfl

/-- A character that is no operator is passed over. -/
theorem blockAddress_succ_comment {s : List Char} {q : Nat} {c : Char} (h : s[q]? = some c)
    (hc : Operator.ofSymbol? c = none) : blockAddress s (q + 1) = blockAddress s q := by
  rw [blockAddress, take_succ_of_getElem? h, blocks_concat_comment hc]
  rfl

/-- A bracket is one block. -/
theorem blockAddress_succ_jump {s : List Char} {q : Nat} {op : Operator}
    (h : s[q]? = some op.symbol) (hop : op.isJump = true) :
    blockAddress s (q + 1) = blockAddress s q + 1 := by
  rw [blockAddress, take_succ_of_getElem? h, blocks_concat_start (.inl hop), List.length_append]
  rfl

theorem blockAddress_le_succ (s : List Char) (q : Nat) :
    blockAddress s q ≤ blockAddress s (q + 1) := by
  rw [blockAddress, blockAddress, List.take_add_one]
  cases s[q]? with
  | none => simp
  | some c => exact length_blocks_le_concat _ c

/-- Blocks further behind have no lower addresses. -/
theorem blockAddress_mono (s : List Char) {q q' : Nat} (h : q ≤ q') :
    blockAddress s q ≤ blockAddress s q' := by
  induction h with
  | refl => exact Nat.le_refl _
  | step _ ih => exact Nat.le_trans ih (blockAddress_le_succ s _)

/-- Blocks behind a bracket have higher addresses. -/
theorem blockAddress_lt {s : List Char} {q q' : Nat} (op : Operator) (hop : op.isJump = true)
    (hq : s[q]? = some op.symbol) (h : q < q') : blockAddress s q < blockAddress s q' := by
  have hmono := blockAddress_mono s (Nat.succ_le_of_lt h)
  rw [blockAddress_succ_jump hq hop] at hmono
  exact hmono

/-- **Every block of one character** is the block of a character of the text. -/
theorem exists_position_of_singleton {s : List Char} {c : Char} {a : Nat}
    (h : (blocks s)[a]? = some [c]) : ∃ q, s[q]? = some c ∧ blockAddress s q = a := by
  induction s using List.reverseRecOn with
  | nil => cases h
  | append_singleton s d ih =>
    have hearlier : (blocks s)[a]? = some [c] →
        ∃ q, (s ++ [d])[q]? = some c ∧ blockAddress (s ++ [d]) q = a := by
      intro h
      obtain ⟨q, hq, rfl⟩ := ih h
      exact ⟨q, getElem?_concat_eq_some.mpr (.inl hq),
        blockAddress_append (Nat.le_of_lt (lt_length_of_getElem? hq)) _⟩
    rcases blocks_concat_cases s d with hd | hd | ⟨bs, k, hs, hd⟩
    · exact hearlier (hd ▸ h)
    · rw [hd] at h
      rcases getElem?_concat_eq_some.mp h with h | ⟨rfl, hc⟩
      · exact hearlier h
      · refine ⟨s.length, getElem?_concat_eq_some.mpr (.inr ⟨rfl, List.singleton_inj.mp hc⟩), ?_⟩
        rw [blockAddress_append (Nat.le_refl _), blockAddress_length]
    · rw [hd] at h
      rcases getElem?_concat_eq_some.mp h with h | ⟨-, hc⟩
      · apply hearlier
        rw [hs]
        exact getElem?_concat_eq_some.mpr (.inl h)
      · -- The last block has two characters or more.
        cases hc

/-! ## §7 Boundaries and stretches -/

/-- No run goes on across a position. -/
def Boundary (s : List Char) (q : Nat) : Prop :=
  ∀ op : Operator, op.isJump = false → (s.take q).getLast? = some op.symbol →
    s[q]? ≠ some op.symbol

/-- An operator is repeated `k` times from a position on. -/
def Stretch (s : List Char) (op : Operator) (q k : Nat) : Prop :=
  ∀ i < k, s[q + i]? = some op.symbol

theorem Boundary.zero (s : List Char) : Boundary s 0 := by
  intro op _ hlast
  cases hlast

/-- After a character that belongs to no run there is a boundary. -/
theorem Boundary.succ {s : List Char} {q : Nat} {c : Char} (h : s[q]? = some c)
    (hc : ∀ op : Operator, op.isJump = false → c ≠ op.symbol) : Boundary s (q + 1) := by
  intro op hop hlast
  rw [take_succ_of_getElem? h, List.getLast?_concat, Option.some.injEq] at hlast
  exact absurd hlast (hc op hop)

theorem Stretch.head {s : List Char} {op : Operator} {q k : Nat} (h : Stretch s op q (k + 1)) :
    s[q]? = some op.symbol :=
  h 0 (Nat.succ_pos k)

theorem Stretch.tail {s : List Char} {op : Operator} {q k : Nat} (h : Stretch s op q (k + 1)) :
    Stretch s op (q + 1) k := by
  intro i hi
  have hnext := h (i + 1) (by omega)
  rwa [Nat.add_comm i, ← Nat.add_assoc] at hnext

/-- A run between two texts that do not go on with it is one block. -/
theorem blocks_append_run {u v : List Char} {op : Operator} (hop : op.isJump = false) (k : Nat)
    (hu : u.getLast? ≠ some op.symbol) (hv : v.head? ≠ some op.symbol) :
    blocks (u ++ List.replicate (k + 1) op.symbol) =
        blocks u ++ [List.replicate (k + 1) op.symbol] ∧
      blocks (u ++ List.replicate (k + 1) op.symbol ++ v) =
        blocks u ++ [List.replicate (k + 1) op.symbol] ++ blocks v := by
  have hrun : blocks (u ++ List.replicate (k + 1) op.symbol) =
      blocks u ++ [List.replicate (k + 1) op.symbol] := by
    rw [blocks_append, blocks_replicate hop]
    intro x hx y hy
    rw [List.replicate_succ, List.head?_cons, Option.mem_some] at hy
    subst hy
    rw [← Bool.not_eq_true, sameBlock_symbol]
    rintro ⟨rfl, -⟩
    exact hu hx
  refine ⟨hrun, ?_⟩
  rw [blocks_append, hrun]
  intro x hx y hy
  rw [List.replicate_succ', ← List.append_assoc, List.getLast?_concat, Option.mem_some] at hx
  subst hx
  rw [← Bool.not_eq_true]
  intro hsame
  obtain rfl := eq_of_sameBlock hsame
  exact hv hy

/-- The first character of a text is repeated up to where another one follows, or the end. -/
theorem exists_replicate_append (c : Char) (t : List Char) :
    ∃ k v, c :: t = List.replicate (k + 1) c ++ v ∧ v.head? ≠ some c := by
  induction t with
  | nil => exact ⟨0, [], rfl, nofun⟩
  | cons d t ih =>
    by_cases hd : d = c
    · subst hd
      obtain ⟨k, v, ht, hv⟩ := ih
      exact ⟨k + 1, v, congrArg (d :: ·) ht, hv⟩
    · refine ⟨0, d :: t, rfl, ?_⟩
      rw [List.head?_cons, ne_eq, Option.some.injEq]
      exact hd

/-- **From a boundary on**, an operator is repeated up to the next boundary, and this stretch is one
block. -/
theorem Boundary.exists_stretch {s : List Char} {q : Nat} {op : Operator} (hq : Boundary s q)
    (hop : op.isJump = false) (h : s[q]? = some op.symbol) :
    ∃ k, Stretch s op q (k + 1) ∧
      (blocks s)[blockAddress s q]? = some (List.replicate (k + 1) op.symbol) ∧
      blockAddress s (q + (k + 1)) = blockAddress s q + 1 ∧ Boundary s (q + (k + 1)) ∧
      q + (k + 1) ≤ s.length := by
  obtain ⟨hlt, hget⟩ := List.getElem?_eq_some_iff.mp h
  -- The text is cut before the stretch and after it.
  obtain ⟨k, v, hdrop, hv⟩ := exists_replicate_append op.symbol (s.drop (q + 1))
  rw [← hget, ← List.drop_eq_getElem_cons hlt, hget] at hdrop
  obtain ⟨u, hu, hs⟩ : ∃ u : List Char, u.length = q ∧
      s = u ++ List.replicate (k + 1) op.symbol ++ v := by
    refine ⟨s.take q, by simp; omega, ?_⟩
    rw [List.append_assoc, ← hdrop, List.take_append_drop]
  have hlength : (u ++ List.replicate (k + 1) op.symbol).length = q + (k + 1) := by
    rw [List.length_append, List.length_replicate, hu]
  have htake : s.take q = u := by
    rw [hs, List.append_assoc, ← hu, List.take_left]
  have htake' : s.take (q + (k + 1)) = u ++ List.replicate (k + 1) op.symbol := by
    rw [hs, ← hlength, List.take_left]
  have hbefore : u.getLast? ≠ some op.symbol := by
    intro hlast
    exact hq op hop (htake ▸ hlast) h
  obtain ⟨hrun, hblocks⟩ := blocks_append_run hop k hbefore hv
  rw [← hs] at hblocks
  refine ⟨k, ?_, ?_, ?_, ?_, ?_⟩
  · -- The stretch itself
    intro i hi
    rw [hs, List.append_assoc, List.getElem?_append_right (by omega),
      List.getElem?_append_left (by rw [List.length_replicate]; omega),
      List.getElem?_replicate, if_pos (by omega)]
  · -- Its block comes after those of the text before it.
    rw [blockAddress, htake, hblocks, List.append_assoc,
      List.getElem?_append_right (Nat.le_refl _), Nat.sub_self]
    rfl
  · rw [blockAddress, blockAddress, htake, htake', hrun, List.length_append]
    rfl
  · -- What follows does not go on with it.
    intro op' _ hlast hnext
    rw [htake', List.replicate_succ', ← List.append_assoc, List.getLast?_concat,
      Option.some.injEq] at hlast
    rw [← hlast, hs, List.getElem?_append_right (by omega), hlength, Nat.sub_self,
      ← List.head?_eq_getElem?] at hnext
    exact hv hnext
  · rw [hs, List.length_append, hlength]
    omega

end FoldTape
