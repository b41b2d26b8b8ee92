import FoldTape.Brackets

/-!
# Partners of brackets

The search for a partner goes on for as long as the count stays where it should; where it ends,
the text in between is balanced. So the searches forwards and backwards find each other.

Main statements:

- `closingFrom_eq_none_iff`: a search fails exactly if the count never falls too low;
- `closingFrom_eq_some`: a search that succeeds has passed over a balanced text;
- `closingPartner?_concat`: what one more character changes;
- `openingPartner?_of_closingPartner?`: the partner of the partner is the bracket itself.
-/

namespace FoldTape

/-! ## §1 Counting -/

/-- A character opens a loop, closes one, or does neither. -/
theorem bracket_cases (c : Char) : c = '[' ∨ c = ']' ∨ c ≠ '[' ∧ c ≠ ']' := by
  by_cases hopen : c = '['
  · exact .inl hopen
  · by_cases hclose : c = ']'
    · exact .inr (.inl hclose)
    · exact .inr (.inr ⟨hopen, hclose⟩)

@[simp] theorem bracketCount_cons_open (s : List Char) :
    bracketCount ('[' :: s) = bracketCount s + 1 := by
  simp [bracketCount]
  omega

@[simp] theorem bracketCount_cons_close (s : List Char) :
    bracketCount (']' :: s) = bracketCount s - 1 := by
  simp [bracketCount]
  omega

theorem bracketCount_cons_other {c : Char} (hc : c ≠ '[' ∧ c ≠ ']') (s : List Char) :
    bracketCount (c :: s) = bracketCount s := by
  simp [bracketCount, hc]

@[simp] theorem bracketCount_reverse (s : List Char) : bracketCount s.reverse = bracketCount s := by
  simp only [bracketCount, List.count_reverse]

theorem bracketCount_take_add_drop (s : List Char) (n : Nat) :
    bracketCount (s.take n) + bracketCount (s.drop n) = bracketCount s := by
  rw [← bracketCount_append, List.take_append_drop]

/-- No beginning of the text closes more loops than `depth` loops that are open before it and
those that it opens itself. -/
def StaysOpen (depth : Nat) (s : List Char) : Prop :=
  ∀ n, 0 ≤ depth + bracketCount (s.take n)

namespace StaysOpen

theorem nil (depth : Nat) : StaysOpen depth [] := by
  intro n
  simp

/-- What is open at the end of a text that stays open. -/
theorem end_nonneg {depth : Nat} {s : List Char} (h : StaysOpen depth s) :
    0 ≤ depth + bracketCount s := by
  have := h s.length
  rwa [List.take_length] at this

@[simp] theorem cons_open_iff {depth : Nat} {s : List Char} :
    StaysOpen depth ('[' :: s) ↔ StaysOpen (depth + 1) s := by
  constructor
  · intro h n
    have := h (n + 1)
    rw [List.take_succ_cons, bracketCount_cons_open] at this
    omega
  · intro h n
    cases n with
    | zero => simp
    | succ n =>
      have := h n
      rw [List.take_succ_cons, bracketCount_cons_open]
      omega

@[simp] theorem cons_close_zero {s : List Char} : ¬ StaysOpen 0 (']' :: s) := by
  intro h
  have := h 1
  simp at this

@[simp] theorem cons_close_succ_iff {depth : Nat} {s : List Char} :
    StaysOpen (depth + 1) (']' :: s) ↔ StaysOpen depth s := by
  constructor
  · intro h n
    have := h (n + 1)
    rw [List.take_succ_cons, bracketCount_cons_close] at this
    omega
  · intro h n
    cases n with
    | zero => simp; omega
    | succ n =>
      have := h n
      rw [List.take_succ_cons, bracketCount_cons_close]
      omega

theorem cons_other_iff {depth : Nat} {c : Char} (hc : c ≠ '[' ∧ c ≠ ']') {s : List Char} :
    StaysOpen depth (c :: s) ↔ StaysOpen depth s := by
  constructor
  · intro h n
    have := h (n + 1)
    rwa [List.take_succ_cons, bracketCount_cons_other hc] at this
  · intro h n
    cases n with
    | zero => simp
    | succ n =>
      rw [List.take_succ_cons, bracketCount_cons_other hc]
      exact h n

end StaysOpen

/-! ## §2 Searching forwards -/

@[simp] theorem closingFrom_cons_open (depth position : Nat) (s : List Char) :
    closingFrom depth position ('[' :: s) = closingFrom (depth + 1) (position + 1) s := rfl

@[simp] theorem closingFrom_cons_close_zero (position : Nat) (s : List Char) :
    closingFrom 0 position (']' :: s) = some position := rfl

@[simp] theorem closingFrom_cons_close_succ (depth position : Nat) (s : List Char) :
    closingFrom (depth + 1) position (']' :: s) = closingFrom depth (position + 1) s := rfl

theorem closingFrom_cons_other {c : Char} (hc : c ≠ '[' ∧ c ≠ ']') (depth position : Nat)
    (s : List Char) :
    closingFrom depth position (c :: s) = closingFrom depth (position + 1) s := by
  rw [closingFrom.eq_def]
  simp only [if_neg hc.1, if_neg hc.2]

/-- **A search fails** exactly if the text leaves all loops open that were open before it. -/
theorem closingFrom_eq_none_iff {depth position : Nat} {s : List Char} :
    closingFrom depth position s = none ↔ StaysOpen depth s := by
  induction s generalizing depth position with
  | nil => simp [closingFrom, StaysOpen.nil]
  | cons c s ih =>
    rcases bracket_cases c with rfl | rfl | hc
    · rw [closingFrom_cons_open, StaysOpen.cons_open_iff, ih]
    · cases depth with
      | zero => simp
      | succ depth => rw [closingFrom_cons_close_succ, StaysOpen.cons_close_succ_iff, ih]
    · rw [closingFrom_cons_other hc, StaysOpen.cons_other_iff hc, ih]

/-- A search that fails in a text goes on behind it, with as many loops open as it has left. -/
theorem closingFrom_append {depth position : Nat} {s : List Char} (h : StaysOpen depth s)
    (t : List Char) :
    closingFrom depth position (s ++ t) =
      closingFrom (depth + bracketCount s).toNat (position + s.length) t := by
  induction s generalizing depth position with
  | nil => simp
  | cons c s ih =>
    have hlength : position + (c :: s).length = position + 1 + s.length := by
      rw [List.length_cons]
      omega
    rw [List.cons_append, hlength]
    rcases bracket_cases c with rfl | rfl | hc
    · rw [closingFrom_cons_open, ih (StaysOpen.cons_open_iff.mp h), bracketCount_cons_open]
      congr 1
      omega
    · cases depth with
      | zero => exact absurd h StaysOpen.cons_close_zero
      | succ depth =>
        rw [closingFrom_cons_close_succ, ih (StaysOpen.cons_close_succ_iff.mp h),
          bracketCount_cons_close]
        congr 1
        omega
    · rw [closingFrom_cons_other hc, ih ((StaysOpen.cons_other_iff hc).mp h),
        bracketCount_cons_other hc]

/-- **A search succeeds** at the first closing bracket that no loop accounts for. -/
theorem closingFrom_eq_some {depth position q : Nat} {s : List Char}
    (h : closingFrom depth position s = some q) :
    ∃ u v, s = u ++ ']' :: v ∧ q = position + u.length ∧ depth + bracketCount u = 0 ∧
      StaysOpen depth u := by
  induction s generalizing depth position with
  | nil => cases h
  | cons c s ih =>
    rcases bracket_cases c with rfl | rfl | hc
    · rw [closingFrom_cons_open] at h
      obtain ⟨u, v, rfl, rfl, hzero, hopen⟩ := ih h
      refine ⟨'[' :: u, v, rfl, ?_, ?_, StaysOpen.cons_open_iff.mpr hopen⟩
      · rw [List.length_cons]
        omega
      · rw [bracketCount_cons_open]
        omega
    · cases depth with
      | zero =>
        rw [closingFrom_cons_close_zero, Option.some.injEq] at h
        exact ⟨[], s, rfl, by simp [h], by simp, StaysOpen.nil 0⟩
      | succ depth =>
        rw [closingFrom_cons_close_succ] at h
        obtain ⟨u, v, rfl, rfl, hzero, hopen⟩ := ih h
        refine ⟨']' :: u, v, rfl, ?_, ?_, StaysOpen.cons_close_succ_iff.mpr hopen⟩
        · rw [List.length_cons]
          omega
        · rw [bracketCount_cons_close]
          omega
    · rw [closingFrom_cons_other hc] at h
      obtain ⟨u, v, rfl, rfl, hzero, hopen⟩ := ih h
      refine ⟨c :: u, v, rfl, ?_, ?_, (StaysOpen.cons_other_iff hc).mpr hopen⟩
      · rw [List.length_cons]
        omega
      · rw [bracketCount_cons_other hc]
        exact hzero

/-- A search that succeeds in a text does not look behind it. -/
theorem closingFrom_append_of_some {depth position q : Nat} {s : List Char}
    (h : closingFrom depth position s = some q) (t : List Char) :
    closingFrom depth position (s ++ t) = some q := by
  obtain ⟨u, v, rfl, rfl, hzero, hopen⟩ := closingFrom_eq_some h
  rw [List.append_assoc, closingFrom_append hopen, hzero]
  rfl

/-! ## §3 Searching backwards -/

/-- A search backwards passes over a text of which no beginning opens more loops than the search
has met the ends of. -/
theorem openingFrom_append {depth : Nat} {s : List Char}
    (h : ∀ n, bracketCount (s.take n) ≤ depth) (t : List Char) :
    openingFrom depth (s ++ t) = openingFrom (depth - bracketCount s).toNat t := by
  induction s generalizing depth with
  | nil => simp
  | cons c s ih =>
    have htail : ∀ n, bracketCount (c :: s.take n) ≤ depth := fun n => h (n + 1)
    rw [List.cons_append]
    rcases bracket_cases c with rfl | rfl | hc
    · simp only [bracketCount_cons_open] at htail ⊢
      cases depth with
      | zero =>
        have := htail 0
        simp at this
      | succ depth =>
        have hrest : ∀ n, bracketCount (s.take n) ≤ depth := by
          intro n
          have := htail n
          omega
        show openingFrom depth (s ++ t) = _
        rw [ih hrest]
        congr 1
        omega
    · simp only [bracketCount_cons_close] at htail ⊢
      have hrest : ∀ n, bracketCount (s.take n) ≤ (depth + 1 : Nat) := by
        intro n
        have := htail n
        omega
      show openingFrom (depth + 1) (s ++ t) = _
      rw [ih hrest]
      congr 1
      omega
    · simp only [bracketCount_cons_other hc] at htail ⊢
      rw [openingFrom.eq_def]
      simp only [if_neg hc.2, if_neg hc.1]
      exact ih htail

/-! ## §4 Partners -/

/-- **A bracket and its partner** enclose a balanced text. -/
theorem closingPartner?_eq_some {s : List Char} {i j : Nat} (h : closingPartner? s i = some j) :
    ∃ u v, s.drop (i + 1) = u ++ ']' :: v ∧ j = i + 1 + u.length ∧ bracketCount u = 0 ∧
      StaysOpen 0 u := by
  obtain ⟨u, v, hdrop, rfl, hzero, hopen⟩ := closingFrom_eq_some h
  exact ⟨u, v, hdrop, rfl, by omega, hopen⟩

/-- The partner of an opening bracket is a closing bracket. -/
theorem getElem?_of_closingPartner? {s : List Char} {i j : Nat}
    (h : closingPartner? s i = some j) : s[j]? = some ']' := by
  obtain ⟨u, v, hdrop, rfl, -⟩ := closingPartner?_eq_some h
  rw [← List.getElem?_drop, hdrop, List.getElem?_append_right (Nat.le_refl _), Nat.sub_self]
  rfl

theorem closingPartner?_eq_none_iff {s : List Char} {i : Nat} :
    closingPartner? s i = none ↔ StaysOpen 0 (s.drop (i + 1)) :=
  closingFrom_eq_none_iff

/-- **One more character** gives a partner only to a bracket that has none: the character has to be
a closing bracket, and all loops opened since have to be closed. -/
theorem closingPartner?_concat {s : List Char} {i : Nat} (hi : i < s.length) (c : Char) :
    closingPartner? (s ++ [c]) i =
      (closingPartner? s i).or
        (if c = ']' ∧ bracketCount (s.drop (i + 1)) = 0 then some s.length else none) := by
  have hdrop : (s ++ [c]).drop (i + 1) = s.drop (i + 1) ++ [c] :=
    List.drop_append_of_le_length (by omega)
  cases hpartner : closingPartner? s i with
  | some j =>
    rw [closingPartner?, hdrop, closingFrom_append_of_some hpartner]
    rfl
  | none =>
    -- The search has come to the end of the text with some loops open and goes on with `c`.
    have hopen := closingPartner?_eq_none_iff.mp hpartner
    have hnonneg := hopen.end_nonneg
    have hlength : i + 1 + (s.drop (i + 1)).length = s.length := by
      rw [List.length_drop]
      omega
    rw [closingPartner?, hdrop, closingFrom_append hopen, hlength, Option.none_or]
    rcases bracket_cases c with rfl | rfl | hc
    · simp [closingFrom]
    · by_cases hzero : bracketCount (s.drop (i + 1)) = 0
      · rw [hzero, if_pos ⟨rfl, rfl⟩]
        rfl
      · obtain ⟨depth, hdepth⟩ : ∃ depth : Nat,
            ((0 : Nat) + bracketCount (s.drop (i + 1))).toNat = depth + 1 :=
          ⟨(bracketCount (s.drop (i + 1))).toNat - 1, by omega⟩
        rw [hdepth, if_neg (fun h => hzero h.2)]
        rfl
    · rw [closingFrom_cons_other hc, if_neg (fun h => hc.2 h.1)]
      rfl

/-- An opening bracket at the end of a text has no partner yet. -/
theorem closingPartner?_concat_length (s : List Char) (c : Char) :
    closingPartner? (s ++ [c]) s.length = none := by
  rw [closingPartner?, List.drop_eq_nil_of_le (by simp)]
  rfl

/-- **The partner of the partner** of an opening bracket is the bracket itself. -/
theorem openingPartner?_of_closingPartner? {s : List Char} {i j : Nat} (hi : s[i]? = some '[')
    (h : closingPartner? s i = some j) : openingPartner? s j = some i := by
  obtain ⟨u, v, hdrop, rfl, hzero, hopen⟩ := closingPartner?_eq_some h
  have hlt : i < s.length := (List.getElem?_eq_some_iff.mp hi).1
  -- What the search backwards reads: the text in between, and then the bracket.
  have htake : s.take (i + 1 + u.length) = s.take i ++ '[' :: u := by
    rw [List.take_add, hdrop, List.take_left, List.take_add_one, hi]
    simp
  -- Read backwards, no part of the balanced text in between opens more loops than it closes.
  have hback : ∀ n, bracketCount (u.reverse.take n) ≤ (0 : Nat) := by
    intro n
    have hprefix := hopen (u.length - n)
    have hsplit := bracketCount_take_add_drop u (u.length - n)
    rw [List.take_reverse, bracketCount_reverse]
    omega
  rw [openingPartner?, htake, List.reverse_append, List.reverse_cons, List.append_assoc,
    openingFrom_append hback, bracketCount_reverse, hzero]
  show some (s.take i).reverse.length = some i
  rw [List.length_reverse, List.length_take, Nat.min_eq_left (by omega)]

/-- **Loops do not overlap**: a bracket that is opened between a bracket and its partner has its
own partner there. -/
theorem closingPartner?_lt {s : List Char} {i j k : Nat} (h : closingPartner? s i = some j)
    (hk : s[k]? = some '[') (hik : i < k) (hkj : k < j) :
    ∃ q, closingPartner? s k = some q ∧ q < j := by
  obtain ⟨u, v, hdrop, rfl, hzero, hopen⟩ := closingPartner?_eq_some h
  obtain ⟨m, rfl⟩ := Nat.exists_eq_add_of_lt hik
  have hm : m < u.length := by omega
  -- What is left of the text in between, after the bracket, closes more loops than it opens.
  have hbracket : u[m]? = some '[' := by
    rw [← hk, ← List.getElem?_append_left hm, ← hdrop, List.getElem?_drop]
    congr 1
    omega
  have htake : u.take (m + 1) = u.take m ++ ['['] := by
    rw [List.take_add_one, hbracket]
    rfl
  have hbefore := hopen m
  have hsplit := bracketCount_take_add_drop u (m + 1)
  rw [htake, bracketCount_append, bracketCount_cons_open, bracketCount_nil, hzero] at hsplit
  have hnotOpen : ¬ StaysOpen 0 (u.drop (m + 1)) := by
    intro hstays
    have hnonneg := hstays.end_nonneg
    omega
  have hbehind : s.drop (i + m + 1 + 1) = u.drop (m + 1) ++ ']' :: v := by
    have hadd : i + m + 1 + 1 = i + 1 + (m + 1) := by omega
    rw [hadd, ← List.drop_drop, hdrop, List.drop_append_of_le_length (by omega)]
  obtain ⟨q, hq⟩ := Option.ne_none_iff_exists'.mp (mt closingFrom_eq_none_iff.mp hnotOpen)
  refine ⟨q, ?_, ?_⟩
  · rw [closingPartner?, hbehind]
    exact closingFrom_append_of_some hq _
  · obtain ⟨u', v', hinner, rfl, -⟩ := closingFrom_eq_some hq
    have hlength := congrArg List.length hinner
    rw [List.length_drop, List.length_append, List.length_cons] at hlength
    omega

/-- Two opening brackets have no partner in common. -/
theorem closingPartner?_inj {s : List Char} {i i' j : Nat} (hi : s[i]? = some '[')
    (hi' : s[i']? = some '[') (h : closingPartner? s i = some j)
    (h' : closingPartner? s i' = some j) : i = i' := by
  have hback := openingPartner?_of_closingPartner? hi h
  rw [openingPartner?_of_closingPartner? hi' h', Option.some.injEq] at hback
  exact hback.symm

end FoldTape
