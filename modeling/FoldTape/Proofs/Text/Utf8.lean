import FoldTape.Operator
import FoldTape.Text.Encoding
import Mathlib.Data.List.Basic
import Mathlib.Data.List.Induction

/-!
# UTF-8, character by character

Bytes that are decoded as UTF-8 fall into pieces, one for each character. A byte below 128 is a
piece by itself and stands for the character with its value; every other piece consists of bytes
from 128 on and stands for a value from 128 on. What looks like an ASCII character in the bytes is
therefore one, and the bytes can be cut there.

## Architecture

- **§1 Pieces**: `ReadsAs`, and `Spells` for all the pieces of a text.
- **§2 Sequences**: a sequence that the decoder accepts is a piece.
- **§3 Texts**: `spells_of_decode`, `Spells.decode`.
- **§4 Cutting**: `Spells.exists_cut`.
-/

namespace FoldTape

/-! ## §1 Pieces -/

/-- The decoder reads these bytes as this text, whatever has been read before and comes after. -/
def ReadsAs (bytes : List UInt8) (text : List Char) : Prop :=
  ∀ position done rest, decodeUtf8From position none done (bytes ++ rest) =
    decodeUtf8From (position + bytes.length) none (text.reverse ++ done) rest

/-- Bytes spell a text: a byte below 128 by itself, or bytes from 128 on for one character whose
value is from 128 on as well. -/
inductive Spells : List UInt8 → List Char → Prop where
  | nil : Spells [] []
  | ascii {bytes : List UInt8} {text : List Char} {b : UInt8} : Spells bytes text → b < 0x80 →
      Spells (bytes ++ [b]) (text ++ [Char.ofNat b.toNat])
  | sequence {bytes piece : List UInt8} {text : List Char} {value : Nat} : Spells bytes text →
      piece ≠ [] → (∀ b ∈ piece, 0x80 ≤ b) → 0x80 ≤ value → ReadsAs piece [Char.ofNat value] →
      Spells (bytes ++ piece) (text ++ [Char.ofNat value])

theorem ReadsAs.append {bytes bytes' : List UInt8} {text text' : List Char}
    (h : ReadsAs bytes text) (h' : ReadsAs bytes' text') :
    ReadsAs (bytes ++ bytes') (text ++ text') := by
  intro position done rest
  rw [List.append_assoc, h, h', List.length_append, Nat.add_assoc, List.reverse_append,
    List.append_assoc]

theorem readsAs_ascii {b : UInt8} (hb : b < 0x80) : ReadsAs [b] [Char.ofNat b.toNat] := by
  intro position done rest
  simp [decodeUtf8From, hb]

/-- What is spelled is what is read. -/
theorem Spells.readsAs {bytes : List UInt8} {text : List Char} (h : Spells bytes text) :
    ReadsAs bytes text := by
  induction h with
  | nil => exact fun _ _ _ => rfl
  | ascii _ hb ih => exact ih.append (readsAs_ascii hb)
  | sequence _ _ _ _ hpiece ih => exact ih.append hpiece

theorem Spells.decode {bytes : List UInt8} {text : List Char} (h : Spells bytes text) :
    Encoding.utf8.decode bytes = .ok text := by
  have hread := h.readsAs 0 [] []
  rw [List.append_nil, List.append_nil] at hread
  rw [Encoding.decode, hread, decodeUtf8From, List.reverse_reverse]

/-! ## §2 Sequences -/

/-- A sequence can only end with a value from 128 on: the bits gathered so far are enough for that,
or enough is still to come. -/
structure Utf8Sequence.Long (s : Utf8Sequence) : Prop where
  low : 0x80 ≤ s.low
  value : 2 ≤ s.value ∨ 2 ≤ s.missing ∧ (1 ≤ s.value ∨ 0x90 ≤ s.low)

/-- **No byte leads an overlong sequence.** -/
theorem Utf8Sequence.long_of_lead {position : Nat} {b : UInt8} {s : Utf8Sequence}
    (h : ofLead? position b = some s) : s.Long := by
  have hbits : ∀ base least : UInt8, base ≤ least → least ≤ b →
      least.toNat - base.toNat ≤ (b - base).toNat := by
    intro base least hbase hleast
    rw [UInt8.toNat_sub_of_le b base (UInt8.le_trans hbase hleast)]
    exact Nat.sub_le_sub_right (UInt8.le_iff_toNat_le.mp hleast) _
  have hlong : ∀ {value missing : Nat} {low high : UInt8}, 0x80 ≤ low →
      (2 ≤ value ∨ 2 ≤ missing ∧ (1 ≤ value ∨ 0x90 ≤ low)) →
      Long ⟨position, b, value, missing, low, high⟩ := fun hlow hvalue => ⟨hlow, hvalue⟩
  simp only [ofLead?] at h
  split at h
  · -- Two bytes.
    rename_i hb
    cases h
    exact hlong (by decide) (.inl (hbits 0xc0 0xc2 (by decide) hb.1))
  split at h
  · -- Three bytes; after `e0` the next one makes up for the missing bits.
    cases h
    exact hlong (by decide) (.inr ⟨by decide, .inr (by decide)⟩)
  split at h
  · rename_i hb
    cases h
    exact hlong (by decide) (.inr ⟨by decide, .inl (hbits 0xe0 0xe1 (by decide) (hb ▸ by decide))⟩)
  split at h
  · rename_i hb
    cases h
    exact hlong (by decide) (.inr ⟨by decide, .inl (hbits 0xe0 0xe1 (by decide) hb.1)⟩)
  split at h
  · -- Four bytes; after `f0` as after `e0`.
    cases h
    exact hlong (by decide) (.inr ⟨by decide, .inr (by decide)⟩)
  split at h
  · rename_i hb
    cases h
    exact hlong (by decide) (.inr ⟨by decide, .inl (hbits 0xf0 0xf1 (by decide) hb.1)⟩)
  split at h
  · rename_i hb
    cases h
    exact hlong (by decide) (.inr ⟨by decide, .inl (hbits 0xf0 0xf1 (by decide) (hb ▸ by decide))⟩)
  · cases h

/-- A byte leads the same sequence in every place. -/
theorem Utf8Sequence.lead_elsewhere {position : Nat} {b : UInt8} {s : Utf8Sequence}
    (h : ofLead? position b = some s) (start : Nat) :
    ofLead? start b = some { s with start } := by
  simp only [ofLead?] at h ⊢
  split_ifs at h ⊢ <;> cases h <;> rfl

/-- One byte more is enough to have gathered the bits. -/
theorem Utf8Sequence.Long.two_le_value {s : Utf8Sequence} (hs : s.Long) {b : UInt8}
    (hb : s.low ≤ b) : 2 ≤ s.value * 64 + (b - 0x80).toNat := by
  have hbits : (b - 0x80).toNat = b.toNat - 128 :=
    UInt8.toNat_sub_of_le b 0x80 (UInt8.le_trans hs.low hb)
  by_cases hlow : 0x90 ≤ s.low
  · have hbyte : 144 ≤ b.toNat := UInt8.le_iff_toNat_le.mp (UInt8.le_trans hlow hb)
    omega
  · rcases hs.value with hvalue | ⟨-, hvalue | hvalue⟩
    · omega
    · omega
    · exact absurd hvalue hlow

/-- **The rest of a sequence** that the decoder accepts, and what it makes of it wherever the
sequence stands. -/
theorem exists_tail {s : Utf8Sequence} (hs : s.Long) {position : Nat} {done text : List Char}
    {bytes : List UInt8} (h : decodeUtf8From position (some s) done bytes = .ok text) :
    ∃ tail rest value, bytes = tail ++ rest ∧ (∀ b ∈ tail, 0x80 ≤ b) ∧ 0x80 ≤ value ∧
      ∀ position start done rest,
        decodeUtf8From position (some { s with start }) done (tail ++ rest) =
          decodeUtf8From (position + tail.length) none (Char.ofNat value :: done) rest := by
  induction bytes generalizing s position with
  | nil =>
    -- Bytes that end inside a sequence are refused.
    simp only [decodeUtf8From] at h
    cases h
  | cons b bytes ih =>
    simp only [decodeUtf8From] at h
    split at h
    · rename_i hrange
      have hb : 0x80 ≤ b := UInt8.le_trans hs.low hrange.1
      split at h
      · rename_i hlast
        refine ⟨[b], bytes, s.value * 64 + (b - 0x80).toNat, rfl, by simpa using hb, ?_, ?_⟩
        · have hvalue := hs.value
          omega
        · intro position start done rest
          simp [decodeUtf8From, hrange, hlast]
      · rename_i hmore
        have hnext : Utf8Sequence.Long { s with
            value := s.value * 64 + (b - 0x80).toNat, missing := s.missing - 1, low := 0x80
            high := 0xbf } := ⟨UInt8.le_refl _, .inl (hs.two_le_value hrange.1)⟩
        obtain ⟨tail, rest, value, rfl, htail, hvalue, hread⟩ := ih hnext h
        refine ⟨b :: tail, rest, value, rfl, ?_, hvalue, ?_⟩
        · rintro c (_ | ⟨_, hc⟩)
          · exact hb
          · exact htail c hc
        · intro position start done rest
          rw [List.cons_append, decodeUtf8From]
          simp only [if_pos hrange, if_neg hmore]
          rw [hread, List.length_cons, Nat.add_assoc, Nat.add_comm 1]
    · cases h

/-- A sequence that has been led and ended is read as its character. -/
theorem readsAs_sequence {position : Nat} {b : UInt8} {s : Utf8Sequence} {tail : List UInt8}
    {c : Char} (hb : ¬ b < 0x80) (hlead : Utf8Sequence.ofLead? position b = some s)
    (htail : ∀ position start done rest,
      decodeUtf8From position (some { s with start }) done (tail ++ rest) =
        decodeUtf8From (position + tail.length) none (c :: done) rest) :
    ReadsAs (b :: tail) [c] := by
  intro position done rest
  rw [List.cons_append, decodeUtf8From]
  simp only [if_neg hb, Utf8Sequence.lead_elsewhere hlead position]
  rw [htail, List.length_cons, Nat.add_assoc, Nat.add_comm 1]
  rfl

/-! ## §3 Texts -/

/-- **Decoded bytes spell the text.** -/
theorem Spells.append_of_decode {front bytes : List UInt8} {position : Nat}
    {done text : List Char} (hfront : Spells front done.reverse)
    (h : decodeUtf8From position none done bytes = .ok text) : Spells (front ++ bytes) text := by
  -- Induction on the number of bytes, of which every piece takes at least one away.
  induction hlength : bytes.length using Nat.strongRecOn
    generalizing front bytes position done with
  | _ n ih =>
    cases bytes with
    | nil =>
      simp only [decodeUtf8From] at h
      cases h
      rwa [List.append_nil]
    | cons b bytes =>
      simp only [decodeUtf8From] at h
      split at h
      · rename_i hb
        have hfront' : Spells (front ++ [b]) (Char.ofNat b.toNat :: done).reverse := by
          rw [List.reverse_cons]
          exact hfront.ascii hb
        have hrest := ih bytes.length (by simp [← hlength]) hfront' h rfl
        rwa [List.append_assoc] at hrest
      · rename_i hb
        split at h
        · rename_i s hlead
          have hlong := Utf8Sequence.long_of_lead hlead
          obtain ⟨tail, rest, value, rfl, htail, hvalue, hread⟩ := exists_tail hlong h
          have hpiece : ReadsAs (b :: tail) [Char.ofNat value] := readsAs_sequence hb hlead hread
          have hbytes : ∀ c ∈ b :: tail, 0x80 ≤ c := by
            rintro c (_ | ⟨_, hc⟩)
            · exact UInt8.not_lt.mp hb
            · exact htail c hc
          have hfront' : Spells (front ++ b :: tail) (Char.ofNat value :: done).reverse := by
            rw [List.reverse_cons]
            exact hfront.sequence (List.cons_ne_nil b tail) hbytes hvalue hpiece
          have hless : rest.length < n := by
            rw [← hlength, List.length_cons, List.length_append]
            omega
          have hafter := (hread (position + 1) s.start done rest).symm.trans h
          have hrest := ih rest.length hless hfront' hafter rfl
          rwa [List.append_assoc] at hrest
        · cases h

theorem spells_of_decode {bytes : List UInt8} {text : List Char}
    (h : Encoding.utf8.decode bytes = .ok text) : Spells bytes text := by
  have hnil : Spells [] ([] : List Char).reverse := .nil
  exact hnil.append_of_decode h

/-! ## §4 Cutting -/

/-- A number that is no character's value stands for NUL. -/
theorem toNat_ofNat_cases (value : Nat) :
    (Char.ofNat value).toNat = value ∨ Char.ofNat value = '\x00' := by
  by_cases hvalid : value.isValidChar
  · left
    rw [Char.ofNat, dif_pos hvalid]
    rfl
  · right
    rw [Char.ofNat, dif_neg hvalid]
    rfl

/-- A value from 128 on is that of no ASCII character. -/
theorem ofNat_ne_of_ascii {value : Nat} (hvalue : 0x80 ≤ value) {c : Char} (hc : c.toNat < 0x80)
    (hnul : c ≠ '\x00') : Char.ofNat value ≠ c := by
  rintro rfl
  rcases toNat_ofNat_cases value with hsame | hzero
  · omega
  · exact hnul hzero

theorem ofSymbol?_ofNat_eq_none {value : Nat} (hvalue : 0x80 ≤ value) :
    Operator.ofSymbol? (Char.ofNat value) = none := by
  cases hop : Operator.ofSymbol? (Char.ofNat value) with
  | none => rfl
  | some op =>
    refine absurd (Operator.ofSymbol?_eq_some_iff.mp hop) (ofNat_ne_of_ascii hvalue ?_ ?_) <;>
      cases op <;> decide

/-- A byte that stands for an operator is its code. -/
theorem eq_code_of_ofNat_eq {b : UInt8} {op : Operator} (h : Char.ofNat b.toNat = op.symbol) :
    b = UInt8.ofNat op.code := by
  rcases toNat_ofNat_cases b.toNat with hsame | hzero
  · rw [Operator.code, ← h, hsame, UInt8.ofNat_toNat]
  · rw [h] at hzero
    cases op <;> cases hzero

/-- The text before a character, if it ends with another one. -/
theorem concat_eq_append_cons {α : Type} {s u v : List α} {x c : α} (h : s ++ [x] = u ++ c :: v) :
    v = [] ∧ s = u ∧ x = c ∨ ∃ v', v = v' ++ [x] ∧ s = u ++ c :: v' := by
  induction v using List.reverseRecOn with
  | nil =>
    obtain ⟨hs, hx⟩ := List.append_inj' h rfl
    exact .inl ⟨rfl, hs, (List.cons.inj hx).1⟩
  | append_singleton v y =>
    rw [← List.cons_append, ← List.append_assoc] at h
    obtain ⟨hs, hx⟩ := List.append_inj' h rfl
    rw [← (List.cons.inj hx).1]
    exact .inr ⟨v, rfl, hs⟩

/-- **Bytes can be cut at an operator** of the text that they spell. -/
theorem Spells.exists_cut {bytes : List UInt8} {text u v : List Char} {op : Operator}
    (h : Spells bytes text) (htext : text = u ++ op.symbol :: v) :
    ∃ before after, bytes = before ++ UInt8.ofNat op.code :: after ∧ Spells before u ∧
      Spells after v := by
  induction h generalizing v with
  | nil => simp at htext
  | @ascii bytes text b hbytes hb ih =>
    rcases concat_eq_append_cons htext with ⟨rfl, rfl, hop⟩ | ⟨v, rfl, hshorter⟩
    · exact ⟨bytes, [], by rw [eq_code_of_ofNat_eq hop], hbytes, .nil⟩
    · obtain ⟨before, after, rfl, hbefore, hafter⟩ := ih hshorter
      exact ⟨before, after ++ [b], by simp, hbefore, hafter.ascii hb⟩
  | @sequence bytes piece text value hbytes hne hpiece hvalue hread ih =>
    rcases concat_eq_append_cons htext with ⟨rfl, rfl, hop⟩ | ⟨v, rfl, hshorter⟩
    · -- A sequence stands for no operator.
      have hnone := ofSymbol?_ofNat_eq_none hvalue
      rw [hop, Operator.ofSymbol?_symbol] at hnone
      cases hnone
    · obtain ⟨before, after, rfl, hbefore, hafter⟩ := ih hshorter
      exact ⟨before, after ++ piece, by simp, hbefore,
        hafter.sequence hne hpiece hvalue hread⟩

end FoldTape
