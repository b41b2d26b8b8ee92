import FoldTape.Proofs.Machine.CutOff
import FoldTape.Proofs.Machine.EndOfInput

/-!
# Input that is not read

A run knows nothing of the input that it does not take. If it ends without having come to the end
of its input, then it is the same on every other input that begins with the bytes it has taken: the
machine does not look ahead, and no burst of the kernel and no folded instruction takes more than
it asks for.

## Architecture

- **§1 Places in an input**: `Source.IsAt`, and what a read gives there.
- **§2 Another input**: `Recorded.redirect`, the device at the same place in another input.
- **§3 Turns**: `State.mirrors_redirect`.
- **§4 Machines**: `Machine.unread_input_unseen`.
-/

namespace FoldTape

variable {input input' : List UInt8} {c : Nat}

/-! ## §1 Places in an input -/

/-- The source holds an input in memory, of which the bytes that it has counted are taken. -/
def Source.IsAt (input : List UInt8) (s : Source) : Prop :=
  s = .memory (input.drop s.consumed) s.consumed

namespace Source

variable {s : Source}

theorem isAt_memory (input : List UInt8) (k : Nat) : (memory (input.drop k) k).IsAt input := rfl

/-- The next byte of the input. -/
theorem IsAt.read_some (h : s.IsAt input) {b : UInt8} (hb : input[s.consumed]? = some b) :
    s.read = .ok (some b) (.memory (input.drop (s.consumed + 1)) (s.consumed + 1)) := by
  have hdrop : input.drop s.consumed = b :: input.drop (s.consumed + 1) := by
    obtain ⟨hlt, hget⟩ := List.getElem?_eq_some_iff.mp hb
    rw [List.drop_eq_getElem_cons hlt, hget]
  rw [h, hdrop]
  rfl

/-- The end of the input. -/
theorem IsAt.read_none (h : s.IsAt input) (hend : input[s.consumed]? = none) :
    s.read = .ok none s := by
  have hdrop := List.drop_eq_nil_of_le (List.getElem?_eq_none_iff.mp hend)
  rw [h, hdrop]
  rfl

end Source

/-- Reads and writes stay in the input. -/
theorem Ports.keeps_isAt (input : List UInt8) :
    Device.Keeps (fun d : Ports => d.source.IsAt input) fun _ => True := by
  apply Ports.keeps_of_source
  intro s hs
  cases hb : input[s.consumed]? with
  | none =>
    rw [hs.read_none hb]
    exact hs
  | some b =>
    rw [hs.read_some hb]
    exact Source.isAt_memory input _

/-! ## §2 Another input -/

namespace Recorded

variable {d d' : Recorded Ports}

/-- The device at the same place in another input. -/
def redirect (input : List UInt8) (d : Recorded Ports) : Recorded Ports :=
  ⟨{ d.device with source := .memory (input.drop d.consumed) d.consumed }, d.events⟩

/-- A write does not see the input. -/
theorem write_redirect (value : Int) (d : Recorded Ports) :
    Device.write value (d.redirect input) =
      mapLeft (redirect input) (Device.write value d) := by
  obtain ⟨⟨source, sink⟩, events⟩ := d
  simp only [Device.write, redirect]
  cases sink.write value <;> rfl

theorem writeCell_redirect (cell : UInt8) (count : Nat) (d : Recorded Ports) :
    writeCell cell count (d.redirect input) =
      mapLeft (redirect input) (writeCell cell count d) :=
  writeCell_map (write_redirect _) count d

/-- What a read can come to, seen from another input. -/
inductive ReadsAt (input' : List UInt8) (c : Nat) (d : Recorded Ports) : Prop
  /-- There is a byte. If it is one of the first `c`, then it is the next one there as well. -/
  | byte {b : UInt8} {d' : Recorded Ports} :
      Device.read d = .ok (some b) d' → d'.consumed = d.consumed + 1 →
      (d'.consumed ≤ c → Device.read (d.redirect input') = .ok (some b) (d'.redirect input')) →
      ReadsAt input' c d
  /-- There is none, and that is noted. -/
  | ended {d' : Recorded Ports} :
      Device.read d = .ok none d' → 0 < d'.endReads → ReadsAt input' c d

/-- **Reading** from inputs of which the first `c` bytes are the same. -/
theorem readsAt (hd : d.device.source.IsAt input) (hsame : input'.take c = input.take c) :
    ReadsAt input' c d := by
  obtain ⟨⟨source, sink⟩, events⟩ := d
  cases hb : input[source.consumed]? with
  | some b =>
    have hread := hd.read_some hb
    refine .byte (by simp only [Device.read, hread]; rfl) rfl ?_
    intro hle
    -- The byte is one of those that are the same.
    have hb' : input'[source.consumed]? = some b := by
      rw [← List.getElem?_take_of_lt hle, hsame, List.getElem?_take_of_lt hle, hb]
    have hread' := (Source.isAt_memory input' source.consumed).read_some hb'
    simp only [Device.read, redirect, consumed, hread']
    rfl
  | none =>
    have hread := hd.read_none hb
    refine .ended (by simp only [Device.read, hread]; rfl) ?_
    rw [endReads, noted_cons]
    exact Nat.succ_pos _

/-- **Reading into a cell does not see another input**, if it does not come to the end of its own
and both are the same as far as it reads. -/
theorem readCell_redirect (hd : d.device.source.IsAt input)
    (hsame : input'.take c = input.take c) (eof : EndPolicy) (cell : UInt8) (count : Nat)
    (hends : (leftBy (readCell eof cell count d)).2.endReads = 0)
    (hconsumed : (leftBy (readCell eof cell count d)).2.consumed ≤ c) :
    readCell eof cell count (d.redirect input') =
      mapLeft (Prod.map id (redirect input')) (readCell eof cell count d) := by
  induction count generalizing cell d with
  | zero => rfl
  | succ count ih =>
    cases readsAt (c := c) hd hsame with
    | @byte b d' hread _ hread' =>
      simp only [readCell, hread] at hends hconsumed ⊢
      -- What is read later on does not give the byte back.
      have hlater := (later_readCell eof b count d').source.consumed_le
      rw [hread' (Nat.le_trans hlater hconsumed)]
      exact ih ((keeps (Ports.keeps_isAt input)).read_ok hd hread) b hends hconsumed
    | @ended d' hread hend =>
      -- The end has been noted, and notes are not taken back.
      have hnoted : d'.endReads ≤ (leftBy (readCell eof cell (count + 1) d)).2.endReads := by
        simp only [readCell, hread]
        cases eof with
        | error => exact Nat.le_refl _
        | zero => exact (notes_readCell .zero 0 count d').noted_le PortEvent.isEnd
      omega

end Recorded

/-! ## §3 Turns -/

section Turns

variable {settings : Settings} {p : Program} {s t : State (Recorded Ports)}

namespace State

/-- A turn gives no byte back. -/
theorem consumed_le_left (s : State (Recorded Ports)) :
    s.device.consumed ≤ (s.left settings p).device.consumed := by
  have hlater : s.device.device.Later (s.left settings p).device.device :=
    left_keeps (P := fun d : Recorded Ports => s.device.device.Later d.device)
      (Recorded.keeps (Ports.keeps_later s.device.device)) (Ports.Later.refl _)
  exact hlater.source.consumed_le

/-- **A turn does not see another input**, if it does not come to the end of its own and both are
the same as far as it reads. -/
theorem mirrors_redirect (hs : s.device.device.source.IsAt input)
    (hsame : input'.take c = input.take c) (hends : (s.left settings p).device.endReads = 0)
    (hconsumed : (s.left settings p).device.consumed ≤ c) :
    s.Mirrors (mapDevice (Recorded.redirect input')) settings settings p := by
  refine mirrors_of_perform rfl rfl rfl rfl ?_
  rintro ⟨op, n⟩ hi
  refine perform_mapDevice ?_ ?_
  · intro _
    exact Recorded.writeCell_redirect _ _ _
  · rintro rfl
    rw [hi.left_eq, device_perform_input] at hends hconsumed
    exact Recorded.readCell_redirect hs hsame _ _ _ hends hconsumed

end State

/-! ## §4 Machines -/

namespace Machine

/-- **Input that is not read is not seen.** If the run of a program ends, by returning or by a
fault, having taken `c` bytes of its input and having made no read at the end of it, then on every
input with the same first `c` bytes the run ends in the same way: with the same fault, if any, the
same registers and tape, the same output, the same reads and writes in the same order, and with `c`
bytes taken. -/
theorem unread_input_unseen (hp : p.Admissible) (settings : Settings) {input : List UInt8}
    (input' : List UInt8) {fault? : Option Fault}
    (hends : (noting settings (.inMemory input)).Ends p fault? t) (hnone : t.device.endReads = 0)
    (hsame : input'.take t.device.consumed = input.take t.device.consumed) :
    ∃ t', (noting settings (.inMemory input')).Ends p fault? t' ∧
      t'.registers = t.registers ∧
      t'.device.output = t.device.output ∧
      t'.device.events = t.device.events ∧
      t'.device.consumed = t.device.consumed := by
  refine ⟨t.mapDevice (.redirect input'), ?_, rfl, rfl, rfl, rfl⟩
  refine (ends_map_iff hp rfl ?_).mpr ⟨t, hends, rfl⟩
  intro n s hs
  -- At the end of the run at least as much has been noted and taken as after any turn.
  have hnoted := hends.left_le hp (State.noted_le_left PortEvent.isEnd) hs
  have htaken := hends.left_le hp State.consumed_le_left hs
  have hplace : s.device.device.source.IsAt input :=
    hs.holds (Recorded.keeps (Ports.keeps_isAt input)) (Source.isAt_memory input 0)
  exact State.mirrors_redirect hplace hsame (Nat.le_zero.mp (hnone ▸ hnoted)) htaken

/-- A program that echoes one byte does not see whether a second one follows. -/
theorem unread_input_unseen_echo :
    Program.Admissible #[⟨.input, 1⟩, ⟨.output, 1⟩] ∧
    (∃ t, (noting { tapeSize := 1 } (.inMemory [65, 66])).Ends
      #[⟨.input, 1⟩, ⟨.output, 1⟩] none t ∧ t.device.endReads = 0 ∧ t.device.consumed = 1) ∧
    ∃ t', (noting { tapeSize := 1 } (.inMemory [65])).Ends
      #[⟨.input, 1⟩, ⟨.output, 1⟩] none t' ∧ t'.device.output = [65] ∧
        t'.device.consumed = 1 := by
  have hp : Program.Admissible #[⟨.input, 1⟩, ⟨.output, 1⟩] := by decide
  have hends := (execute_iff_runToEnd hp (noting { tapeSize := 1 } (.inMemory [65, 66])) none
    ⟨⟨2, 0, 2, #[65]⟩,
      ⟨⟨.memory [66] 1, .memory #[65]⟩, [.wrote 65, .read (some 65)]⟩⟩).mpr ⟨3, rfl⟩
  obtain ⟨t', hends', -, houtput, -, hconsumed⟩ :=
    unread_input_unseen hp { tapeSize := 1 } [65] hends rfl rfl
  exact ⟨hp, ⟨_, hends, rfl, rfl⟩, t', hends', houtput, hconsumed⟩

end Machine

end Turns

end FoldTape
