import FoldTape.Proofs.Machine.Moments
import FoldTape.Proofs.Machine.Parallel

/-!
# Between two instructions

A run can be looked at whenever the kernel is at the head of its loop: the last instruction has
been completed, by the kernel or by the machine, and the next one has not been looked up yet. The
states that a run is in at these moments are those that the one-instruction machine gets into.

In between there are moments in which the kernel has stopped, or a cell is written or read byte by
byte. All of them settle, in one way only, at the next moment between two instructions or at the
end of the run, and it is there that the two machines are compared.

## Architecture

- **§1 Settling**: `Moment.settled`, where a moment leads to.
- **§2 One turn**: what a turn of the kernel settles at is one turn of the other machine.
- **§3 Runs**: `Machine.Passes`, and `Machine.passes_iff_visits`.
-/

namespace FoldTape

variable {δ : Type} [Device δ] {p : Program} {code : Packed}

/-! ## §1 Settling -/

namespace Moment

variable {a b : Moment δ} {m : Machine δ} {r : Registers}

/-- Where the run is between two instructions or over: in this moment, or the next time. -/
def settled (code : Packed) : Moment δ → Moment δ
  | working m r => working m r
  | stopped stop m => ofServed (m.serve code stop)
  | writing left m => ofWriting m (writeCell m.state.cell left m.state.device)
  | reading left m => ofReading m (readCell m.settings.eof m.state.cell left m.state.device)
  | ended fault? m => ended fault? m

theorem reaches_settled (a : Moment δ) : Reaches code a (a.settled code) := by
  cases a with
  | working m r => exact .refl _
  | stopped stop m => exact reaches_ofServed stop m
  | writing left m => exact reaches_ofWriting left m
  | reading left m => exact reaches_ofReading left m (Tape.store_cell _ _)
  | ended fault? m => exact .refl _

/-- The byte that is in the cell before another one is read does not matter. -/
theorem ofReading_readCell_congr {cell cell' : UInt8}
    (hcell : m.state.store cell = m.state.registers.tape)
    (hcell' : m.state.store cell' = m.state.registers.tape) (eof : EndPolicy) (n : Nat)
    (device : δ) : ofReading m (readCell eof cell n device) =
      ofReading m (readCell eof cell' n device) := by
  have hkept := m.receive_of_store_eq hcell
  have hkept' := m.receive_of_store_eq hcell'
  cases n with
  | zero => simp only [readCell, ofReading, hkept, hkept']
  | succ n =>
    simp only [readCell]
    cases Device.read device with
    | error e device => simp only [ofReading, hkept, hkept']
    | ok byte? device =>
      cases byte? with
      | some byte => rfl
      | none =>
        cases eof with
        | zero => rfl
        | error => simp only [ofReading, hkept, hkept']

/-- Unless the kernel is at work, the next moment settles where this one does. -/
theorem settled_of_next (ha : ∀ m r, a ≠ working m r) (hnext : a.next? code = some b) :
    b.settled code = a.settled code := by
  cases a with
  | working m r => exact absurd rfl (ha m r)
  | stopped stop m =>
    cases stop with
    | halted | stepLimit | underflow | overflow =>
      cases hnext
      rfl
    | output =>
      cases hnext
      exact (ofServed_serve_output m).symm
    | input =>
      cases hnext
      exact (ofServed_serve_input m).symm
  | writing left m =>
    cases left with
    | zero =>
      cases hnext
      rfl
    | succ left =>
      rw [settled, writeCell]
      cases hwrite : Device.write (m.state.cell.toNat : Int) m.state.device with
      | ok _ device =>
        simp only [next?, hwrite] at hnext
        cases hnext
        exact ofWriting_mapDevice m device _
      | error e device =>
        simp only [next?, hwrite] at hnext
        cases hnext
        rfl
  | reading left m =>
    cases left with
    | zero =>
      cases hnext
      rw [settled, readCell, ofReading, Machine.receive_cell]
      rfl
    | succ left =>
      -- What is read takes the place of what is in the cell.
      have hreceived : ∀ byte device, (reading left (m.receive byte device)).settled code =
          ofReading m (readCell m.settings.eof byte left device) := by
        intro byte device
        rw [← ofReading_receive m byte device]
        apply ofReading_readCell_congr
        · exact Tape.store_cell _ _
        · simp only [Machine.receive, State.store, Tape.store_store]
      rw [settled, readCell]
      cases hread : Device.read m.state.device with
      | error e device =>
        simp only [next?, hread] at hnext
        cases hnext
        simp only [ofReading, Machine.receive_cell]
        rfl
      | ok byte? device =>
        cases byte? with
        | some byte =>
          simp only [next?, hread] at hnext
          cases hnext
          exact hreceived byte device
        | none =>
          cases heof : m.settings.eof with
          | zero =>
            simp only [next?, hread, heof] at hnext
            cases hnext
            rw [heof] at hreceived
            exact hreceived 0 device
          | error =>
            simp only [next?, hread, heof] at hnext
            cases hnext
            simp only [ofReading, Machine.receive_cell]
            rfl
  | ended fault? m => cases hnext

/-! ## §2 One turn -/

/-- While the kernel is at work, the run is not over. -/
theorem exists_next_working (code : Packed) (m : Machine δ) (r : Registers) :
    ∃ b, (working m r).next? code = some b := by
  simp only [next?]
  split
  · exact ⟨_, rfl⟩
  · split
    · exact ⟨_, rfl⟩
    · split <;> exact ⟨_, rfl⟩

/-- A moment between two instructions, in this state and with these settings. -/
def IsBetween (settings : Settings) (s : State δ) : Moment δ → Prop
  | working m r => m.settings = settings ∧ (m.takeBack r).state = s
  | stopped .. | writing .. | reading .. | ended .. => False

/-- What a turn settles at: the next state, or the end of the run. -/
def IsAfter (settings : Settings) (turn : Turn δ) (a : Moment δ) : Prop :=
  match turn with
  | .next t => a.IsBetween settings t
  | .halted | .failed .. => ∃ fault? m, a = ended fault? m

omit [Device δ] in
/-- Serving a turn settles at what it comes to. -/
theorem isAfter_ofServed (m : Machine δ) (turn : Turn δ) :
    (ofServed (Machine.Served.ofTurn m turn)).IsAfter m.settings turn := by
  cases turn with
  | next t => exact ⟨rfl, rfl⟩
  | halted => exact ⟨none, m, rfl⟩
  | failed fault t => exact ⟨some fault, ⟨m.settings, t⟩, rfl⟩

/-- **A turn of the kernel's loop** settles at what the one-instruction machine comes to. -/
theorem isAfter_of_next_working (hp : p.Admissible) (hcode : p.pack? = some code)
    (hvalid : (m.takeBack r).state.Valid m.settings)
    (hnext : (working m r).next? code = some b) :
    (b.settled code).IsAfter m.settings ((m.takeBack r).state.turn m.settings p) := by
  rcases next_working_cases hp hcode hvalid hnext with ⟨r', rfl, hturn⟩ | ⟨stop, rfl, hat⟩
  · rw [hturn]
    exact ⟨rfl, rfl⟩
  · -- Where the kernel stops, the machine serves the turn that the kernel has not taken.
    have hserve := Machine.serve_eq_ofTurn (m := m.takeBack r) hp hcode hvalid hat
    rw [settled, hserve]
    exact isAfter_ofServed (m.takeBack r) _

end Moment

/-! ## §3 Runs -/

namespace Machine

variable {m : Machine δ} {s : State δ}

/-- The run of a program on a machine is in this state between two instructions, or before the
first one: the kernel is at the head of its loop. -/
def Passes (m : Machine δ) (p : Program) (s : State δ) : Prop :=
  ∃ code m' r, p.pack? = some code ∧ Moment.Reaches code m.reset.call (.working m' r) ∧
    (m'.takeBack r).state = s

/-- Every moment settles in a state that the one-instruction machine gets into, or at the end. -/
theorem visits_of_reaches (hp : p.Admissible) (hcode : p.pack? = some code) {a : Moment δ}
    (h : Moment.Reaches code m.reset.call a) {m' : Machine δ} {r : Registers}
    (ha : a.settled code = .working m' r) :
    m'.settings = m.settings ∧ ∃ n, m.Visits p n (m'.takeBack r).state := by
  refine h.induction (motive := fun a => ∀ m' r, a.settled code = .working m' r →
    m'.settings = m.settings ∧ ∃ n, m.Visits p n (m'.takeBack r).state) ?_ ?_ m' r ha
  · intro a b hnext ih m' r hb
    by_cases hworking : ∃ m₁ r₁, a = .working m₁ r₁
    · obtain ⟨m₁, r₁, rfl⟩ := hworking
      obtain ⟨hsettings, n, hvisits⟩ := ih m₁ r₁ rfl
      have hvalid : (m₁.takeBack r₁).state.Valid m.settings :=
        (State.Valid.start m.settings _).after hvisits
      rw [← hsettings] at hvalid
      have hafter := Moment.isAfter_of_next_working hp hcode hvalid hnext
      rw [hb] at hafter
      cases hturn : (m₁.takeBack r₁).state.turn m₁.settings p with
      | next t =>
        rw [hturn] at hafter
        obtain ⟨hkept, rfl⟩ := hafter
        rw [hsettings] at hturn
        exact ⟨hkept.trans hsettings, n + 1, hvisits.succ hturn⟩
      | halted | failed =>
        rw [hturn] at hafter
        obtain ⟨_, _, hended⟩ := hafter
        cases hended
    · -- The run settles where it would have settled before.
      rw [Moment.settled_of_next (fun m₁ r₁ heq => hworking ⟨m₁, r₁, heq⟩) hnext] at hb
      exact ih m' r hb
  · rintro m' r ⟨⟩
    exact ⟨rfl, 0, rfl⟩

/-- **Between two instructions** the kernel and the machine are where the one-instruction machine
is after as many steps. -/
theorem passes_iff_visits (hp : p.Admissible) :
    m.Passes p s ↔ m.Visits p s.registers.steps s := by
  constructor
  · rintro ⟨code, m', r, hcode, hreaches, rfl⟩
    obtain ⟨-, n, hvisits⟩ := visits_of_reaches hp hcode hreaches rfl
    have hsteps : (m'.takeBack r).state.registers.steps = 0 + n := State.steps_of_after hvisits
    rw [hsteps, Nat.zero_add]
    exact hvisits
  · intro hvisits
    obtain ⟨code, hcode⟩ := hp.exists_pack
    obtain ⟨a, hreaches, hbetween⟩ :
        ∃ a, Moment.Reaches code m.reset.call a ∧ a.IsBetween m.settings s := by
      -- With each step of the one machine the other settles once.
      refine (hvisits.induction (P := fun s => s.Valid m.settings ∧
        ∃ a, Moment.Reaches code m.reset.call a ∧ a.IsBetween m.settings s) ?_ ?_).2
      · exact ⟨.start m.settings _, m.reset.call, .refl _, rfl, rfl⟩
      · rintro s t hturn ⟨hvalid, a, hreaches, hbetween⟩
        refine ⟨hvalid.turn_next hturn, ?_⟩
        cases a with
        | working m' r =>
          obtain ⟨b, hnext⟩ := Moment.exists_next_working code m' r
          obtain ⟨hsettings, hstate⟩ := hbetween
          have hafter := Moment.isAfter_of_next_working hp hcode
            (by rw [hsettings, hstate]; exact hvalid) hnext
          rw [hsettings, hstate, hturn] at hafter
          exact ⟨b.settled code, hreaches.trans (.head hnext b.reaches_settled), hafter⟩
        | stopped | writing | reading | ended => exact hbetween.elim
    cases a with
    | working m' r =>
      exact ⟨code, m', r, hcode, hreaches, hbetween.2⟩
    | stopped | writing | reading | ended => exact hbetween.elim

end Machine

end FoldTape
