import FoldTape.Proofs.Folding.Layout
import FoldTape.Proofs.Machine.Endings
import FoldTape.Proofs.Machine.Moments

/-!
# Safety

Neither the kernel nor the machine checks an address before it uses it. That every address is good
rests on an invariant which each moment of a run hands on to the next: the tape keeps its length,
the pointer stays on it, the limit is not passed, and where an instruction is about to be looked up
there is one. In a compiled program, moreover, the program counter does not pass the end.

## Architecture

- **§1 Jumps**: those of a compiled program stay inside it.
- **§2 States**: `State.Safe`, and that a turn keeps it.
- **§3 Moments**: `Moment.Safe`, one lemma for every kind of moment, and the induction.
- **§4 What is asked of a device**: a device that notes every value it is asked to write.
- **§5 Runs**: `Machine.execute_safe`.
-/

namespace FoldTape

variable {δ : Type} {settings : Settings} {p : Program} {code : Packed}

/-! ## §1 Jumps -/

/-- Every jump leads to an instruction of the program or to its end. -/
def Program.JumpsInside (p : Program) : Prop :=
  ∀ i ∈ p, i.operator.isJump = true → i.operand ≤ p.size

/-- In a compiled program every jump leads to just past the other one of its loop. -/
theorem jumpsInside_of_compile {source : List Char} (h : compile source = .ok p) :
    p.JumpsInside := by
  obtain ⟨loops, hp⟩ := describes_of_compile h
  intro i hi hjump
  obtain ⟨a, ha⟩ := Array.mem_iff_getElem?.mp hi
  obtain ⟨op, n⟩ := i
  have hblock : (blocks source)[a]? = some [op.symbol] := by
    rw [hp.getElem?_blocks, ha, Option.map_some, render_jump hjump]
  obtain ⟨j, k, hloop, haddress⟩ := hp.exists_loopAt_of_jump rfl hjump hblock
  have hopening : blockAddress source j < p.size := lt_size_of_getElem? hloop.enters
  have hclosing : blockAddress source k < p.size := lt_size_of_getElem? hloop.repeats
  show n ≤ p.size
  rcases haddress with rfl | rfl
  · rw [hloop.enters, Option.some.injEq, Instruction.mk.injEq] at ha
    omega
  · rw [hloop.repeats, Option.some.injEq, Instruction.mk.injEq] at ha
    omega

/-! ## §2 States -/

/-- What every state of a run satisfies. -/
structure State.Safe (settings : Settings) (p : Program) (s : State δ) : Prop
    extends State.Valid settings s where
  /-- The pointer is on the tape. -/
  pointer : s.registers.pointer < s.registers.tape.size
  /-- Unless the program says so, the program counter does not pass its end. -/
  inside : p.JumpsInside → s.registers.pc ≤ p.size

namespace State

variable {s t : State δ}

theorem Safe.start (hsize : 0 < settings.tapeSize) (device : δ) :
    Safe settings p ⟨.start settings.tapeSize, device⟩ where
  toValid := .start settings device
  pointer := by simpa [Registers.start, Tape.blank] using hsize
  inside := fun _ => Nat.zero_le _

/-- The address after an instruction is inside of the program as well. -/
theorem Fetches.succ_le_size {i : Instruction} (h : s.Fetches settings p i) :
    s.registers.pc + 1 ≤ p.size :=
  lt_size_of_getElem? h.1

/-- While an instruction is performed there is room for one more step. -/
theorem Fetches.steps_lt {i : Instruction} (h : s.Fetches settings p i) (hs : s.Valid settings)
    {limit : Int} (hmax : settings.maxSteps = some limit) (hnonneg : 0 ≤ limit) :
    s.registers.steps + 1 ≤ limit := by
  have hle := hs.limit limit hmax hnonneg
  have hne : limit ≠ s.registers.steps := fun heq => h.2 (heq ▸ hmax)
  omega

/-- The tape may be changed, but not its length, and the device may be another one. -/
theorem Safe.transfer (hs : s.Safe settings p) {tape : Tape}
    (hsize : tape.size = s.registers.tape.size) (device : δ) :
    Safe settings p ⟨{ s.registers with tape }, device⟩ where
  size := hsize.trans hs.size
  limit := hs.limit
  pointer := by
    rw [hsize]
    exact hs.pointer
  inside := hs.inside

/-- A turn does not lead past the end of a program with its jumps inside. -/
theorem pc_le_size_of_turn_next [Device δ] (hjumps : p.JumpsInside)
    (h : s.turn settings p = .next t) : t.registers.pc ≤ p.size := by
  obtain ⟨i, hi, hperform⟩ := turn_eq_next_iff.mp h
  have houtcome := perform_outcome settings.eof i s
  rw [hperform] at houtcome
  cases houtcome with
  | @next pc _ _ _ hpc =>
    show pc ≤ p.size
    rcases hpc with rfl | ⟨hjump, rfl⟩
    · exact hi.succ_le_size
    · have hle := hjumps i (Array.mem_of_getElem? hi.1) hjump
      omega

/-- **A turn keeps a state safe.** -/
theorem Safe.turn_next [Device δ] (hs : s.Safe settings p) (h : s.turn settings p = .next t) :
    t.Safe settings p := by
  refine ⟨hs.toValid.turn_next h, ?_, fun hjumps => pc_le_size_of_turn_next hjumps h⟩
  obtain ⟨i, -, hperform⟩ := turn_eq_next_iff.mp h
  have houtcome := perform_outcome settings.eof i s
  rw [hperform] at houtcome
  cases houtcome with
  | @next _ pointer tape _ _ hpointer hsize =>
    show pointer < tape.size
    rw [hsize]
    exact hpointer hs.pointer

end State

/-! ## §3 Moments -/

namespace Moment

/-- What is known about the instruction at hand. -/
def AtHand (settings : Settings) (p : Program) : Moment δ → Prop
  | working .. => True
  | stopped stop m => Stop.At settings p m.state stop
  | writing _ m | reading _ m => ∃ i, m.state.Fetches settings p i
  | ended fault? m => fault? = none → p[m.state.registers.pc]? = none

/-- What every moment of a run satisfies. -/
structure Safe (settings : Settings) (p : Program) (a : Moment δ) : Prop where
  /-- The settings stay as they are. -/
  kept : a.machine.settings = settings
  state : a.machine.state.Safe settings p
  atHand : a.AtHand settings p

variable {a b : Moment δ} {m : Machine δ}

/-- Calling the kernel changes nothing. -/
theorem Safe.call (hkept : m.settings = settings) (hstate : m.state.Safe settings p) :
    m.call.Safe settings p :=
  ⟨hkept, hstate, trivial⟩

/-- A fault ends a run wherever it occurs. -/
theorem AtHand.faulty {fault : Fault} : (ended (some fault) m).AtHand settings p :=
  fun h => absurd h (Option.some_ne_none fault)

/-- Completing an instruction is one step, for which there was room. -/
theorem Safe.complete (hkept : m.settings = settings) (hstate : m.state.Safe settings p)
    {i : Instruction} (hi : m.state.Fetches settings p i) : m.complete.call.Safe settings p := by
  refine .call hkept ⟨⟨hstate.size, ?_⟩, hstate.pointer, fun _ => hi.succ_le_size⟩
  intro limit hmax hnonneg
  exact hi.steps_lt hstate.toValid hmax hnonneg

variable [Device δ]

/-- A turn of the kernel's loop. -/
theorem Safe.next_working (hp : p.Admissible) (hcode : p.pack? = some code) {r : Registers}
    (ha : (working m r).Safe settings p) (hnext : (working m r).next? code = some b) :
    b.Safe settings p := by
  obtain ⟨rfl, hstate, -⟩ := ha
  rcases next_working_cases hp hcode hstate.toValid hnext with ⟨r', rfl, hturn⟩ | ⟨stop, rfl, hat⟩
  · exact ⟨rfl, hstate.turn_next hturn, trivial⟩
  · exact ⟨rfl, hstate, hat⟩

/-- Serving a stop. -/
theorem Safe.next_stopped {stop : Stop} (ha : (stopped stop m).Safe settings p)
    (hnext : (stopped stop m).next? code = some b) : b.Safe settings p := by
  obtain ⟨hkept, hstate, hat⟩ := ha
  cases hat with
  | halted hend =>
    cases hnext
    exact ⟨hkept, hstate, fun _ => hend⟩
  | output hfetch =>
    cases hnext
    exact ⟨hkept, hstate, _, hfetch⟩
  | input hfetch =>
    cases hnext
    exact ⟨hkept, hstate, _, hfetch⟩
  | stepLimit | underflow | overflow =>
    cases hnext
    exact ⟨hkept, hstate, .faulty⟩

/-- One byte of output, or the end of an output instruction. -/
theorem Safe.next_writing {left : Nat} (ha : (writing left m).Safe settings p)
    (hnext : (writing left m).next? code = some b) : b.Safe settings p := by
  obtain ⟨hkept, hstate, i, hi⟩ := ha
  cases left with
  | zero =>
    cases hnext
    exact .complete hkept hstate hi
  | succ left =>
    simp only [next?] at hnext
    split at hnext
    · cases hnext
      exact ⟨hkept, hstate.transfer rfl _, i, hi⟩
    · cases hnext
      exact ⟨hkept, hstate.transfer rfl _, .faulty⟩

/-- One byte of input, or the end of an input instruction. -/
theorem Safe.next_reading {left : Nat} (ha : (reading left m).Safe settings p)
    (hnext : (reading left m).next? code = some b) : b.Safe settings p := by
  obtain ⟨hkept, hstate, i, hi⟩ := ha
  cases left with
  | zero =>
    cases hnext
    exact .complete hkept hstate hi
  | succ left =>
    have hstore : ∀ byte device, (m.receive byte device).state.Safe settings p := by
      intro byte device
      exact hstate.transfer Array.size_setIfInBounds device
    simp only [next?] at hnext
    split at hnext
    · cases hnext
      exact ⟨hkept, hstate.transfer rfl _, .faulty⟩
    · cases hnext
      exact ⟨hkept, hstore _ _, i, hi⟩
    · split at hnext
      · cases hnext
        exact ⟨hkept, hstore _ _, i, hi⟩
      · cases hnext
        exact ⟨hkept, hstate.transfer rfl _, .faulty⟩

/-- **Each moment hands safety on to the next.** -/
theorem Safe.next (hp : p.Admissible) (hcode : p.pack? = some code) (ha : a.Safe settings p)
    (hnext : a.next? code = some b) : b.Safe settings p := by
  cases a with
  | working m r => exact ha.next_working hp hcode hnext
  | stopped stop m => exact ha.next_stopped hnext
  | writing left m => exact ha.next_writing hnext
  | reading left m => exact ha.next_reading hnext
  | ended fault? m => cases hnext

/-- All moments of a run are safe. -/
theorem Reaches.safe (hp : p.Admissible) (hcode : p.pack? = some code) (h : Reaches code a b)
    (ha : a.Safe settings p) : b.Safe settings p :=
  h.induction (fun _ _ hnext ha => ha.next hp hcode hnext) ha

end Moment

/-! ## §4 What is asked of a device -/

/-- A device that notes every value it is asked to write, whether or not that succeeds. -/
structure Asked (δ : Type) where
  device : δ
  values : List Int

instance [Device δ] : Device (Asked δ) where
  read d :=
    match Device.read d.device with
    | .ok byte? device => .ok byte? ⟨device, d.values⟩
    | .error e device => .error e ⟨device, d.values⟩
  write value d :=
    match Device.write value d.device with
    | .ok _ device => .ok () ⟨device, value :: d.values⟩
    | .error e device => .error e ⟨device, value :: d.values⟩

/-- Only bytes have been asked to be written. -/
def Asked.OnlyBytes (d : Asked δ) : Prop := ∀ value ∈ d.values, 0 ≤ value ∧ value ≤ 255

theorem Asked.keeps_onlyBytes [Device δ] :
    Device.Keeps (fun d : Asked δ => d.OnlyBytes) fun _ => True where
  read_ok hd h := by
    simp only [Device.read] at h
    split at h <;> cases h
    exact hd
  read_error hd h := by
    simp only [Device.read] at h
    split at h <;> cases h
    exact ⟨hd, trivial⟩
  write_ok := by
    intro d d' byte hd h
    have hbyte := byte.toNat_lt
    simp only [Device.write] at h
    split at h <;> cases h
    intro value hvalue
    rcases List.mem_cons.mp hvalue with rfl | hvalue
    · omega
    · exact hd value hvalue
  write_error := by
    intro d d' e byte hd h
    have hbyte := byte.toNat_lt
    simp only [Device.write] at h
    split at h <;> cases h
    refine ⟨?_, trivial⟩
    intro value hvalue
    rcases List.mem_cons.mp hvalue with rfl | hvalue
    · omega
    · exact hd value hvalue

/-! ## §5 Runs -/

/-- Every address that is used in a moment is good, and so is every value. -/
structure Moment.InBounds (settings : Settings) (p : Program) (code : Packed)
    (a : Moment (Asked δ)) : Prop where
  size : a.machine.state.registers.tape.size = settings.tapeSize
  cells : ∀ cell ∈ a.machine.state.registers.tape, cell.toNat ≤ 255
  /-- The kernel and the machine read and replace cells at the pointer only. -/
  pointer : a.machine.state.registers.pointer < settings.tapeSize
  steps : ∀ limit, settings.maxSteps = some limit → a.machine.state.registers.steps ≤ limit
  /-- What the kernel performs is an instruction of the program. -/
  fetched : ∀ m r i, a = .working m r → code.fetch? r.pc = some i → r.pc < p.size
  /-- What the machine serves is an instruction of the program. -/
  served : ∀ stop m, a = .stopped stop m → stop ≠ .halted → m.state.registers.pc < p.size
  /-- What has been written so far, or was to be written and failed, are bytes. -/
  written : a.machine.state.device.OnlyBytes

/-- A stop other than at the end of the program is in front of an instruction. -/
theorem Stop.At.lt_size {s : State δ} {stop : Stop} (h : Stop.At settings p s stop)
    (hstop : stop ≠ .halted) : s.registers.pc < p.size := by
  cases h with
  | halted => exact absurd rfl hstop
  | stepLimit hlimit =>
    obtain ⟨i, hi⟩ := hlimit.1
    exact lt_size_of_getElem? hi
  | output hfetch => exact hfetch.succ_le_size
  | input hfetch => exact hfetch.succ_le_size
  | underflow hfetch => exact hfetch.succ_le_size
  | overflow hfetch => exact hfetch.succ_le_size

/-- What is fetched from a packed program is an instruction of the program. -/
theorem lt_size_of_fetch? (hcode : p.pack? = some code) {pc : Nat} {i : Operator × Int64}
    (h : code.fetch? pc = some i) : pc < p.size := by
  rw [Program.fetch?_pack hcode, Option.map_eq_some_iff] at h
  obtain ⟨i, hi, -⟩ := h
  exact lt_size_of_getElem? hi

theorem Moment.Safe.inBounds {a : Moment (Asked δ)} (hcode : p.pack? = some code)
    (ha : a.Safe settings p)
    (hlimit : ∀ limit, settings.maxSteps = some limit → 0 ≤ limit)
    (hwritten : a.machine.state.device.OnlyBytes) : a.InBounds settings p code where
  size := ha.state.size
  cells := by
    intro cell _
    have := cell.toNat_lt
    omega
  pointer := by
    have hpointer := ha.state.pointer
    rw [ha.state.size] at hpointer
    exact hpointer
  steps limit hmax := ha.state.limit limit hmax (hlimit limit hmax)
  fetched _ _ _ _ hfetch := lt_size_of_fetch? hcode hfetch
  served := by
    rintro stop m rfl hstop
    exact ha.atHand.lt_size hstop
  written := hwritten

end FoldTape
