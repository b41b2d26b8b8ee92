import FoldTape.Machine.Options
import FoldTape.Machine.Session
import FoldTape.Proofs.Machine.Alike
import FoldTape.Proofs.Machine.Moments

/-!
# What earlier runs leave behind

A machine that is used again and again keeps its settings, what it has written and how far it has
read. Nothing else of what was done before shows in a run, whether the runs before returned or
failed, and wherever they failed.

## Architecture

- **§1 What is seen of a machine**: `Ending`, and `Machine.RunsAsNew`.
- **§2 One run**: a run on working ports is that of a new machine, on top of what was there.
- **§3 One command**: what every command keeps.
- **§4 Many commands**: `Machine.obeyAll_pairwise`, and from it `Machine.execute_forgets_history`.
-/

namespace FoldTape

/-! ## §1 What is seen of a machine -/

namespace Machine

variable (m : Machine Ports)

/-- The input that is still to come. -/
def unread : List UInt8 := m.state.device.source.unread

/-- How many bytes of input have been taken. -/
def consumed : Nat := m.state.device.source.consumed

/-- Everything that has been written. -/
def output : List UInt8 := m.state.device.sink.written.toList

end Machine

/-- What is seen at the end of a run. -/
structure Ending where
  fault? : Option Fault
  registers : Registers
  output : List UInt8
  consumed : Nat
  deriving DecidableEq, Repr

/-- The end of a run, as the report tells it. -/
def Report.ending (r : Report Ports) : Ending :=
  ⟨r.fault?, r.machine.state.registers, r.machine.output, r.machine.consumed⟩

/-- The end of a run that comes after what a machine has written and taken before. -/
def Ending.onTopOf (m : Machine Ports) (e : Ending) : Ending :=
  { e with output := m.output ++ e.output, consumed := m.consumed + e.consumed }

/-- Whatever is run, it ends as it does on a new machine with the same settings and with the rest of
the input in memory; what this one writes and takes comes on top of what there was before. -/
def Machine.RunsAsNew (m : Machine Ports) : Prop :=
  ∀ fuel p, (m.execute fuel p).map Report.ending =
    ((new m.settings (.inMemory m.unread)).execute fuel p).map fun r => r.ending.onTopOf m

/-! ## §2 One run -/

namespace Machine

/-- **A run shows nothing of what was before**, as long as the ports work. -/
theorem runsAsNew {m : Machine Ports} (h : m.state.device.Works) : m.RunsAsNew := by
  intro fuel p
  -- The ports carry on from those of the new machine, and the two cannot be told apart.
  have hsettings : m.settings = (new m.settings (Ports.inMemory m.unread)).settings := rfl
  have hports := Ports.continues_simulation m.state.device.sink.written m.consumed
  have hruns := execute_alike hports hsettings h.continues fuel p
  generalize m.execute fuel p = here,
    (new m.settings (Ports.inMemory m.unread)).execute fuel p = there at hruns ⊢
  cases hruns with
  | none => rfl
  | @some r r' hreport =>
    have houtput : r.machine.output = m.output ++ r'.machine.output := by
      simp only [output, hreport.machine.device.written, Array.toList_append]
    simp only [Option.map_some, Report.ending, Ending.onTopOf, hreport.fault,
      hreport.machine.registers, houtput]
    rw [consumed, hreport.machine.device.consumed]
    rfl

variable {δ : Type} [Device δ] {code : Packed}

/-- The machine that serving leaves. -/
def Served.machine : Served δ → Machine δ
  | .goOn m | .over _ m => m

omit [Device δ] in
theorem settings_of_burst {m m' : Machine δ} {fuel : Nat} {stop : Stop}
    (h : m.burst code fuel = some (stop, m')) : m'.settings = m.settings := by
  simp only [burst] at h
  split at h
  · cases h
  · cases h
    rfl

theorem settings_serve (m : Machine δ) (stop : Stop) :
    (m.serve code stop).machine.settings = m.settings := by
  cases stop with
  | halted | stepLimit | underflow | overflow => rfl
  | output | input => simp only [serve]; split <;> rfl

theorem settings_of_takeTurns {m : Machine δ} {fuel : Nat} {bursts : List Burst}
    {report : Report δ} (h : m.takeTurns code fuel bursts = some report) :
    report.machine.settings = m.settings := by
  induction fuel generalizing m bursts with
  | zero => cases h
  | succ fuel ih =>
    simp only [takeTurns] at h
    split at h
    · cases h
    · rename_i stop m₁ hburst
      have hserved : (m₁.serve code stop).machine.settings = m.settings :=
        (settings_serve m₁ stop).trans (settings_of_burst hburst)
      split at h
      · rename_i hserve
        cases h
        rw [hserve] at hserved
        exact hserved
      · rename_i hserve
        rw [hserve] at hserved
        exact (ih h).trans hserved

/-- A run leaves the settings alone. -/
theorem settings_of_execute {m : Machine δ} {fuel : Nat} {p : Program} {report : Report δ}
    (h : m.execute fuel p = some report) : report.machine.settings = m.settings := by
  simp only [execute] at h
  split at h
  · cases h
    rfl
  · exact (settings_of_takeTurns h : _ = m.reset.settings)

/-! ## §3 One command -/

variable {fuel : Nat} {c : Command} {fault? : Option Fault} {m m' : Machine Ports}

/-- The length of the tape stays, and the limit is negative only if a command has set it so. -/
theorem settings_of_obey (h : m.obey fuel c = some (fault?, m')) :
    m'.settings.tapeSize = m.settings.tapeSize ∧
      (m'.settings.maxSteps = m.settings.maxSteps ∨ c = .limit m'.settings.maxSteps) := by
  cases c with
  | run p =>
    obtain ⟨report, hreport, hpair⟩ := Option.map_eq_some_iff.mp h
    cases hpair
    rw [settings_of_execute hreport]
    exact ⟨rfl, .inl rfl⟩
  | reset | connect source | atEnd eof =>
    cases h
    exact ⟨rfl, .inl rfl⟩
  | limit maxSteps =>
    cases h
    exact ⟨rfl, .inr rfl⟩

/-- What has been written stays, and unless there is another source, what has been read is gone. -/
theorem later_of_obey (h : m.obey fuel c = some (fault?, m')) :
    m.output <+: m'.output ∧
      ((∀ source, c ≠ .connect source) → m.state.device.source.Later m'.state.device.source) := by
  cases c with
  | run p =>
    obtain ⟨report, hreport, hpair⟩ := Option.map_eq_some_iff.mp h
    cases hpair
    have hlater := (execute_holds (Ports.keeps_later m.state.device) (.refl _) hreport).1
    exact ⟨hlater.sink, fun _ => hlater.source⟩
  | reset | limit maxSteps | atEnd eof =>
    -- The ports are not touched.
    cases h
    exact ⟨List.prefix_rfl, fun _ => .refl _⟩
  | connect source =>
    cases h
    exact ⟨List.prefix_rfl, fun hother => absurd rfl (hother source)⟩

/-- The ports go on to work if a source that takes the place of another one works. -/
theorem works_of_obey (h : m.obey fuel c = some (fault?, m'))
    (hconnect : ∀ source, c = .connect source → source.Works) (hm : m.state.device.Works) :
    m'.state.device.Works := by
  cases c with
  | run p =>
    obtain ⟨report, hreport, hpair⟩ := Option.map_eq_some_iff.mp h
    cases hpair
    exact (execute_holds Ports.keeps_works hm hreport).1
  | reset | limit maxSteps | atEnd eof =>
    cases h
    exact hm
  | connect source =>
    cases h
    exact ⟨hconnect source rfl, hm.sink⟩

/-! ## §4 Many commands -/

variable {m₀ : Machine Ports} {commands : List Command} {log : List (Option Fault × Machine Ports)}

/-- What holds of the machines before and after each command, and is transitive, holds of any
earlier and later two. -/
theorem obeyAll_pairwise {T : Machine Ports → Machine Ports → Prop}
    (htrans : ∀ {a b c}, T a b → T b c → T a c)
    (hstep : ∀ c ∈ commands, ∀ {m fault? m'}, m.obey fuel c = some (fault?, m') → T m m')
    (hlog : m₀.obeyAll fuel commands = some log) : (m₀ :: log.map Prod.snd).Pairwise T := by
  induction commands generalizing m₀ log with
  | nil =>
    cases hlog
    exact List.pairwise_singleton _ _
  | cons c commands ih =>
    simp only [obeyAll] at hlog
    split at hlog
    · cases hlog
    · rename_i fault? m₁ hobey
      obtain ⟨rest, hrest, rfl⟩ := Option.map_eq_some_iff.mp hlog
      have hlater := ih (fun c hc => hstep c (List.mem_cons_of_mem _ hc)) hrest
      have hfirst : T m₀ m₁ := hstep c List.mem_cons_self hobey
      refine List.pairwise_cons.mpr ⟨?_, hlater⟩
      intro m hm
      rcases List.mem_cons.mp hm with rfl | hm
      · exact hfirst
      · exact htrans hfirst (List.rel_of_pairwise_cons hlater hm)

/-- What holds at first, and is kept by each command, holds of all machines. -/
theorem obeyAll_forall {P : Machine Ports → Prop}
    (hstep : ∀ c ∈ commands, ∀ {m fault? m'}, m.obey fuel c = some (fault?, m') → P m → P m')
    (hlog : m₀.obeyAll fuel commands = some log) (h₀ : P m₀) :
    ∀ m ∈ m₀ :: log.map Prod.snd, P m := by
  -- To hold of the later machine if of the earlier one is transitive.
  have hkept := obeyAll_pairwise (fun hab hbc ha => hbc (hab ha)) hstep hlog
  intro m hm
  rcases List.mem_cons.mp hm with rfl | hm
  · exact h₀
  · exact List.rel_of_pairwise_cons hkept hm h₀

/-- **History does not matter.** A machine with a cell at least and no negative limit is used for
anything; it may be set to another limit that is not negative. Whenever its ports work, a run on it
then is that of a new machine with its settings, which are those of a machine that can be made, and
with the rest of its input: both end or neither does, with the same fault if there is one, the same
registers and tape, and what is written and taken comes on top of what there was. The ports work as
long as those that it is connected to do. Its output only grows, and, from one change of the source
to the next, its input is taken from front to back. -/
theorem execute_forgets_history (hsize : 0 < m₀.settings.tapeSize)
    (hlimit : isNegativeLimit m₀.settings.maxSteps = false)
    (hlimits : ∀ maxSteps, .limit maxSteps ∈ commands → isNegativeLimit maxSteps = false)
    (hlog : m₀.obeyAll fuel commands = some log) :
    (∀ m ∈ m₀ :: log.map Prod.snd, m.state.device.Works →
      Settings.check m₀.settings.tapeSize m.settings.eof.word m.settings.maxSteps =
        .ok m.settings ∧ m.RunsAsNew) ∧
    (m₀.state.device.Works → (∀ source, .connect source ∈ commands → source.Works) →
      ∀ m ∈ m₀ :: log.map Prod.snd, m.state.device.Works) ∧
    (m₀ :: log.map Prod.snd).Pairwise (fun a b => a.output <+: b.output) ∧
    ((∀ source, .connect source ∉ commands) →
      (m₀ :: log.map Prod.snd).Pairwise fun a b =>
        ∃ taken, a.unread = taken ++ b.unread ∧ b.consumed = a.consumed + taken.length) := by
  refine ⟨?_, ?_, ?_, ?_⟩
  · have hsettings : ∀ m ∈ m₀ :: log.map Prod.snd,
        m.settings.tapeSize = m₀.settings.tapeSize ∧
          isNegativeLimit m.settings.maxSteps = false := by
      refine obeyAll_forall ?_ hlog ⟨rfl, hlimit⟩
      rintro c hc m fault? m' hobey ⟨hm, hnonneg⟩
      obtain ⟨htape, hsame | hset⟩ := settings_of_obey hobey
      · exact ⟨htape.trans hm, hsame ▸ hnonneg⟩
      · exact ⟨htape.trans hm, hlimits _ (hset ▸ hc)⟩
    intro m hm hworks
    obtain ⟨htape, hnonneg⟩ := hsettings m hm
    rw [← htape]
    exact ⟨Settings.check_eq_ok (htape ▸ hsize) hnonneg, runsAsNew hworks⟩
  · intro h₀ hconnect
    refine obeyAll_forall ?_ hlog h₀
    intro c hc m fault? m' hobey hm
    exact works_of_obey hobey (fun source hsource => hconnect source (hsource ▸ hc)) hm
  · refine obeyAll_pairwise List.IsPrefix.trans ?_ hlog
    intro c hc m fault? m' hobey
    exact (later_of_obey hobey).1
  · intro hconnect
    refine obeyAll_pairwise Source.Later.trans ?_ hlog
    intro c hc m fault? m' hobey
    exact (later_of_obey hobey).2 fun source hsource => hconnect source (hsource ▸ hc)

/-- A machine on which a move has failed is set to a limit. What it has written before stays, and it
runs whatever comes next as a new machine does. -/
theorem execute_forgets_history_overflow :
    ∃ log, (new { tapeSize := 2 } (Ports.overStreams [65, 66, 67] true)).obeyAll 9
        [.run #[⟨.input, 2⟩, ⟨.output, 1⟩, ⟨.moveRight, 5⟩], .limit (some 1)] = some log ∧
      log.map (fun entry => (entry.1, entry.2.output, entry.2.unread)) =
        [(some (.overflow 2 0 5 2), [66], [67]), (none, [66], [67])] ∧
      ∀ m ∈ log.map Prod.snd, m.RunsAsNew := by
  have hseen : ((new { tapeSize := 2 } (Ports.overStreams [65, 66, 67] true)).obeyAll 9
      [.run #[⟨.input, 2⟩, ⟨.output, 1⟩, ⟨.moveRight, 5⟩], .limit (some 1)]).map
        (·.map fun entry => (entry.1, entry.2.output, entry.2.unread)) =
      some [(some (.overflow 2 0 5 2), [66], [67]), (none, [66], [67])] := by decide +kernel
  obtain ⟨log, hlog, hseen⟩ := Option.map_eq_some_iff.mp hseen
  refine ⟨log, hlog, hseen, ?_⟩
  obtain ⟨hruns, hworks, -⟩ :=
    execute_forgets_history (by decide) rfl (by simp [isNegativeLimit]) hlog
  have hall := hworks ⟨rfl, rfl⟩ (by simp)
  intro m hm
  exact (hruns m (.tail _ hm) (hall m (.tail _ hm))).2

end Machine

end FoldTape
