import FoldTape.Proofs.Folding.Concatenation
import FoldTape.Proofs.Machine.Limits
import FoldTape.Proofs.Machine.Parallel
import FoldTape.Proofs.Machine.Safety

/-!
# Programs that begin with another

A turn looks at one instruction. As long as the program counter is inside the first part of a
program, it makes no difference what comes behind that part, so the run of the first part is the
beginning of the run of the whole. It leaves the first part at one place only, its end: there the
first part by itself would have ended, and the whole goes on if there is more.

## Architecture

- **§1 Turns and runs**: `State.after_append`, `State.Stops.append`.
- **§2 Limits**: what has been completed with a limit is completed without it.
- **§3 Machines**: runs that do not end, and `Machine.compiled_extends`.
-/

namespace FoldTape

variable {δ : Type} [Device δ] {settings : Settings} {p more : Program} {s t : State δ}
  {fault : Fault} {n : Nat}

namespace State

/-! ## §1 Turns and runs -/

/-- Inside the first part of a program, a turn is a turn of the first part. -/
theorem turn_append (h : s.registers.pc < p.size) (more : Program) :
    s.turn settings (p ++ more) = s.turn settings p := by
  have hfetch : (p ++ more)[s.registers.pc]? = p[s.registers.pc]? :=
    Array.getElem?_append_left h
  unfold turn
  rw [hfetch]

/-- **The run of the first part** is the beginning of the run of the whole. -/
theorem after_append (h : s.after settings p n = some t) (more : Program) :
    s.after settings (p ++ more) n = some t := by
  induction n generalizing s with
  | zero => exact h
  | succ n ih =>
    simp only [after] at h ⊢
    split at h
    · -- A turn that goes on has fetched an instruction, and that is inside.
      rename_i r hnext
      obtain ⟨i, ⟨hi, -⟩, -⟩ := turn_eq_next_iff.mp hnext
      rw [turn_append (lt_size_of_getElem? hi), hnext]
      exact ih h
    · cases h
    · cases h

/-- A failure of the first part is a failure of the whole. -/
theorem Stops.append (h : s.Stops settings p (some fault) t) (more : Program) :
    s.Stops settings (p ++ more) (some fault) t := by
  obtain ⟨i, hi⟩ := h.exists_instruction
  rw [stops_some_iff] at h ⊢
  rw [turn_append (lt_size_of_getElem? hi), h]

/-- A run whose jumps stay inside of the program does not pass its end. -/
theorem pc_le_size_of_after (hjumps : p.JumpsInside) (h : s.after settings p n = some t)
    (hs : s.registers.pc ≤ p.size) : t.registers.pc ≤ p.size := by
  refine after_induction (P := fun r => r.registers.pc ≤ p.size) ?_ h hs
  intro r u hnext _
  exact pc_le_size_of_turn_next hjumps hnext

/-! ## §2 Limits -/

/-- A turn that goes on in spite of a limit goes on without it. -/
theorem turn_next_unlimited (h : s.turn settings p = .next t) :
    s.turn settings.unlimited p = .next t := by
  obtain ⟨i, ⟨hi, -⟩, hperform⟩ := turn_eq_next_iff.mp h
  exact turn_eq_next_iff.mpr ⟨i, ⟨hi, nofun⟩, hperform⟩

theorem after_unlimited (h : s.after settings p n = some t) :
    s.after settings.unlimited p n = some t := by
  induction n generalizing s with
  | zero => exact h
  | succ n ih =>
    simp only [after] at h ⊢
    split at h
    · rename_i hnext
      rw [turn_next_unlimited hnext]
      exact ih h
    · cases h
    · cases h

end State

/-! ## §3 Machines -/

/-- Commentary is compiled to nothing, and nothing else is. -/
theorem size_eq_zero_iff {text : List Char} (h : compile text = .ok p) :
    p.size = 0 ↔ IsComment text := by
  have hflat := flatten_blocks text
  rw [← renders_of_compile h] at hflat
  constructor
  · intro hempty
    have hnil : p.toList = [] := List.eq_nil_of_length_eq_zero hempty
    rw [hnil, List.map_nil, List.flatten_nil, eq_comm, List.filter_eq_nil_iff] at hflat
    intro c hc
    exact Option.not_isSome_iff_eq_none.mp (hflat c hc)
  · intro hcomment
    have hblocks : blocks ([] ++ text) = [] := blocks_append_comment hcomment []
    rw [List.nil_append, ← renders_of_compile h, List.map_eq_nil_iff] at hblocks
    rw [← Array.length_toList, hblocks, List.length_nil]

namespace Machine

variable {m : Machine δ}

/-- A run without an end gets as far as anyone likes, and only such a run does. -/
theorem not_ends_iff_visits (hp : p.Admissible) :
    (¬ ∃ fault? t, m.Ends p fault? t) ↔ ∀ n, ∃ s, m.Visits p n s := by
  constructor
  · intro h n
    rcases State.exists_after_or_stops m.settings p m.reset.state n with
      hafter | ⟨k, r, fault?, t, -, hafter, hstops⟩
    · exact hafter
    · exact absurd ⟨fault?, t, (ends_iff hp).mpr ⟨k, r, hafter, hstops⟩⟩ h
  · rintro h ⟨fault?, t, hends⟩
    obtain ⟨fuel, hend⟩ := (execute_iff_runToEnd hp m fault? t).mp hends
    obtain ⟨s, hs⟩ := h fuel
    exact Nat.lt_irrefl fuel (State.lt_of_after_of_runToEnd hs hend)

theorem Visits.append (h : m.Visits p n s) (more : Program) : m.Visits (p ++ more) n s :=
  State.after_append h more

/-- A failure of the first part, with whatever comes behind it. -/
theorem Ends.append (hp : p.Admissible) (hmore : (p ++ more).Admissible)
    (h : m.Ends p (some fault) t) : m.Ends (p ++ more) (some fault) t := by
  obtain ⟨n, s, hs, hstops⟩ := (ends_iff_visits hp).mp h
  exact (ends_iff_visits hmore).mpr ⟨n, s, hs.append more, hstops.append more⟩

/-- If the first part by itself does not end, then neither does the whole. -/
theorem not_ends_append (hp : p.Admissible) (hmore : (p ++ more).Admissible)
    (h : ¬ ∃ fault? t, m.Ends p fault? t) : ¬ ∃ fault? t, m.Ends (p ++ more) fault? t := by
  rw [not_ends_iff_visits hp] at h
  rw [not_ends_iff_visits hmore]
  intro n
  obtain ⟨s, hs⟩ := h n
  exact ⟨s, hs.append more⟩

/-- **Where the first part ends**: at its end, and there the whole is after as many steps, also if
no more of them are allowed. -/
theorem Ends.visits_append (hp : p.Admissible) (hjumps : p.JumpsInside)
    (h : m.Ends p none t) (more : Program) :
    t.registers.pc = p.size ∧
      (m.setMaxSteps (some t.registers.steps)).Visits (p ++ more) t.registers.steps t := by
  obtain ⟨n, r, hafter, hstops⟩ := (ends_iff hp).mp h
  obtain ⟨hend, rfl⟩ := State.stops_none_iff.mp hstops
  have hn : t.registers.steps = 0 + n := State.steps_of_after hafter
  constructor
  · have hle := State.pc_le_size_of_after hjumps hafter (Nat.zero_le _)
    have hge := Array.getElem?_eq_none_iff.mp hend
    omega
  · obtain rfl : n = t.registers.steps := by omega
    have hwhole := State.after_append (State.after_unlimited hafter) more
    rw [Visits, ← hwhole]
    exact State.after_limited (Nat.le_of_eq hn.symm)

variable {q : Program} {text text' : List Char} {c : Char}

/-- **The run of a text begins with the run of each of its beginnings.** For every text and every
other one, put together with a comment between them, and on every machine:

- if the first text fails, then the whole fails in the same way, and leaves the same state;
- if the first text returns, then it is at its end, and with as many steps as it has taken the whole
  gets into the same state, where it returns if the second text is commentary, and is cut off if it
  is not;
- if the first text does not end, then neither does the whole. -/
theorem compiled_extends (hp : compile text = .ok p) (hq : compile text' = .ok q)
    (hc : Operator.ofSymbol? c = none) (hlength : (text ++ c :: text').length < int64Bound) :
    ∃ r, compile (text ++ c :: text') = .ok r ∧ ∀ m : Machine δ,
      (∀ fault t, m.Ends p (some fault) t → m.Ends r (some fault) t) ∧
      (∀ t, m.Ends p none t → t.registers.pc = p.size ∧
        (IsComment text' → (m.setMaxSteps (some t.registers.steps)).Ends r none t) ∧
        (¬ IsComment text' → m.RunsOut r t.registers.steps t)) ∧
      ((¬ ∃ fault? t, (m.setMaxSteps none).Ends p fault? t) →
        ¬ ∃ fault? t, (m.setMaxSteps none).Ends r fault? t) := by
  have hr := compile_append_comment hp hq hc
  have hadmissible := admissible_of_compile hr hlength
  have hadmissible' : p.Admissible := by
    apply admissible_of_compile hp
    rw [List.length_append] at hlength
    omega
  refine ⟨_, hr, fun m => ⟨?_, ?_, not_ends_append hadmissible' hadmissible⟩⟩
  · intro fault t h
    exact h.append hadmissible' hadmissible
  · intro t h
    obtain ⟨hpc, hvisits⟩ :=
      h.visits_append hadmissible' (jumpsInside_of_compile hp) (q.shift p.size)
    have hnext : (p ++ q.shift p.size)[t.registers.pc]? = (q.shift p.size)[0]? := by
      rw [hpc, Array.getElem?_append_right (Nat.le_refl _), Nat.sub_self]
    have hsize : (q.shift p.size).size = q.size := Array.size_map
    refine ⟨hpc, ?_, ?_⟩
    · intro hcomment
      have hempty := (size_eq_zero_iff hq).mpr hcomment
      refine (ends_iff_visits hadmissible).mpr ⟨_, t, hvisits, State.stops_none_iff.mpr ⟨?_, rfl⟩⟩
      rw [hnext]
      exact Array.getElem?_eq_none (by omega)
    · intro hoperator
      have hpositive := mt (size_eq_zero_iff hq).mp hoperator
      refine (ends_iff_visits hadmissible).mpr ⟨_, t, hvisits, State.stops_some_iff.mpr ?_⟩
      exact State.turn_limited_of_eq rfl (hnext.trans (Array.getElem?_eq_getElem (by omega)))

/-- A text that returns after one step, with more behind it: after one step, it is cut off. -/
theorem compiled_extends_decrement :
    compile ['+', '+'] = .ok #[⟨.increment, 2⟩] ∧
    compile ['-'] = .ok #[⟨.decrement, 1⟩] ∧
    (Machine.new { tapeSize := 1 } (Ports.inMemory [])).Ends #[⟨.increment, 2⟩] none
      ⟨⟨1, 0, 1, #[2]⟩, .inMemory []⟩ ∧
    ∃ r, compile ['+', '+', 'x', '-'] = .ok r ∧
      (Machine.new { tapeSize := 1 } (Ports.inMemory [])).RunsOut r 1
        ⟨⟨1, 0, 1, #[2]⟩, .inMemory []⟩ := by
  have hp : compile ['+', '+'] = .ok #[⟨.increment, 2⟩] := by rfl
  have hq : compile ['-'] = .ok #[⟨.decrement, 1⟩] := by rfl
  have hends : (Machine.new { tapeSize := 1 } (Ports.inMemory [])).Ends #[⟨.increment, 2⟩] none
      ⟨⟨1, 0, 1, #[2]⟩, .inMemory []⟩ := (ends_iff (by decide)).mpr ⟨1, _, rfl, rfl⟩
  obtain ⟨r, hr, hruns⟩ := compiled_extends (δ := Ports) hp hq (c := 'x') rfl (by decide)
  refine ⟨hp, hq, hends, r, hr, ((hruns _).2.1 _ hends).2.2 ?_⟩
  intro hcomment
  cases hcomment '-' (by simp)

end Machine

end FoldTape
