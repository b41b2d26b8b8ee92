import FoldTape.Proofs.Machine.Endings

/-!
# Two runs side by side

Two runs of one program are compared through a map from the states of the one to those of the
other. As long as both take the same turn in states that correspond, they go on side by side; the
first turn in which they do not is the first one that leaves too much of something.

## Architecture

- **§1 Turns**: `State.Mirrors`, both take the same turn; `State.left`, what a turn leaves.
- **§2 Runs**: `State.after_map`, and the first turn that goes beyond a bound.
- **§3 Machines**: `Machine.ends_map_iff`.
-/

namespace FoldTape

variable {δ δ' : Type} [Device δ] [Device δ'] {settings settings' : Settings} {p : Program}
  {s t r : State δ} {f : State δ → State δ'} {fault? : Option Fault}

/-! ## §1 Turns -/

/-- The same turn, to states that are seen through `f`. -/
def Turn.map (f : State δ → State δ') : Turn δ → Turn δ'
  | .next s => .next (f s)
  | .halted => .halted
  | .failed fault s => .failed fault (f s)

/-- The state that a turn leaves when it is taken in `s`. -/
def Turn.left (s : State δ) : Turn δ → State δ
  | .next t | .failed _ t => t
  | .halted => s

namespace State

/-- Here the other run takes the same turn: states correspond through `f`. -/
def Mirrors (f : State δ → State δ') (settings settings' : Settings) (p : Program)
    (s : State δ) : Prop :=
  (f s).turn settings' p = (s.turn settings p).map f

/-- The state that the next turn leaves. -/
def left (settings : Settings) (p : Program) (s : State δ) : State δ :=
  (s.turn settings p).left s

theorem left_of_next (h : s.turn settings p = .next t) : s.left settings p = t := by
  rw [left, h]
  rfl

theorem left_of_end (h : p[s.registers.pc]? = none) : s.left settings p = s := by
  rw [left, turn_of_end h]
  rfl

theorem AtLimit.left_eq (h : s.AtLimit settings p) : s.left settings p = s := by
  rw [left, h.turn_eq]
  rfl

theorem Fetches.left_eq {i : Instruction} (h : s.Fetches settings p i) :
    s.left settings p = (s.perform settings.eof i).left s := by
  rw [left, h.turn_eq]

theorem Stops.left_eq (h : s.Stops settings p fault? t) : s.left settings p = t := by
  cases fault? with
  | none =>
    obtain ⟨hend, rfl⟩ := stops_none_iff.mp h
    exact left_of_end hend
  | some fault =>
    rw [left, stops_some_iff.mp h]
    rfl

/-- The other run ends here as well, in the corresponding state, or neither does. -/
theorem Mirrors.stops_iff (h : s.Mirrors f settings settings' p) {t' : State δ'} :
    (f s).Stops settings' p fault? t' ↔ ∃ t, s.Stops settings p fault? t ∧ f t = t' := by
  rw [Mirrors] at h
  simp only [Stops, runToEnd, h]
  cases s.turn settings p with
  | next t => simp [Turn.map]
  | halted => simp [Turn.map, and_assoc]
  | failed fault t => simp [Turn.map, and_assoc]

/-- Two runs with the same limit can only differ in an instruction that is performed. -/
theorem mirrors_of_perform (hpc : (f s).registers.pc = s.registers.pc)
    (hpointer : (f s).registers.pointer = s.registers.pointer)
    (hsteps : (f s).registers.steps = s.registers.steps)
    (hmax : settings'.maxSteps = settings.maxSteps)
    (h : ∀ i, s.Fetches settings p i →
      (f s).perform settings'.eof i = (s.perform settings.eof i).map f) :
    s.Mirrors f settings settings' p := by
  rw [Mirrors]
  -- The end of the program and the limit are seen from the registers alone.
  rcases turn_cases settings p s with hend | hlimit | ⟨i, hi⟩
  · rw [turn_of_end hend, turn_of_end (hpc ▸ hend)]
    rfl
  · have hlimit' : (f s).AtLimit settings' p := by
      rw [AtLimit, hpc, hsteps, hmax]
      exact hlimit
    rw [hlimit.turn_eq, hlimit'.turn_eq, hpc, hpointer, hsteps]
    rfl
  · have hi' : (f s).Fetches settings' p i := by
      rw [Fetches, hpc, hsteps, hmax]
      exact hi
    rw [hi.turn_eq, hi'.turn_eq]
    exact h i hi

/-! ## §2 Runs -/

/-- **Side by side**: as long as the turns are the same, so are the states after them. -/
theorem after_map {n : Nat}
    (h : ∀ k < n, ∀ r, s.after settings p k = some r → r.Mirrors f settings settings' p) :
    (f s).after settings' p n = (s.after settings p n).map f := by
  induction n generalizing s with
  | zero => rfl
  | succ n ih =>
    have hfirst : s.Mirrors f settings settings' p := h 0 (Nat.succ_pos n) s rfl
    rw [Mirrors] at hfirst
    simp only [after, hfirst]
    cases hturn : s.turn settings p with
    | next t =>
      apply ih
      intro k hk r hr
      apply h (k + 1) (Nat.succ_lt_succ hk)
      simpa only [after, hturn] using hr
    | halted => rfl
    | failed fault t => rfl

section Bounds

variable {μ : State δ → Nat} {bound : Nat}

/-- **The first turn that goes beyond a bound.** If some turn of a run leaves more than the bound,
there is a first one; it begins within the bound. -/
theorem exists_crossing (hs : μ s ≤ bound) {n : Nat} (hr : s.after settings p n = some r)
    (hbeyond : bound < μ (r.left settings p)) :
    ∃ k q, s.after settings p k = some q ∧ μ q ≤ bound ∧ bound < μ (q.left settings p) ∧
      ∀ j < k, ∀ u, s.after settings p j = some u → μ (u.left settings p) ≤ bound := by
  induction n generalizing s with
  | zero =>
    cases hr
    exact ⟨0, _, rfl, hs, hbeyond, by simp⟩
  | succ n ih =>
    by_cases hfirst : bound < μ (s.left settings p)
    · exact ⟨0, s, rfl, hs, hfirst, by simp⟩
    · -- The first turn stays within the bound, so the run goes on from there.
      have hwithin := Nat.le_of_not_lt hfirst
      simp only [after] at hr
      split at hr
      · rename_i t hturn
        obtain ⟨k, q, hq, hwithinq, hbeyondq, hbefore⟩ := ih (left_of_next hturn ▸ hwithin) hr
        refine ⟨k + 1, q, by simpa only [after, hturn] using hq, hwithinq, hbeyondq, ?_⟩
        intro j hj u hu
        cases j with
        | zero =>
          cases hu
          exact hwithin
        | succ j =>
          simp only [after, hturn] at hu
          exact hbefore j (Nat.lt_of_succ_lt_succ hj) u hu
      · cases hr
      · cases hr

/-- What no turn lessens is at the end at least what it was after any turn. -/
theorem left_le_of_stops (hμ : ∀ s : State δ, μ s ≤ μ (s.left settings p)) {n N : Nat}
    (hs : s.after settings p n = some r) {last : State δ}
    (hlast : s.after settings p N = some last) (hstops : last.Stops settings p fault? t) :
    μ (r.left settings p) ≤ μ t := by
  have hend : s.runToEnd settings p (N + 1) = some (fault?, t) := by
    rw [runToEnd_add hlast]
    exact hstops
  -- The turn is the last one of the run, or others lead on from it to the last one.
  have hlt := lt_of_after_of_runToEnd hs hend
  rcases Nat.lt_or_eq_of_le (Nat.le_of_lt_succ hlt) with hlt | rfl
  · obtain ⟨q, hnext, hlast⟩ := exists_next_of_lt hlt hlast hs
    have hmore : μ q ≤ μ last := by
      refine after_induction (P := fun u => μ q ≤ μ u) ?_ hlast (Nat.le_refl _)
      intro u v hnext hu
      exact Nat.le_trans hu (left_of_next hnext ▸ hμ u)
    rw [left_of_next hnext]
    exact Nat.le_trans hmore (hstops.left_eq ▸ hμ last)
  · obtain rfl : r = last := Option.some.inj (hs.symm.trans hlast)
    exact Nat.le_of_eq (congrArg μ hstops.left_eq)

end Bounds

end State

/-! ## §3 Machines -/

namespace Machine

variable {m : Machine δ} {m' : Machine δ'}

/-- The run of a program on a machine gets into this state, by so many steps. -/
def Visits (m : Machine δ) (p : Program) (n : Nat) (s : State δ) : Prop :=
  m.reset.state.after m.settings p n = some s

/-- A run ends where its last turn leaves it. -/
theorem ends_iff_visits (hp : p.Admissible) :
    m.Ends p fault? t ↔ ∃ n s, m.Visits p n s ∧ s.Stops m.settings p fault? t :=
  ends_iff hp

theorem Visits.succ {n : Nat} (hs : m.Visits p n s) (hnext : s.turn m.settings p = .next t) :
    m.Visits p (n + 1) t := by
  rw [Visits] at hs ⊢
  rw [State.after_add, hs, Option.bind_some, State.after, hnext]
  rfl

/-- A run has one end. -/
theorem Ends.unique (hp : p.Admissible) {fault?' : Option Fault} (h : m.Ends p fault? t)
    (h' : m.Ends p fault?' s) : fault?' = fault? ∧ s = t := by
  obtain ⟨turns, h⟩ := (execute_iff_runToEnd hp m _ _).mp h
  obtain ⟨turns', h'⟩ := (execute_iff_runToEnd hp m _ _).mp h'
  cases State.runToEnd_unique h h'
  exact ⟨rfl, rfl⟩

/-- What holds at the start and is kept by every turn holds in every state that is visited. -/
theorem Visits.induction {P : State δ → Prop} {n : Nat} (h : m.Visits p n s)
    (hstart : P m.reset.state)
    (hturn : ∀ {s t}, s.turn m.settings p = .next t → P s → P t) : P s :=
  State.after_induction hturn h hstart

/-- The first turn of a run that goes beyond a bound. -/
theorem Visits.exists_crossing {μ : State δ → Nat} {bound n : Nat} (hs : m.Visits p n s)
    (hstart : μ m.reset.state ≤ bound) (hbeyond : bound < μ (s.left m.settings p)) :
    ∃ k q, m.Visits p k q ∧ μ q ≤ bound ∧ bound < μ (q.left m.settings p) ∧
      ∀ j < k, ∀ u, m.Visits p j u → μ (u.left m.settings p) ≤ bound :=
  State.exists_crossing hstart hs hbeyond

/-- What no turn lessens is at the end of a run at least what it was after any turn. -/
theorem Ends.left_le (hp : p.Admissible) {μ : State δ → Nat}
    (hμ : ∀ s : State δ, μ s ≤ μ (s.left m.settings p)) (h : m.Ends p fault? t) {n : Nat}
    (hs : m.Visits p n s) : μ (s.left m.settings p) ≤ μ t := by
  obtain ⟨N, last, hlast, hstops⟩ := (ends_iff_visits hp).mp h
  exact State.left_le_of_stops hμ hs hlast hstops

/-- **Two machines side by side.** If both take the same turn wherever the one comes, then the other
ends where the one does, and only there. -/
theorem ends_map_iff (hp : p.Admissible) (hstart : m'.reset.state = f m.reset.state)
    (h : ∀ n s, m.Visits p n s → s.Mirrors f m.settings m'.settings p) {t' : State δ'} :
    m'.Ends p fault? t' ↔ ∃ t, m.Ends p fault? t ∧ f t = t' := by
  have hafter : ∀ n, m'.reset.state.after m'.settings p n =
      (m.reset.state.after m.settings p n).map f := by
    intro n
    rw [hstart]
    exact State.after_map fun k _ => h k
  rw [ends_iff hp]
  constructor
  · rintro ⟨n, r', hr', hstops'⟩
    rw [hafter, Option.map_eq_some_iff] at hr'
    obtain ⟨r, hr, rfl⟩ := hr'
    obtain ⟨t, hstops, rfl⟩ := (h n r hr).stops_iff.mp hstops'
    exact ⟨t, (ends_iff hp).mpr ⟨n, r, hr, hstops⟩, rfl⟩
  · rintro ⟨t, hends, rfl⟩
    obtain ⟨n, r, hr, hstops⟩ := (ends_iff hp).mp hends
    refine ⟨n, f r, by rw [hafter, hr]; rfl, (h n r hr).stops_iff.mpr ⟨t, hstops, rfl⟩⟩

/-- Side by side up to some state. -/
theorem Visits.map (hstart : m'.reset.state = f m.reset.state) {n : Nat} (hs : m.Visits p n s)
    (h : ∀ k < n, ∀ r, m.Visits p k r → r.Mirrors f m.settings m'.settings p) :
    m'.Visits p n (f s) := by
  rw [Visits, hstart, State.after_map h]
  rw [Visits] at hs
  rw [hs]
  rfl

end Machine

end FoldTape
