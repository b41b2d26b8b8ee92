import FoldTape.Machine.Basic
import FoldTape.Text.Quoted

/-!
# Checked settings

Settings come from outside as plain numbers and a word. They are checked in a fixed order: the
length of the tape, the number of steps, the policy at the end of the input.
-/

namespace FoldTape

/-! ## §1 Policies as words -/

/-- The word for a policy. -/
def EndPolicy.word : EndPolicy → String
  | error => "error"
  | zero => "zero"

/-- Every policy. -/
def EndPolicy.all : List EndPolicy := [.error, .zero]

/-- The policy that a word stands for. -/
def EndPolicy.ofWord? (word : String) : Option EndPolicy :=
  EndPolicy.all.find? fun policy => policy.word == word

@[simp] theorem EndPolicy.ofWord?_word (policy : EndPolicy) :
    EndPolicy.ofWord? policy.word = some policy := by
  cases policy <;> rfl

/-! ## §2 Checks -/

/-- Why settings are refused. -/
inductive SettingsError where
  /-- A tape has at least one cell. -/
  | tapeSize (given : Int)
  /-- The number of allowed steps is not negative. -/
  | maxSteps (given : Int)
  /-- The word stands for no policy. -/
  | eof (given : String)
  deriving DecidableEq, Repr

/-- What is said about refused settings. -/
def SettingsError.message : SettingsError → String
  | tapeSize given => "tape_size must be at least 1, got " ++ decimalText given
  | maxSteps given => "max_steps must be non-negative, got " ++ decimalText given
  | eof given => quoted given ++ " is not a valid EOFPolicy"

/-- The policy that a word stands for, or the error that it stands for none. -/
def EndPolicy.check (word : String) : Except SettingsError EndPolicy :=
  match EndPolicy.ofWord? word with
  | some policy => .ok policy
  | none => .error (.eof word)

/-- Whether a limit on the steps is negative. -/
def isNegativeLimit : Option Int → Bool
  | some n => n < 0
  | none => false

theorem isNegativeLimit_eq_false_iff {maxSteps : Option Int} :
    isNegativeLimit maxSteps = false ↔ ∀ limit, maxSteps = some limit → 0 ≤ limit := by
  cases maxSteps with
  | none => simp [isNegativeLimit]
  | some limit => simp [isNegativeLimit]

/-- The settings with given values, if these are acceptable. -/
def Settings.check (tapeSize : Int) (eof : String) (maxSteps : Option Int) :
    Except SettingsError Settings :=
  if tapeSize < 1 then .error (.tapeSize tapeSize)
  else if isNegativeLimit maxSteps then .error (.maxSteps (maxSteps.getD 0))
  else
    match EndPolicy.check eof with
    | .error e => .error e
    | .ok eof => .ok { tapeSize := tapeSize.toNat, eof, maxSteps }

/-- Settings with a cell at least and no negative limit are what they are checked to be. -/
theorem Settings.check_eq_ok {s : Settings} (hsize : 0 < s.tapeSize)
    (hlimit : isNegativeLimit s.maxSteps = false) :
    Settings.check s.tapeSize s.eof.word s.maxSteps = .ok s := by
  have hcells : ¬ (s.tapeSize : Int) < 1 := by omega
  simp only [check, if_neg hcells, hlimit, Bool.false_eq_true, if_false, EndPolicy.check,
    EndPolicy.ofWord?_word, Int.toNat_natCast]

end FoldTape
