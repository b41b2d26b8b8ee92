import FoldTape.CommandLine.Arguments
import FoldTape.Proofs.Numerals
import Mathlib.Data.List.Forall2

/-!
# Arguments that are understood

The arguments that ask for a file to be run with given settings ask for just that.

## Architecture

- **§1 Classes**: what does not begin with a dash is plain, and an option is an option (`HasClass`).
- **§2 Values**: numbers and words as they are written are read back.
- **§3 Invocations**: `argumentsFor`, and `Invocation.ofArguments_argumentsFor`.
-/

namespace FoldTape.CommandLine

/-! ## §1 Classes -/

/-- In front of the separator an argument belongs to a class. -/
def HasClass (text : String) (argument : Argument) : Prop :=
  text ≠ "--" ∧ classify text = .ok argument

/-- Arguments are put into classes one by one. -/
theorem classifyAll_eq_ok {texts : List String} {arguments : List Argument}
    (h : List.Forall₂ HasClass texts arguments) : classifyAll texts = .ok arguments := by
  induction h with
  | nil => rfl
  | cons hclass _ ih => simp only [classifyAll, if_neg hclass.1, hclass.2, ih]

theorem startsWith_dash_iff (text : String) :
    text.startsWith "-" = true ↔ text.toList.head? = some '-' := by
  rw [String.startsWith_string_iff, List.head?_eq_some_iff]
  exact ⟨fun ⟨rest, h⟩ => ⟨rest, h.symm⟩, fun ⟨rest, h⟩ => ⟨rest, h.symm⟩⟩

/-- What does not begin with a dash is a value or the file. -/
theorem hasClass_plain {text : String} (h : text.startsWith "-" = false) :
    HasClass text (.plain text) := by
  constructor
  · rintro rfl
    rw [← Bool.not_eq_true, startsWith_dash_iff] at h
    exact h rfl
  · rw [classify, if_pos]
    simp [h]

/-- An option that is written out is that option. -/
theorem hasClass_spelling : ∀ entry ∈ spellings,
    HasClass entry.1 (.option entry.2 (isShortSpelling entry.1) none) := by
  intro entry hentry
  obtain ⟨hdash, hdash', hseparator, hflag⟩ : entry.1.toList.head? = some '-' ∧ entry.1 ≠ "-" ∧
      entry.1 ≠ "--" ∧ flagOf? entry.1 = some entry.2 := by
    revert entry
    decide +kernel
  refine ⟨hseparator, ?_⟩
  simp [classify, (startsWith_dash_iff _).mpr hdash, hdash', hflag]

/-! ## §2 Values -/

theorem startsWith_dash_decimalText (n : Nat) : (decimalText n).startsWith "-" = false := by
  rw [← Bool.not_eq_true, startsWith_dash_iff, decimalText, String.toList_ofList, decimal_natCast]
  intro hhead
  have hdigit := Nat.isDigit_of_mem_toDigits (by decide) (by decide) (List.mem_of_head? hhead)
  exact absurd hdigit (by decide)

theorem startsWith_dash_word (eof : EndPolicy) : eof.word.startsWith "-" = false := by
  rw [← Bool.not_eq_true, startsWith_dash_iff]
  cases eof <;> decide

/-- A number that fits into 64 bits has no more digits than a numeral may have. -/
theorem integer?_decimalText_of_lt {n : Nat} (h : (n : Int) < int64Bound) :
    integer? (decimalText n) = some (n : Int) := by
  have hdigits : (Nat.toDigits 10 n).length ≤ 19 := by
    rw [Nat.length_toDigits_le_iff (by decide) (by decide)]
    simp only [int64Bound] at h
    omega
  exact integer?_decimalText (Nat.le_trans hdigits (by decide))

/-- A text that is a value sets an option to it. -/
theorem Setting.ofText_eq_ok {α : Type} {read : String → Option α} {text : String} {a : α}
    (hdash : text.startsWith "-" = false) (hread : read text = some a) (complaint : UsageError) :
    Setting.ofText read complaint text = .ok (.value a) := by
  rw [ofText, if_neg (hasClass_plain hdash).1, hread]

namespace Progress

variable (p : Progress)

theorem takeValue_tapeSize {n : Nat} (h : (n : Int) < int64Bound) :
    p.takeValue .tapeSize (decimalText n) =
      .ok { p.passOn with request := { p.request with tapeSize := .value n } } := by
  rw [takeValue,
    Setting.ofText_eq_ok (startsWith_dash_decimalText n) (integer?_decimalText_of_lt h)]
  rfl

theorem takeValue_eof (eof : EndPolicy) :
    p.takeValue .eof eof.word =
      .ok { p.passOn with request := { p.request with eof := .value eof } } := by
  rw [takeValue, Setting.ofText_eq_ok (startsWith_dash_word eof) (EndPolicy.ofWord?_word eof)]
  rfl

theorem takeValue_maxSteps {n : Nat} (h : (n : Int) < int64Bound) :
    p.takeValue .maxSteps (decimalText n) =
      .ok { p.passOn with request := { p.request with maxSteps := .value (some n) } } := by
  -- A limit is read as a number that is there.
  let read (text : String) : Option (Option Int) := (integer? text).map some
  have hread : read (decimalText n) = some (some (n : Int)) := by
    simp only [read, integer?_decimalText_of_lt h, Option.map_some]
  show (Setting.ofText read _ _).map _ = _
  rw [Setting.ofText_eq_ok (startsWith_dash_decimalText n) hread]
  rfl

end Progress

/-- An option takes the plain argument behind it as its value. -/
theorem takeAll_value {p q : Progress} {flag : Flag} {value : String}
    (hflag : flag.takesValue = true) (h : p.takeValue flag value = .ok q) (isShort : Bool)
    (rest : List Argument) :
    takeAll p (.option flag isShort none :: .plain value :: rest) = takeAll q rest := by
  simp only [takeAll, hflag, if_true, h]

/-! ## §3 Invocations -/

/-- Settings that can be asked for: they would be accepted, and their numbers fit into 64 bits. -/
structure Askable (s : Settings) : Prop where
  cells : 0 < s.tapeSize
  cells_lt : (s.tapeSize : Int) < int64Bound
  limit : ∀ limit, s.maxSteps = some limit → 0 ≤ limit ∧ limit < int64Bound

/-- The arguments that ask for the file at a path to be run with given settings. -/
def argumentsFor (path : String) (s : Settings) : List String :=
  [path, "--tape-size", decimalText s.tapeSize, "--eof", s.eof.word] ++
    match s.maxSteps with
    | none => []
    | some limit => ["--max-steps", decimalText limit]

/-- The classes of these arguments. -/
def classesFor (path : String) (s : Settings) : List Argument :=
  [.plain path, .option .tapeSize false none, .plain (decimalText s.tapeSize),
    .option .eof false none, .plain s.eof.word] ++
    match s.maxSteps with
    | none => []
    | some limit => [.option .maxSteps false none, .plain (decimalText limit)]

/-- What is to be done then: run the file, or show its listing. -/
def invocationFor (path : String) (s : Settings) (dump : Bool) : Invocation :=
  { file := path, cells := s.tapeSize, eof := .value s.eof, limit := s.maxSteps, dump
    verbosity := 0 }

variable {path : String} {s : Settings}

theorem Askable.isNegativeLimit (hs : Askable s) : isNegativeLimit s.maxSteps = false :=
  isNegativeLimit_eq_false_iff.mpr fun limit hmax => (hs.limit limit hmax).1

theorem hasClass_argumentsFor (hpath : path.startsWith "-" = false) (hs : Askable s) :
    List.Forall₂ HasClass (argumentsFor path s) (classesFor path s) := by
  have hoption : ∀ entry ∈ spellings, isShortSpelling entry.1 = false →
      HasClass entry.1 (.option entry.2 false none) := by
    intro entry hentry hlong
    have hclass := hasClass_spelling entry hentry
    rwa [hlong] at hclass
  refine .cons (hasClass_plain hpath) ?_
  refine .cons (hoption ("--tape-size", .tapeSize) (by decide) (by decide)) ?_
  refine .cons (hasClass_plain (startsWith_dash_decimalText _)) ?_
  refine .cons (hoption ("--eof", .eof) (by decide) (by decide)) ?_
  refine .cons (hasClass_plain (startsWith_dash_word _)) ?_
  cases hmax : s.maxSteps with
  | none => exact .nil
  | some limit =>
    obtain ⟨n, rfl⟩ := Int.eq_ofNat_of_zero_le (hs.limit limit hmax).1
    refine .cons (hoption ("--max-steps", .maxSteps) (by decide) (by decide)) ?_
    exact .cons (hasClass_plain (startsWith_dash_decimalText n)) .nil

/-- What has been taken when these arguments have been taken. -/
theorem takeAll_classesFor (hs : Askable s) (rest : List Argument) :
    takeAll .start (classesFor path s ++ rest) =
      takeAll
        { request :=
            { file := some path, tapeSize := .value s.tapeSize, eof := .value s.eof
              maxSteps := .value s.maxSteps }
          place := .filled
          leftOver := [] } rest := by
  simp only [classesFor, List.cons_append, List.nil_append]
  -- The file comes first, so that its place is filled once an option has been taken.
  rw [takeAll, takeAll_value rfl (Progress.takeValue_tapeSize _ hs.cells_lt),
    takeAll_value rfl (Progress.takeValue_eof _ _)]
  cases hmax : s.maxSteps with
  | none => rfl
  | some limit =>
    obtain ⟨hnonneg, hbound⟩ := hs.limit limit hmax
    obtain ⟨n, rfl⟩ := Int.eq_ofNat_of_zero_le hnonneg
    simp only [List.cons_append, List.nil_append]
    rw [takeAll_value rfl (Progress.takeValue_maxSteps _ hbound)]
    rfl

/-- **The arguments for a run are understood**: they ask for the file and the settings that they
have been made from. With `--dump-ir` behind them they ask for the listing. -/
theorem Invocation.ofArguments_argumentsFor (hpath : path.startsWith "-" = false)
    (hs : Askable s) (dump : Bool) :
    ofArguments (argumentsFor path s ++ if dump then ["--dump-ir"] else []) =
      .ok (invocationFor path s dump) := by
  have hdump : List.Forall₂ HasClass (if dump then ["--dump-ir"] else [])
      (if dump then [.option .dump false none] else []) := by
    cases dump with
    | false => exact .nil
    | true => exact .cons (hasClass_spelling ("--dump-ir", .dump) (by decide)) .nil
  have hclasses := List.rel_append (hasClass_argumentsFor hpath hs) hdump
  have hcells : ¬ (s.tapeSize : Int) < 1 := by
    have hpositive := hs.cells
    omega
  have hnonneg := hs.isNegativeLimit
  rw [ofArguments, readArguments, classifyAll_eq_ok hclasses]
  dsimp only
  rw [takeAll_classesFor hs]
  cases dump with
  | false => simp [takeAll, Request.cells, Request.limit, hcells, hnonneg, invocationFor]
  | true =>
    simp [takeAll, Flag.takesValue, flagsOf, Progress.takeFlags, Progress.takeFlag,
      Progress.passOn, Request.cells, Request.limit, hcells, hnonneg, invocationFor]

end FoldTape.CommandLine
