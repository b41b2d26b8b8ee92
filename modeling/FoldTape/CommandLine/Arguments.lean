import FoldTape.CommandLine.Exit

/-!
# Arguments

Reading the arguments of the command line. Each argument is first put into a class by its
looks: an option, something that looks like an option but is none, a plain argument, or the
separator `--`, after which all arguments are plain. Then the arguments are taken from left to
right. The first plain argument is the file; options may stand before and after it, and of
several values for one option the last one holds.

A long option may be cut short as long as only one option begins like that, short options may
be written together, and a value may be attached to a long option with an equals sign. Two
dashes attached that way are no value: they leave the option blank.
-/

namespace FoldTape.CommandLine

/-! ## §1 Classes of arguments -/

/-- An argument by its looks. -/
inductive Argument where
  /-- A value or the file. -/
  | plain (text : String)
  /-- The separator between options and plain arguments. -/
  | separator
  /-- An option, whether it is written in its short form, and the value attached to it. -/
  | option (flag : Flag) (isShort : Bool) (attached : Option String)
  /-- An argument that looks like an option but is none. -/
  | unknown (text : String)
  deriving DecidableEq, Repr

/-- Whether a text looks like a negative number: a minus sign and then digits, with at most one
point that is not the last character. A line feed at the end does not count. -/
def looksNegative (text : List Char) : Bool :=
  let isDigit (c : Char) : Bool := (digitValue? c).isSome
  match text with
  | '-' :: number =>
    let number := if number.getLast? = some '\n' then number.dropLast else number
    match number.dropWhile isDigit with
    | [] => !number.isEmpty
    | c :: fraction => c = '.' && !fraction.isEmpty && fraction.all isDigit
  | _ => false

/-- The part of a text before its first equals sign, and the part after it if there is one. -/
def splitValue (text : List Char) : String × Option String :=
  let spelling := text.takeWhile (· ≠ '=')
  match text.drop spelling.length with
  | [] => (String.ofList spelling, none)
  | _ :: value => (String.ofList spelling, some (String.ofList value))

/-- The option with exactly this spelling. -/
def flagOf? (spelling : String) : Option Flag :=
  (spellings.find? fun entry => entry.1 == spelling).map Prod.snd

/-- The options that an argument which is not spelled out may mean, each with its spelling and
the value attached to it. After two dashes it may be the beginning of a long option; after one
dash it is a short option and what follows its letter is attached. -/
def candidates (text : List Char) : List (String × Argument) :=
  match text with
  | '-' :: '-' :: _ =>
    let (beginning, attached) := splitValue text
    (spellings.filter fun entry => beginning.toList.isPrefixOf entry.1.toList).map
      fun (spelling, flag) => (spelling, .option flag false attached)
  | _ =>
    (spellings.filter fun entry => entry.1.toList == text.take 2).map
      fun (spelling, flag) => (spelling, .option flag true (some (String.ofList (text.drop 2))))

/-- Whether a spelling is a short one: one dash and a letter. -/
def isShortSpelling (spelling : String) : Bool := spelling.length = 2

/-- The class of an argument in front of the separator. -/
def classify (text : String) : Except UsageError Argument :=
  if !text.startsWith "-" || text = "-" then .ok (.plain text)
  else
    match flagOf? text with
    | some flag => .ok (.option flag (isShortSpelling text) none)
    | none =>
      let (spelling, value) := splitValue text.toList
      match flagOf? spelling, value with
      | some flag, some value => .ok (.option flag (isShortSpelling spelling) (some value))
      | _, _ =>
        match candidates text.toList with
        | [(_, argument)] => .ok argument
        | [] =>
          if looksNegative text.toList || text.contains ' ' then .ok (.plain text)
          else .ok (.unknown text)
        | several => .error (.ambiguous text (several.map Prod.fst))

/-- The classes of all arguments. -/
def classifyAll : List String → Except UsageError (List Argument)
  | [] => .ok []
  | text :: rest =>
    if text = "--" then .ok (.separator :: rest.map .plain)
    else
      match classify text with
      | .error e => .error e
      | .ok argument =>
        match classifyAll rest with
        | .error e => .error e
        | .ok arguments => .ok (argument :: arguments)

/-! ## §2 Taking arguments -/

/-- What an option that takes a value is set to. -/
inductive Setting (α : Type) where
  /-- The option was written with two dashes in place of a value. -/
  | blank
  | value (a : α)
  deriving DecidableEq, Repr

/-- What an option is set to by a text. Two dashes leave it blank, whatever it takes. -/
def Setting.ofText {α : Type} (read : String → Option α) (complaint : UsageError)
    (text : String) : Except UsageError (Setting α) :=
  if text = "--" then .ok .blank
  else
    match read text with
    | some a => .ok (.value a)
    | none => .error complaint

/-- What the arguments ask for. -/
structure Request where
  file : Option String := none
  tapeSize : Setting Int := .value defaultTapeSize
  eof : Setting EndPolicy := .value .error
  maxSteps : Setting (Option Int) := .value none
  dump : Bool := false
  verbosity : Nat := 0
  deriving DecidableEq, Repr

/-- Whether the place of the file has been filled. -/
inductive FilePlace where
  | vacant
  /-- It has been filled by the argument just taken. -/
  | justFilled
  | filled
  deriving DecidableEq, Repr

/-- How far the arguments have been taken. -/
structure Progress where
  request : Request
  place : FilePlace
  /-- The arguments that nothing is known to do with. -/
  leftOver : List String

namespace Progress

/-- Nothing has been taken yet. -/
def start : Progress := ⟨{}, .vacant, []⟩

/-- Some argument was taken that does not fill the place of the file. -/
def passOn (p : Progress) : Progress :=
  { p with place := if p.place = .vacant then .vacant else .filled }

/-- An argument that nothing is known to do with. -/
def leave (p : Progress) (text : String) : Progress :=
  { p.passOn with leftOver := p.leftOver ++ [text] }

/-- A plain argument is the file if there is none yet. -/
def takePlain (p : Progress) (text : String) : Progress :=
  if p.place = .vacant then
    { p with request := { p.request with file := some text }, place := .justFilled }
  else p.leave text

/-- The separator is left over if it comes later than directly after the file. -/
def takeSeparator (p : Progress) : Progress :=
  if p.place = .filled then p.leave "--" else p.passOn

/-- Gives a value to an option, or leaves it blank. -/
def takeValue (p : Progress) (flag : Flag) (value : String) : Except UsageError Progress :=
  let put (request : Request) : Progress := { p.passOn with request }
  match flag with
  | .eof =>
    (Setting.ofText EndPolicy.ofWord? (.notAChoice flag value) value).map fun eof =>
      put { p.request with eof }
  | .tapeSize =>
    (Setting.ofText integer? (.notAnInteger flag value) value).map fun tapeSize =>
      put { p.request with tapeSize }
  | .maxSteps =>
    let read (text : String) : Option (Option Int) := (integer? text).map some
    (Setting.ofText read (.notAnInteger flag value) value).map fun maxSteps =>
      put { p.request with maxSteps }
  | .help | .dump | .verbose => .error (.ignoredValue flag value)

/-- Takes an option that has no value. -/
def takeFlag (p : Progress) (flag : Flag) : Except Quit Progress :=
  match flag with
  | .help => .error .help
  | .dump => .ok { p.passOn with request := { p.request with dump := true } }
  | .verbose =>
    .ok { p.passOn with request := { p.request with verbosity := p.request.verbosity + 1 } }
  | .tapeSize | .eof | .maxSteps => .error (.misused (.missingValue flag))

/-- Takes options that have no values, in order. -/
def takeFlags (p : Progress) : List Flag → Except Quit Progress
  | [] => .ok p
  | flag :: flags =>
    match p.takeFlag flag with
    | .error quit => .error quit
    | .ok p => p.takeFlags flags

end Progress

/-- The short options written together after a first one. The letters that are left when one of
them is no option are reported as a value of the option before. -/
def shortFlags (first : Flag) : List Char → Except UsageError (List Flag)
  | [] => .ok [first]
  | c :: rest =>
    match flagOf? (String.ofList ['-', c]) with
    | none => .error (.ignoredValue first (String.ofList (c :: rest)))
    | some flag =>
      match shortFlags flag rest with
      | .error e => .error e
      | .ok flags => .ok (first :: flags)

/-- The options meant by an option without value and what is attached to it: nothing may be
attached to a long one, and only further options to a short one. -/
def flagsOf (flag : Flag) (isShort : Bool) (attached : Option String) :
    Except UsageError (List Flag) :=
  match attached with
  | none => .ok [flag]
  | some text =>
    if isShort ∧ text ≠ "" then shortFlags flag text.toList
    else .error (.ignoredValue flag text)

/-- Takes arguments from left to right. -/
def takeAll (p : Progress) : List Argument → Except Quit Progress
  | [] => .ok p
  | .plain text :: rest => takeAll (p.takePlain text) rest
  | .separator :: rest => takeAll p.takeSeparator rest
  | .unknown text :: rest => takeAll (p.leave text) rest
  | .option flag isShort attached :: rest =>
    if flag.takesValue then
      match attached, rest with
      | some value, rest =>
        match p.takeValue flag value with
        | .error e => .error (.misused e)
        | .ok p => takeAll p rest
      | none, .plain value :: rest =>
        match p.takeValue flag value with
        | .error e => .error (.misused e)
        | .ok p => takeAll p rest
      | none, _ => .error (.misused (.missingValue flag))
    else
      match flagsOf flag isShort attached with
      | .error e => .error (.misused e)
      | .ok flags =>
        match p.takeFlags flags with
        | .error quit => .error quit
        | .ok p => takeAll p rest

/-- Reads all arguments; none may be left over. -/
def readArguments (arguments : List String) : Except Quit Request :=
  match classifyAll arguments with
  | .error e => .error (.misused e)
  | .ok arguments =>
    match takeAll .start arguments with
    | .error quit => .error quit
    | .ok p => if p.leftOver = [] then .ok p.request else .error (.misused (.unrecognized p.leftOver))

/-! ## §3 What is to be done -/

/-- The number of cells that is asked for. A tape has at least one cell. -/
def Request.cells (r : Request) : Except Quit Nat :=
  match r.tapeSize with
  | .blank => .error .blankNumber
  | .value tapeSize => if tapeSize < 1 then .error .tapeTooSmall else .ok tapeSize.toNat

/-- The limit on the steps that is asked for. It is not negative. -/
def Request.limit (r : Request) : Except Quit (Option Int) :=
  match r.maxSteps with
  | .blank => .error .blankNumber
  | .value maxSteps => if isNegativeLimit maxSteps then .error .negativeLimit else .ok maxSteps

/-- What the command line is to do: run a file, or show its listing. The policy at the end of
the input may still be blank, since a listing does without. -/
structure Invocation where
  file : String
  cells : Nat
  eof : Setting EndPolicy
  limit : Option Int
  dump : Bool
  verbosity : Nat
  deriving DecidableEq, Repr

/-- Reads all arguments and checks what they ask for. -/
def Invocation.ofArguments (arguments : List String) : Except Quit Invocation :=
  match readArguments arguments with
  | .error quit => .error quit
  | .ok request =>
    match request.file, request.cells, request.limit with
    | none, _, _ => .error .noFile
    | some _, .error quit, _ => .error quit
    | some _, .ok _, .error quit => .error quit
    | some file, .ok cells, .ok limit =>
      .ok
        { file, cells, limit
          eof := request.eof
          dump := request.dump
          verbosity := request.verbosity }

/-- The settings of a machine that is to run the file. -/
def Invocation.settings (i : Invocation) : Except Quit Settings :=
  match i.eof with
  | .blank => .error .blankEndPolicy
  | .value eof => .ok { tapeSize := i.cells, eof, maxSteps := i.limit }

end FoldTape.CommandLine
