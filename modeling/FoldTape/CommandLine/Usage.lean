import FoldTape.Machine.Options
import FoldTape.Text.Numeral

/-!
# Options, usage and complaints

The options of the command line, the usage and help texts, and what is said about arguments
that cannot be understood.
-/

namespace FoldTape.CommandLine

/-! ## §1 Options -/

/-- The options. -/
inductive Flag where
  | help
  | tapeSize
  | eof
  | maxSteps
  | dump
  | verbose
  deriving DecidableEq, Repr

/-- The ways an option is written, short form first. -/
def Flag.spellings : Flag → List String
  | help => ["-h", "--help"]
  | tapeSize => ["--tape-size"]
  | eof => ["--eof"]
  | maxSteps => ["--max-steps"]
  | dump => ["--dump-ir"]
  | verbose => ["-v", "--verbose"]

/-- Every option, in the order of the help text. -/
def Flag.all : List Flag := [.help, .tapeSize, .eof, .maxSteps, .dump, .verbose]

/-- Whether an option comes with a value. -/
def Flag.takesValue : Flag → Bool
  | tapeSize | eof | maxSteps => true
  | help | dump | verbose => false

/-- How complaints name an option: by all its spellings. -/
def Flag.title (flag : Flag) : String := "/".intercalate flag.spellings

/-- Every spelling with its option. -/
def spellings : List (String × Flag) :=
  Flag.all.flatMap fun flag => flag.spellings.map fun spelling => (spelling, flag)

/-! ## §2 Usage and help -/

/-- The usage of the command line. -/
def usageText : String :=
  "usage: bfvm [-h] [--tape-size TAPE_SIZE] [--eof \x7berror,zero\x7d]\n" ++
  "            [--max-steps MAX_STEPS] [--dump-ir] [-v]\n" ++
  "            [file]\n"

/-- The text that help is asked for. -/
def helpText : String :=
  usageText ++
  "\nCompile a Brainfuck program to folded IR and run it on a byte tape.\n" ++
  "\npositional arguments:\n" ++
  "  file                  Path to the program source\n" ++
  "\noptions:\n" ++
  "  -h, --help            show this help message and exit\n" ++
  "  --tape-size TAPE_SIZE\n" ++
  "                        Number of tape cells (default 30000)\n" ++
  "  --eof \x7berror,zero\x7d    On end of input: 'error' aborts the run, 'zero' stores\n" ++
  "                        0 (default error)\n" ++
  "  --max-steps MAX_STEPS\n" ++
  "                        Abort after this many executed instructions\n" ++
  "  --dump-ir             Print the compiled IR instead of running it\n" ++
  "  -v, --verbose         Increase log verbosity\n"

/-! ## §3 Complaints -/

/-- Why arguments are not understood. -/
inductive UsageError where
  /-- The beginning of an option fits more than one. -/
  | ambiguous (given : String) (candidates : List String)
  /-- A value was attached to an option that takes none. -/
  | ignoredValue (flag : Flag) (value : String)
  /-- An option that takes a value has none. -/
  | missingValue (flag : Flag)
  /-- The value of an option should be an integer. -/
  | notAnInteger (flag : Flag) (value : String)
  /-- The value of an option should be one of a few words. -/
  | notAChoice (flag : Flag) (value : String)
  /-- There are arguments that nothing is known to do with. -/
  | unrecognized (arguments : List String)
  deriving DecidableEq, Repr

/-- What is said about arguments that are not understood. -/
def UsageError.message : UsageError → String
  | ambiguous given candidates =>
    "ambiguous option: " ++ given ++ " could match " ++ ", ".intercalate candidates
  | ignoredValue flag value => about flag ++ "ignored explicit argument " ++ quoted value
  | missingValue flag => about flag ++ "expected one argument"
  | notAnInteger flag value => about flag ++ "invalid int value: " ++ quoted value
  | notAChoice flag value =>
    about flag ++ "invalid choice: " ++ quoted value ++ " (choose from " ++
      ", ".intercalate (EndPolicy.all.map fun policy => quoted policy.word) ++ ")"
  | unrecognized arguments => "unrecognized arguments: " ++ " ".intercalate arguments
where
  /-- The beginning of a complaint about an option. -/
  about (flag : Flag) : String := "argument " ++ flag.title ++ ": "

end FoldTape.CommandLine
