import FoldTape.CommandLine.Usage
import FoldTape.Files

/-!
# How the command line ends

Mostly it ends with an exit code and what it has written to its two streams. It may also break
down, and then there is no exit code: a value that was left blank is used after all, or the
path of the file holds a character that no path can hold.

This module lists the reasons for ending before anything is run or listed, and says how each of
them ends.
-/

namespace FoldTape.CommandLine

/-! ## §1 Exits and breakdowns -/

/-- An exit code, and what has been written to standard output and to the error stream. -/
structure Exit where
  code : Nat
  stdout : List UInt8
  stderr : String
  deriving DecidableEq, Repr

/-- Why the command line breaks down. -/
inductive Breakdown where
  /-- A number that was left blank had to be compared with another one. -/
  | blankNumber
  /-- The policy at the end of the input was left blank and a machine had to be made. -/
  | blankEndPolicy
  /-- The path of the file holds the character NUL. -/
  | nulInPath
  deriving DecidableEq, Repr

/-- What is said about a breakdown. A value that was left blank shows as an empty list. -/
def Breakdown.message : Breakdown → String
  | blankNumber => "'<' not supported between instances of 'list' and 'int'"
  | blankEndPolicy => "[] is not a valid EOFPolicy"
  | nulInPath => FileError.nulInPath.message

/-! ## §2 Reasons for ending early -/

/-- Why the command line ends before anything is run or listed. -/
inductive Quit where
  /-- Help was asked for. -/
  | help
  /-- The arguments are not understood. -/
  | misused (e : UsageError)
  /-- No file was named. -/
  | noFile
  /-- The tape would have no cells. -/
  | tapeTooSmall
  /-- The number of steps is negative. -/
  | negativeLimit
  /-- A number was left blank. -/
  | blankNumber
  /-- The file cannot be read. -/
  | unreadable (e : FileError)
  /-- The brackets of the source do not match. -/
  | unbalanced (d : Diagnostic)
  /-- The policy at the end of the input was left blank, and the file is not just listed. -/
  | blankEndPolicy
  deriving DecidableEq, Repr

/-- The bytes of a text. -/
def bytesOf (text : String) : List UInt8 := text.toUTF8.toList

/-- The line that reports an error. -/
def errorLine (message : String) : String := "error: " ++ message ++ "\n"

/-- How the command line ends for a reason. Only help goes to standard output. -/
def Quit.exit : Quit → Except Breakdown Exit
  | help => .ok ⟨0, bytesOf helpText, ""⟩
  | misused e => .ok ⟨2, [], usageText ++ "bfvm: error: " ++ e.message ++ "\n"⟩
  | noFile => .ok ⟨1, [], usageText⟩
  | tapeTooSmall => .ok ⟨1, [], usageText ++ errorLine "--tape-size must be at least 1"⟩
  | negativeLimit => .ok ⟨1, [], usageText ++ errorLine "--max-steps must be non-negative"⟩
  | blankNumber => .error .blankNumber
  | unreadable .nulInPath => .error .nulInPath
  | unreadable e => .ok ⟨1, [], errorLine e.message⟩
  | unbalanced d => .ok ⟨1, [], errorLine d.text⟩
  | blankEndPolicy => .error .blankEndPolicy

end FoldTape.CommandLine
