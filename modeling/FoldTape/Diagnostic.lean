import FoldTape.Folding
import FoldTape.Text.Lines

/-!
# Bracket diagnostics

What is reported about a source whose brackets do not match: the place of the bracket to blame
as a line and a column, the lines around it, and a hint at the remedy.

Positions count characters from zero; lines and columns count from one. Only a line feed ends
a line.
-/

namespace FoldTape

/-! ## §1 Places -/

/-- A place in a text, for a reader: line and column, both counted from one. -/
structure Place where
  line : Nat
  column : Nat
  deriving DecidableEq, Repr

/-- The place of a position: one line more than there are line feeds before it, and the
distance from the last of these. A position past the end of the text keeps its distance. -/
def placeOf (text : List Char) (position : Nat) : Place :=
  let before := text.take position
  let lineStart := before.length - (before.reverse.takeWhile (· ≠ '\n')).length
  { line := before.count '\n' + 1
    column := position - lineStart + 1 }

/-! ## §2 Surroundings of a line -/

/-- One line with its number; the line in focus is marked. -/
def contextLine (focus : Int) (number : Nat) (line : List Char) : List Char :=
  (if (number : Int) = focus then '>' else ' ') :: ' ' ::
    (decimalColumn 4 number ++ ' ' :: '|' :: ' ' :: line)

/-- The numbered lines at a distance of at most `radius` from a line. A line number below one
stands for the first line. -/
def contextLines (lines : List (List Char)) (line : Int) (radius : Int) : List (List Char) :=
  let focus := max 1 line
  let near := (lines.zipIdx 1).filter fun (_, number) =>
    focus - radius ≤ (number : Int) ∧ (number : Int) ≤ focus + radius
  near.map fun (line, number) => contextLine focus number line

/-- The surroundings of a line as a text. -/
def contextText (lines : List (List Char)) (line : Int) (radius : Int) : List Char :=
  joinLines (contextLines lines line radius)

/-! ## §3 Hints -/

/-- Whether a phrase occurs in a text. -/
def mentions (phrase : List Char) : List Char → Bool
  | [] => phrase.isEmpty
  | c :: rest => phrase.isPrefixOf (c :: rest) || mentions phrase rest

/-- What to do about an imbalance. -/
def Imbalance.hint : Imbalance → String
  | .unmatchedClosing =>
    "Every \"]\" needs an earlier \"[\" to close. Remove the extra \"]\" or add the missing \"[\"."
  | .unmatchedOpening => "The loop opened here is never closed. Add the missing \"]\"."

/-- The words by which a message is recognised as being about an imbalance. -/
def Imbalance.phrase : Imbalance → String
  | .unmatchedClosing => "unmatched closing"
  | .unmatchedOpening => "unmatched opening"

/-- The imbalance a message is about, in capital or small letters. No letter of the phrases has
a capital outside ASCII, so only ASCII letters are made small. -/
def imbalanceOf? (message : List Char) : Option Imbalance :=
  let message := message.map Char.toLower
  [Imbalance.unmatchedClosing, .unmatchedOpening].find? fun i =>
    mentions i.phrase.toList message

/-- The hint that goes with a message, if it is about an imbalance. -/
def hintFor? (message : List Char) : Option String :=
  (imbalanceOf? message).map Imbalance.hint

/-! ## §4 The report -/

/-- A report about a bracket of a source. -/
structure Diagnostic where
  /-- The whole report: message, place, surroundings, hint. -/
  text : String
  position : Nat
  place : Place
  context : String
  deriving DecidableEq, Repr

/-- How many lines before and after the blamed line a report shows. -/
def Diagnostic.radius : Int := 2

/-- The report of a message about the character at a position of a source. -/
def Diagnostic.build (message source : List Char) (position : Nat) : Diagnostic :=
  let place := placeOf source position
  let context := String.ofList (contextText (splitLines source) place.line radius)
  let headline := "UnbalancedLoopError: " ++ String.ofList message ++
    " (line " ++ decimalText place.line ++ ", column " ++ decimalText place.column ++ ")\n"
  let hint :=
    match hintFor? message with
    | some hint => "\nHint: " ++ hint
    | none => ""
  { text := headline ++ context ++ hint, position, place, context }

/-- What is said about an imbalance. -/
def Imbalance.message (i : Imbalance) : String := i.phrase ++ " bracket"

/-- The report about a source whose brackets do not match. -/
def Unbalanced.diagnostic (u : Unbalanced) (source : List Char) : Diagnostic :=
  Diagnostic.build u.imbalance.message.toList source u.position

end FoldTape
