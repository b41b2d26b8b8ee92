import FoldTape.Proofs.Folding.Invariant
import FoldTape.Proofs.Text.Lines
import FoldTape.Run
import Mathlib.Data.List.Intervals

/-!
# What bracket diagnostics point at

The place in a report is computed from line feeds, and the surroundings from the lines that the
source splits into. Both agree: the character of the source at the blamed position stands in the
line and the column that are named, and the lines around it are shown as they are, each with its
number.

## Architecture

- **§1 Places**: `placeOf_eq` for a text that is cut at the position, and the order of places.
- **§2 Surroundings**: `contextLines_eq`, which lines are shown, and that they can be told apart.
- **§3 Reports**: `diagnostics_point_at_brackets`.
-/

namespace FoldTape

/-! ## §1 Places -/

/-- **The place of a position** is behind the lines that have ended before it. -/
theorem placeOf_eq {text : List Char} {position : Nat} {ended : List (List Char)}
    {last : List Char} (h : LinesUpTo (text.take position) ended last) :
    placeOf text position =
      ⟨ended.length + 1, position - (ended.map fun line => line.length + 1).sum + 1⟩ := by
  simp only [placeOf, h.count_newline, h.takeWhile_reverse, List.length_reverse, h.length_eq,
    Nat.add_sub_cancel]

/-- One place comes before another one: in an earlier line, or in an earlier column of the same
line. -/
def Place.Before (a b : Place) : Prop :=
  a.line < b.line ∨ a.line = b.line ∧ a.column < b.column

/-- **Later positions have later places**, also past the end of the text. -/
theorem placeOf_before (text : List Char) {p q : Nat} (h : p < q) :
    (placeOf text p).Before (placeOf text q) := by
  obtain ⟨k, rfl⟩ := Nat.exists_eq_add_of_lt h
  obtain ⟨ended, last, hbefore⟩ := exists_linesUpTo (text.take p)
  have htake : text.take (p + k + 1) = text.take p ++ (text.drop p).take (k + 1) := by
    rw [Nat.add_assoc, List.take_add]
  by_cases hmore : '\n' ∈ (text.drop p).take (k + 1)
  · -- A line feed in between: there is one line more at least.
    left
    show (text.take p).count '\n' + 1 < (text.take (p + k + 1)).count '\n' + 1
    have hcount := List.count_pos_iff.mpr hmore
    rw [htake, List.count_append]
    omega
  · -- None: the same line begins at the same position.
    right
    have hafter := hbefore.append hmore
    rw [← htake] at hafter
    rw [placeOf_eq hbefore, placeOf_eq hafter]
    refine ⟨rfl, ?_⟩
    have hstart : (ended.map fun line => line.length + 1).sum ≤ p := by
      have hlength := hbefore.length_eq
      have htaken : (text.take p).length ≤ p := List.length_take_le p text
      omega
    show p - _ + 1 < p + k + 1 - _ + 1
    omega

/-- **A character stands where its place says**, unless it ends a line; and the place counts all
that stands before it. -/
theorem exists_line_of_placeOf {text : List Char} {position : Nat} {c : Char}
    (hc : text[position]? = some c) (hline : c ≠ '\n') :
    (∃ found, (splitLines text)[(placeOf text position).line - 1]? = some found ∧
      found[(placeOf text position).column - 1]? = some c) ∧
    position = (((splitLines text).take ((placeOf text position).line - 1)).map
      fun line => line.length + 1).sum + ((placeOf text position).column - 1) := by
  obtain ⟨hlt, hget⟩ := List.getElem?_eq_some_iff.mp hc
  obtain ⟨ended, last, hbefore⟩ := exists_linesUpTo (text.take position)
  have hlength := hbefore.length_eq
  rw [List.length_take_of_le (Nat.le_of_lt hlt)] at hlength
  -- The text goes on with the character, which belongs to the line that has not ended.
  have hsplit := hbefore.splitLines_append (text.drop position)
  rw [List.take_append_drop, List.drop_eq_getElem_cons hlt, hget, List.append_cons] at hsplit
  obtain ⟨rest, lines, hlast⟩ := exists_splitLines_append
    (hbefore.append (List.mem_singleton.not.mpr hline.symm)).notMem_last (text.drop (position + 1))
  rw [hlast] at hsplit
  have hcolumn : position - (ended.map fun line => line.length + 1).sum = last.length := by omega
  rw [placeOf_eq hbefore, hsplit]
  simp only [Nat.add_sub_cancel, hcolumn]
  refine ⟨⟨last ++ [c] ++ rest, by simp, by simp⟩, ?_⟩
  rw [List.take_left]
  exact hlength

/-! ## §2 Surroundings -/

/-- Lines with their numbers, as a map from the numbers. -/
theorem zipIdx_one_eq (lines : List (List Char)) :
    lines.zipIdx 1 =
      (List.Ico 1 (lines.length + 1)).map fun number => (lines.getD (number - 1) [], number) := by
  refine List.ext_getElem (by simp) ?_
  intro i hi _
  rw [List.length_zipIdx] at hi
  simp [List.Ico, hi, Nat.add_comm]

/-- **The lines that are shown** are those from `radius` lines before to `radius` lines after, as
far as there are such lines. -/
theorem contextLines_eq (lines : List (List Char)) {line : Nat} (hline : 1 ≤ line) (radius : Nat) :
    contextLines lines line radius =
      (List.Ico (max 1 (line - radius)) (min lines.length (line + radius) + 1)).map
        fun number => contextLine line number (lines.getD (number - 1) []) := by
  have hfocus : max 1 (line : Int) = line := by omega
  -- To be near is to be in two intervals of numbers.
  have hnear : ∀ number : Nat,
      decide ((line : Int) - radius ≤ number ∧ (number : Int) ≤ line + radius) =
        (decide (line - radius ≤ number) && decide (number < line + radius + 1)) := by
    intro number
    rw [← Bool.decide_and, decide_eq_decide]
    omega
  have hend : min (lines.length + 1) (line + radius + 1) =
      min lines.length (line + radius) + 1 := by
    omega
  simp only [contextLines, hfocus, zipIdx_one_eq, List.filter_map, Function.comp_def, hnear,
    List.map_map]
  rw [← List.filter_filter, List.Ico.filter_lt, List.Ico.filter_le, hend]

/-- There is no line feed in a line with its number, if there is none in the line. -/
theorem newline_notMem_contextLine {line : List Char} (h : '\n' ∉ line) (focus : Int)
    (number : Nat) : '\n' ∉ contextLine focus number line := by
  have hcolumn : '\n' ∉ decimalColumn 4 number := by
    rw [decimalColumn, List.leftpad, List.mem_append, not_or]
    refine ⟨fun hpad => absurd (List.eq_of_mem_replicate hpad) (by decide), fun hdigit => ?_⟩
    exact absurd (Nat.isDigit_of_mem_toDigits (by decide) (by decide) hdigit) (by decide)
  rw [contextLine]
  split <;> simp [hcolumn, h]

/-- **The surroundings split** into what has been put together, since no line breaks in two. -/
theorem splitLines_contextText {lines : List (List Char)} (hlines : ∀ line ∈ lines, '\n' ∉ line)
    {line : Nat} (hline : 1 ≤ line) (hle : line ≤ lines.length) (radius : Nat) :
    splitLines (contextText lines line radius) = contextLines lines line radius := by
  apply splitLines_joinLines
  · intro entry hentry
    rw [contextLines_eq lines hline] at hentry
    obtain ⟨number, -, rfl⟩ := List.mem_map.mp hentry
    apply newline_notMem_contextLine
    rw [List.getD_eq_getElem?_getD]
    cases hget : lines[number - 1]? with
    | none => exact List.not_mem_nil
    | some line => exact hlines line (List.mem_of_getElem? hget)
  · -- The line itself is shown.
    rw [contextLines_eq lines hline, ne_eq, List.map_eq_nil_iff, List.Ico.eq_empty_iff]
    omega

/-! ## §3 Reports -/

/-- A report points at a bracket of a source and shows the lines around it. -/
structure Diagnostic.PointsAtBracket (source : List Char) (d : Diagnostic) : Prop where
  bracket : source[d.position]? = some '[' ∨ source[d.position]? = some ']'
  /-- Lines and columns count from one. -/
  positive : 1 ≤ d.place.line ∧ 1 ≤ d.place.column
  /-- The bracket stands in this line, in this column. -/
  character : ∃ found, (splitLines source)[d.place.line - 1]? = some found ∧
    found[d.place.column - 1]? = source[d.position]?
  /-- The position counts the lines before, each with its line feed, and the columns before. -/
  position_eq : d.position = (((splitLines source).take (d.place.line - 1)).map
    fun line => line.length + 1).sum + (d.place.column - 1)
  /-- There is one line of context for every line from two before to two after, in order: a mark if
  it is the line of the bracket, and a blank otherwise, its number, and the line as it is. -/
  context_eq : splitLines d.context.toList =
    (List.Ico (max 1 (d.place.line - 2))
        (min (splitLines source).length (d.place.line + 2) + 1)).map
      fun number => (if number = d.place.line then '>' else ' ') :: ' ' ::
        ((Nat.toDigits 10 number).leftpad 4 ' ' ++ ' ' :: '|' :: ' ' ::
          (splitLines source).getD (number - 1) [])

/-- A report about a bracket points at it. -/
theorem pointsAtBracket_build (message : List Char) {source : List Char} {position : Nat}
    (h : source[position]? = some '[' ∨ source[position]? = some ']') :
    (Diagnostic.build message source position).PointsAtBracket source := by
  obtain ⟨c, hc, hline⟩ : ∃ c, source[position]? = some c ∧ c ≠ '\n' := by
    rcases h with h | h
    · exact ⟨'[', h, by decide⟩
    · exact ⟨']', h, by decide⟩
  obtain ⟨⟨found, hget, hcharacter⟩, hposition⟩ := exists_line_of_placeOf hc hline
  have hpositive : 1 ≤ (placeOf source position).line := Nat.succ_pos _
  have hle : (placeOf source position).line ≤ (splitLines source).length := by
    have hlt := (List.getElem?_eq_some_iff.mp hget).1
    omega
  refine ⟨h, ⟨hpositive, Nat.succ_pos _⟩, ⟨found, hget, hcharacter.trans hc.symm⟩, hposition, ?_⟩
  have hcontext : (Diagnostic.build message source position).context.toList =
      contextText (splitLines source) (placeOf source position).line (2 : Nat) :=
    String.toList_ofList
  rw [hcontext, splitLines_contextText (fun _ => newline_notMem_of_mem_splitLines) hpositive hle,
    contextLines_eq _ hpositive]
  simp only [contextLine, decimalColumn, Int.natCast_inj]
  rfl

/-- **Bracket diagnostics point at the bracket.** Whenever a source is refused, line and column of
the report are those of the blamed bracket, and the lines around it are shown, each with its number,
the line of the bracket marked. And for every text, later positions have later places. -/
theorem diagnostics_point_at_brackets :
    (∀ (source : List Char) (d : Diagnostic), compileText source = .error d →
      d.PointsAtBracket source) ∧
    ∀ (text : List Char) (p q : Nat), p < q → (placeOf text p).Before (placeOf text q) := by
  refine ⟨?_, fun text p q => placeOf_before text⟩
  intro source d h
  simp only [compileText] at h
  split at h
  · cases h
  · rename_i u hcompile
    cases h
    exact pointsAtBracket_build _ (bracket_of_compile_error hcompile)

/-- The report about a bracket in the second of two lines, and two positions in these. -/
theorem diagnostics_point_at_brackets_second_line :
    ∃ d, compileText ['+', '\n', '-', ']'] = .error d ∧ d.position = 3 ∧ d.place = ⟨2, 2⟩ ∧
      d.PointsAtBracket ['+', '\n', '-', ']'] ∧
      (placeOf ['+', '\n', '-', ']'] 1).Before (placeOf ['+', '\n', '-', ']'] 2) :=
  ⟨_, rfl, rfl, by decide, diagnostics_point_at_brackets.1 _ _ rfl,
    diagnostics_point_at_brackets.2 _ 1 2 (by decide)⟩

end FoldTape
