/-!
# Lines

A text splits into lines at line feeds and at nothing else; a text without line feed is one
line, and the empty text is one empty line. Joining puts the line feeds back
(`joinLines_splitLines`).
-/

namespace FoldTape

/-- The lines of a text. -/
def splitLines (text : List Char) : List (List Char) :=
  text.foldr
    (fun c lines =>
      if c = '\n' then [] :: lines
      else
        match lines with
        | [] => [[c]]
        | line :: lines => (c :: line) :: lines)
    [[]]

@[simp] theorem splitLines_nil : splitLines [] = [[]] := rfl

theorem splitLines_ne_nil (text : List Char) : splitLines text ≠ [] := by
  cases text with
  | nil => simp
  | cons c text =>
    simp only [splitLines, List.foldr_cons]
    split
    · simp
    · split <;> simp

@[simp] theorem splitLines_newline (text : List Char) :
    splitLines ('\n' :: text) = [] :: splitLines text := rfl

theorem splitLines_cons {c : Char} (hc : c ≠ '\n') {text line : List Char}
    {lines : List (List Char)} (h : splitLines text = line :: lines) :
    splitLines (c :: text) = (c :: line) :: lines := by
  simp only [splitLines] at h
  simp only [splitLines, List.foldr_cons, if_neg hc, h]

/-- The text with given lines. -/
def joinLines (lines : List (List Char)) : List Char :=
  List.intercalate ['\n'] lines

theorem joinLines_cons_cons (line next : List Char) (lines : List (List Char)) :
    joinLines (line :: next :: lines) = line ++ '\n' :: joinLines (next :: lines) := by
  simp [joinLines, List.intercalate]

/-- **Joining restores the text**: splitting loses nothing. -/
theorem joinLines_splitLines (text : List Char) : joinLines (splitLines text) = text := by
  induction text with
  | nil => rfl
  | cons c text ih =>
    match h : splitLines text with
    | [] => exact absurd h (splitLines_ne_nil text)
    | line :: lines =>
      rw [h] at ih
      by_cases hc : c = '\n'
      · subst hc
        rw [splitLines_newline, h, joinLines_cons_cons, ih]
        rfl
      · rw [splitLines_cons hc h]
        cases lines with
        | nil => simpa [joinLines, List.intercalate] using ih
        | cons next lines =>
          rw [joinLines_cons_cons] at ih ⊢
          rw [← ih]
          rfl

end FoldTape
