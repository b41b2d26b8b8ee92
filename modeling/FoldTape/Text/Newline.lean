/-!
# Line ends

Texts come with line ends of three styles: line feed, carriage return, or both in this order.
Reading a text file turns each into one line feed.
-/

namespace FoldTape

/-- Turns the line ends of a text into line feeds, given what has been read before, last
character first, and whether that ended with a carriage return. -/
def unifyLineEndsFrom (afterReturn : Bool) (done : List Char) : List Char → List Char
  | [] => done.reverse
  | c :: rest =>
    if c = '\n' ∧ afterReturn then unifyLineEndsFrom false done rest
    else if c = '\r' then unifyLineEndsFrom true ('\n' :: done) rest
    else unifyLineEndsFrom false (c :: done) rest

/-- A text with each line end turned into a line feed. -/
def unifyLineEnds (text : List Char) : List Char := unifyLineEndsFrom false [] text

/-- Reading on adds no carriage return to what has been read. -/
private theorem return_not_mem_unifyLineEndsFrom {afterReturn : Bool} {done text : List Char}
    (h : '\r' ∉ done) : '\r' ∉ unifyLineEndsFrom afterReturn done text := by
  induction text generalizing afterReturn done with
  | nil => simpa [unifyLineEndsFrom] using h
  | cons c text ih =>
    simp only [unifyLineEndsFrom]
    split
    · exact ih h
    · split
      · exact ih (by simp [h])
      · rename_i other
        exact ih (by simp [h, Ne.symm other])

/-- No carriage return is left. -/
theorem return_not_mem_unifyLineEnds (text : List Char) : '\r' ∉ unifyLineEnds text :=
  return_not_mem_unifyLineEndsFrom (by simp)

end FoldTape
