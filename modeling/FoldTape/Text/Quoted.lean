import FoldTape.Text.Printable

/-!
# Quoted texts

How a text is shown inside a message: between quotes, on one line, with everything escaped
that could not be told apart on paper. Apostrophes are the quotes, except around a text that
holds an apostrophe and no double quote. The quote in use, the backslash, and the three common
layout characters have two-character escapes; other unprintable characters are written with
their code point in two, four or eight hexadecimal digits.
-/

namespace FoldTape

/-- The quote that a text is shown with. -/
def quoteOf (text : List Char) : Char :=
  if text.contains '\x27' && !text.contains '\x22' then '\x22' else '\x27'

/-- A code point in hexadecimal, filled up with zeros. -/
def hexadecimal (width n : Nat) : List Char := (Nat.toDigits 16 n).leftpad width '0'

/-- A character as it is shown between quotes. -/
def escapeChar (quote c : Char) : List Char :=
  if c = quote ∨ c = '\\' then ['\\', c]
  else if c = '\n' then ['\\', 'n']
  else if c = '\r' then ['\\', 'r']
  else if c = '\t' then ['\\', 't']
  else if isPrintable c then [c]
  else if c.toNat < 0x100 then '\\' :: 'x' :: hexadecimal 2 c.toNat
  else if c.toNat < 0x10000 then '\\' :: 'u' :: hexadecimal 4 c.toNat
  else '\\' :: 'U' :: hexadecimal 8 c.toNat

/-- A text between quotes. -/
def quoted (text : String) : String :=
  let quote := quoteOf text.toList
  String.ofList (quote :: (text.toList.flatMap (escapeChar quote) ++ [quote]))

end FoldTape
