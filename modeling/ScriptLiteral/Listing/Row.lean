import ScriptLiteral.Text.Ranges

/-!
# Rows of columns

A row of text in columns of fixed width, counted in characters. A cell that is too wide for its
column is not cut: the row goes on in a new line, indented to where the next column starts. A
column of width zero is unbounded, so nothing is too wide for it; it is meant for the end of a
row. The sign of a width tells the side: in a column of negative width the text stands on the
right.
-/

namespace ScriptLiteral

/-- A run of spaces. -/
def spaces (n : Nat) : List Char := List.replicate n ' '

/-- A text filled up with spaces to a width. A text that is as wide already stays as it is. -/
def justify (text : List Char) (width : Int) : List Char :=
  if width < 0 then spaces (width.natAbs - text.length) ++ text
  else text ++ spaces (width.natAbs - text.length)

/-- Justified text is as wide as its column, or wider if the text alone is. -/
theorem length_justify (text : List Char) (width : Int) :
    (justify text width).length = max text.length width.natAbs := by
  unfold justify spaces
  split <;> simp only [List.length_append, List.length_replicate] <;> omega

/-- A text and the width of the column it stands in. -/
structure Cell where
  /-- the text -/
  text : List Char
  /-- the width, negative for a column whose text stands on the right -/
  width : Int

namespace Cell

/-- A cell as it stands in a row. -/
def justified (c : Cell) : List Char := justify c.text c.width

/-- Whether the text is too wide for its column. -/
def overflows (c : Cell) : Bool := c.width ≠ 0 && c.width.natAbs < c.justified.length

end Cell

/-- The cells of a row whose first cell starts at the given column. -/
def rowFrom (start : Nat) : List Cell → List Char
  | [] => []
  | c :: cs =>
    let next := start + c.width.natAbs
    c.justified ++ (if c.overflows then '\n' :: spaces next else []) ++ rowFrom next cs

/-- A row of cells. -/
def row (cells : List Cell) : List Char := rowFrom 0 cells

/-- A text without the white space at its end. -/
def trimEnd (text : List Char) : List Char := (text.reverse.dropWhile isWhiteSpace).reverse

end ScriptLiteral
