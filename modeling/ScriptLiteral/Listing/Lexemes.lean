import ScriptLiteral.Listing.Failure
import ScriptLiteral.Text.Ranges

/-!
# Lexemes from a file

A file of lexemes holds one on each line. Carriage returns at the end of a line do not belong to
it, and lines of nothing but white space are passed over. White space is the property
White_Space, so a mark without width, such as U+FEFF, makes its line a lexeme.
-/

namespace ScriptLiteral

/-- The parts of a text between its line feeds. -/
def splitLines : List Char → List (List Char)
  | [] => [[]]
  | c :: cs =>
    if c = '\n' then [] :: splitLines cs
    else
      match splitLines cs with
      | [] => [[c]]
      | line :: lines => (c :: line) :: lines

/-- A line without the carriage returns at its end. -/
def trimReturns (line : List Char) : List Char := (line.reverse.dropWhile (· = '\r')).reverse

/-- Whether a line holds nothing but white space. -/
def isBlank (line : List Char) : Bool := line.all isWhiteSpace

/-- The lexemes of a text. -/
def lexemesOf (text : List Char) : List (List Char) :=
  ((splitLines text).map trimReturns).filter (!isBlank ·)

/-- The lexemes of a file, given what reading it came to. -/
def lexemesOfContent : Except Reason ByteArray → Except Failure (List String)
  | .error reason => .error (.transfer reason)
  | .ok bytes =>
    match String.fromUTF8? bytes with
    | some text => .ok ((lexemesOf text.toList).map String.ofList)
    | none => .error (.transfer .notText)

end ScriptLiteral
