import ScriptLiteral.Literal.Element
import ScriptLiteral.Log

/-!
# String literals

A string literal is a text in a pair of equal quotes. Its value is found in one pass over the
text between them: `scan` splits that text into elements, and the value is what they contribute,
in order. The first element that cannot be read is the fault of the literal; its offset counts
the bytes of the lexeme, the opening quote included.

A text without a backslash is all plain characters, so its value is taken from it at once.
-/

namespace ScriptLiteral

/-! ## Quotes -/

/-- The text between the quotes of a lexeme, if its first and its last character are the same
quote. -/
def unquote? : List Char → Option (List Char)
  | [] => none
  | q :: cs => if Kind.isQuote q && cs.getLast? == some q then some cs.dropLast else none

/-! ## Elements -/

/-- The fault of a literal with an escape that cannot be read, the backslash at the given
offset. -/
def EscapeFault.at (offset : Nat) : EscapeFault → Fault
  | octal digit => .octalEscape digit offset
  | broken source => .brokenEscape (String.ofList source) offset

/-- Splits a text that starts at the given byte of the lexeme into elements. -/
def scan (offset : Nat) (cs : List Char) : Except Fault (List Element) :=
  match cs with
  | [] => .ok []
  | c :: rest =>
    if c = '\\' then
      match _h : readEscape rest with
      | .ok (e, after) =>
        (scan (offset + byteLength ('\\' :: e.source)) after).map (.escape e :: ·)
      | .error f => .error (f.at offset)
    else (scan (offset + c.utf8Size) rest).map (.raw c :: ·)
termination_by cs.length
decreasing_by
  · have := length_lt_of_readEscape ‹_›
    simp only [List.length_cons]
    omega
  · simp

/-- The string that elements make up. -/
def unitsOf (es : List Element) : UnitString := ⟨es.flatMap Element.units⟩

/-! ## Values -/

/-- The string that the text between two quotes stands for. -/
def interiorValue (cs : List Char) : Logged (Except Fault UnitString) :=
  if cs.contains '\\' then pure ((scan 1 cs).map unitsOf)
  else do
    Logged.tell (.plainString (byteLength cs))
    return .ok (.ofList cs)

/-- The string that a lexeme stands for. -/
def stringValue (lexeme : String) : Logged (Except Fault UnitString) :=
  match unquote? lexeme.toList with
  | some cs => interiorValue cs
  | none => pure (.error (.unquoted lexeme))

end ScriptLiteral
