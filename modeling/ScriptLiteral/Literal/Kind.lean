import ScriptLiteral.Json.Quoted

/-!
# Kinds of literals

The five kinds of literal tokens, their names, and the guess at the kind of a lexeme from its
first character.
-/

namespace ScriptLiteral

/-- The kind of a literal. -/
inductive Kind
  /-- the literal of the absent value -/
  | null
  /-- a numeric literal -/
  | number
  /-- a string literal, in quotes -/
  | string
  /-- a regular expression, between slashes -/
  | regularExpression
  /-- a template, between backquotes -/
  | template
deriving DecidableEq

namespace Kind

/-- All kinds, in order. -/
def all : List Kind := [null, number, string, regularExpression, template]

/-- The name in messages. -/
def name : Kind → String
  | null => "null"
  | number => "number"
  | string => "string"
  | regularExpression => "regular expression"
  | template => "template"

/-- The name in JSON records: one word. -/
def tag : Kind → String
  | null => "null"
  | number => "number"
  | string => "string"
  | regularExpression => "regular_expression"
  | template => "template"

/-- The name in JSON records, as a JSON string. -/
def json (k : Kind) : String := Json.quote k.tag

/-- The kind with the given name in JSON records. -/
def ofTag? (s : String) : Option Kind := all.find? (·.tag = s)

/-- The quotes that may enclose a string literal. -/
def isQuote (c : Char) : Bool := c = '"' || c = '\''

/-- The kind that a lexeme has by its look. What opens like no other kind is taken for a number. -/
def guess (lexeme : String) : Kind :=
  match lexeme.toList with
  | [] => number
  | c :: cs =>
    if isQuote c then string
    else if c = '/' then regularExpression
    else if c = '\x60' then template
    else if c :: cs = ['n', 'u', 'l', 'l'] then null
    else number

end Kind

end ScriptLiteral
