import ScriptLiteral.Binary64.Text
import ScriptLiteral.Text.UnitString

/-!
# Values

What a literal stands for: the absent value, a number or a string. A value is displayed as a
script would print it, and written to JSON as the like value there. Unpaired surrogates have no
place in either text and are replaced.
-/

namespace ScriptLiteral

/-- The value of a literal. -/
inductive Value
  /-- the absent value -/
  | null
  /-- a number -/
  | number (x : Binary64)
  /-- a string -/
  | string (s : UnitString)
deriving DecidableEq

namespace Value

/-- The name of the type that a script finds the value to have. -/
def typeName : Value → String
  | null => "object"
  | number _ => "number"
  | string _ => "string"

/-- Whether this is the absent value. -/
def isNull : Value → Bool
  | null => true
  | _ => false

/-- Whether two values are the same; see `Binary64.same` for numbers. -/
def same : Value → Value → Bool
  | null, null => true
  | number x, number y => x.same y
  | string s, string t => s == t
  | _, _ => false

/-- The value as a script prints it. -/
def display : Value → String
  | null => "null"
  | number x => x.text
  | string s => s.display

/-- The value as a JSON text. -/
def json : Value → String
  | null => "null"
  | number x => x.json
  | string s => Json.quote s.lossy

end Value

end ScriptLiteral
