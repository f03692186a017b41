import ScriptLiteral.Literal.Numeral
import ScriptLiteral.Literal.Quoted
import ScriptLiteral.Literal.Value

/-!
# Resolving literals

A literal is a lexeme with its kind and its place in the source. To resolve it is to find its
value or the reason for which it has none; the place plays no part in that.
-/

namespace ScriptLiteral

/-- A literal as it stands in the source. -/
@[ext] structure Literal where
  /-- what kind of literal it is -/
  kind : Kind
  /-- the lexeme, quotes included -/
  text : String
  /-- where it stands -/
  span : Span
deriving DecidableEq

/-- What a literal resolves to. -/
abbrev Resolution := Except Fault Value

namespace Resolution

/-- Whether there is a value. -/
def isOk : Resolution → Bool
  | .ok _ => true
  | .error _ => false

/-- Whether two resolutions are the same value or the same fault. -/
def same : Resolution → Resolution → Bool
  | .ok v, .ok w => v.same w
  | .error f, .error g => f == g
  | _, _ => false

end Resolution

/-- The value of a literal, or the fault for which it has none. -/
def Literal.resolve (l : Literal) : Logged Resolution :=
  match l.kind with
  | .null => pure (.ok .null)
  | .number => return .ok (.number (← numberValue l.text))
  | .string => return (← stringValue l.text).map .string
  | .regularExpression | .template => do
    Logged.tell (.noValue l.kind l.text)
    return .error (.unsupported l.kind)

end ScriptLiteral
