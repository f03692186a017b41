import ScriptLiteral.Binary64.Shortest
import ScriptLiteral.Decimal.Printed
import ScriptLiteral.Json.Quoted

/-!
# Doubles as text

A finite double is written by the digits of its shortest decimal, in the layout of the text it
stands in. For a script the digits are taken from a text in another layout. A script shows
neither the sign of zero nor a fraction of none, while JSON keeps both. JSON has no numbers
beyond the finite ones; the others are written as strings that hold their names.
-/

namespace ScriptLiteral.Binary64

/-- The digits of a finite magnitude other than zero. -/
def significand (m : Nat) : Significand := (shortest m).significand

/-- The text of a magnitude with a sign in front if the number is negative. -/
def withSign (x : Binary64) (text : List Char) : String :=
  String.ofList (if x.negative then '-' :: text else text)

/-- The number as a script prints it. -/
def text (x : Binary64) : String :=
  if x.isNaN then "NaN"
  else if x.isZero then "0"
  else if x.isInfinite then x.withSign "Infinity".toList
  else x.withSign ((Significand.ofPrinted (significand x.magnitude).plain).write .script)

/-- The number as a JSON text. -/
def json (x : Binary64) : String :=
  if x.isFinite then
    if x.isZero then x.withSign "0.0".toList
    else x.withSign ((significand x.magnitude).write .json)
  else Json.quote x.text

end ScriptLiteral.Binary64
