import ScriptLiteral.Text.Combining
import ScriptLiteral.Text.Unassigned
import ScriptLiteral.Text.UnitString

/-!
# Making text visible

A text that is shown to a developer stands in double quotes, with every character that would not
show as itself replaced by an escape: short ones for the quote, the backslash, tab, carriage
return, line feed and NUL, and the code point in braces for other characters that are invisible,
unassigned or combining.

A string of units is shown by its text if it has one. With an unpaired surrogate it has none,
and the list of its units is shown instead.
-/

namespace ScriptLiteral

/-! ## Characters and texts -/

/-- The escape of a character by its code point. -/
def codePointEscape (c : Char) : List Char :=
  '\\' :: 'u' :: '\x7b' :: Nat.toDigits 16 c.toNat ++ ['\x7d']

/-- A character as it is made visible. -/
def visibleChar (c : Char) : List Char :=
  if c = '"' then ['\\', '"']
  else if c = '\\' then ['\\', '\\']
  else if c = '\t' then ['\\', 't']
  else if c = '\r' then ['\\', 'r']
  else if c = '\n' then ['\\', 'n']
  else if c = '\x00' then ['\\', '0']
  else if ' ' ≤ c ∧ c ≤ '~' then [c]
  else if isInvisible c || isUnassigned c || isCombining c then codePointEscape c
  else [c]

/-- A text in quotes, with every character visible. -/
def visible (s : String) : String :=
  String.ofList ('"' :: s.toList.flatMap visibleChar ++ ['"'])

/-! ## Strings of units -/

namespace UnitString

/-- The units as a list of numbers. -/
def unitList (s : UnitString) : String :=
  "[" ++ ", ".intercalate (s.units.map toString) ++ "]"

/-- The units as a list of numbers, each on a line of its own. -/
def indentedUnitList (s : UnitString) : String :=
  "[\n" ++ String.join (s.units.map fun u => s!"        {u},\n") ++ "    ]"

/-- The string on one line, as a developer sees it. -/
def debug (s : UnitString) : String :=
  match s.text? with
  | some t => s!"JsString({visible t})"
  | none => s!"JsString({s.unitList})"

/-- The string over several indented lines, as a developer sees it. -/
def debugIndented (s : UnitString) : String :=
  match s.text? with
  | some t => s!"JsString(\n    {visible t},\n)"
  | none => s!"JsString(\n    {s.indentedUnitList},\n)"

end UnitString

end ScriptLiteral
