/-!
# JSON text

A JSON string stands in double quotes. Inside, the quote, the backslash and the characters below
U+0020 are escaped, five of the latter by a letter and the others by four hexadecimal digits;
all else is written as it is. An object is written without white space, its members in the order
given.
-/

namespace ScriptLiteral

namespace Json

/-- A lower-case hexadecimal digit. -/
def hexChar (n : Nat) : Char :=
  if n < 10 then Char.ofNat ('0'.toNat + n) else Char.ofNat ('a'.toNat + (n - 10))

/-- A character as it stands inside a JSON string. -/
def escapeChar (c : Char) : List Char :=
  if c = '"' then ['\\', '"']
  else if c = '\\' then ['\\', '\\']
  else if c = '\x08' then ['\\', 'b']
  else if c = '\t' then ['\\', 't']
  else if c = '\n' then ['\\', 'n']
  else if c = '\x0c' then ['\\', 'f']
  else if c = '\r' then ['\\', 'r']
  else if c.toNat < 0x20 then ['\\', 'u', '0', '0', hexChar (c.toNat / 16), hexChar (c.toNat % 16)]
  else [c]

/-- A list of characters as a JSON string. -/
def quoteChars (cs : List Char) : List Char :=
  '"' :: cs.flatMap escapeChar ++ ['"']

/-- A text as a JSON string. -/
def quote (s : String) : String :=
  String.ofList (quoteChars s.toList)

/-- A member of an object: its name and the JSON text of its value. -/
structure Member where
  /-- the name, before quoting -/
  name : String
  /-- the value, a JSON text -/
  value : String

/-- A member as it stands in an object. -/
def Member.text (m : Member) : String := quote m.name ++ ":" ++ m.value

/-- A JSON object. -/
def object (members : List Member) : String :=
  "\x7b" ++ ",".intercalate (members.map Member.text) ++ "\x7d"

end Json

end ScriptLiteral
