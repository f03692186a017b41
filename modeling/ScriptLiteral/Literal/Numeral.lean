import ScriptLiteral.Binary64.Rounding
import ScriptLiteral.Log

/-!
# Numeric literals

A numeral is written in base ten, with a fraction and an exponent if need be, or as a natural
number in one of the bases sixteen, eight and two, which a mark after a leading zero tells.
Separators may stand anywhere and are left out before all else. The value is the double nearest
to the number that the digits denote. A text that is no numeral has the value that is not a
number, and a warning says so.
-/

namespace ScriptLiteral

/-- The bases other than ten in which a numeral may be written. -/
inductive Radix
  /-- base sixteen -/
  | hexadecimal
  /-- base eight -/
  | octal
  /-- base two -/
  | binary
deriving DecidableEq

namespace Radix

/-- The base as a number. -/
def base : Radix → Nat
  | hexadecimal => 16
  | octal => 8
  | binary => 2

/-- The base that a letter after a leading zero tells, in either case. -/
def ofMark? (c : Char) : Option Radix :=
  if c = 'x' ∨ c = 'X' then some hexadecimal
  else if c = 'o' ∨ c = 'O' then some octal
  else if c = 'b' ∨ c = 'B' then some binary
  else none

end Radix

/-- The natural number that one or more digits of a base denote. -/
def readNatural? (base : Nat) (cs : List Char) : Option Nat :=
  if cs.isEmpty then none else (digits? base cs).map ofDigits

/-- Splits the mark of a base other than ten from the digits after it. -/
def splitRadix? : List Char → Option (Radix × List Char)
  | '0' :: c :: cs => (Radix.ofMark? c).map (·, cs)
  | _ => none

/-- The value of a numeral without separators. -/
def numeralValue? (cs : List Char) : Option Binary64 :=
  match splitRadix? cs with
  | some (radix, ds) => (readNatural? radix.base ds).map Binary64.ofNat
  | none => (Decimal.read? cs).map Binary64.ofDecimal

/-- The characters of a text other than separators. -/
def withoutSeparators (text : String) : List Char := text.toList.filter (· ≠ '_')

/-- The number that a numeric literal stands for. -/
def numberValue (text : String) : Logged Binary64 :=
  match numeralValue? (withoutSeparators text) with
  | some x => pure x
  | none => do
    Logged.tell (.notANumber text)
    return .nan

end ScriptLiteral
