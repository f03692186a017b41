import ScriptLiteral.Decimal.Notation
import ScriptLiteral.Text.Split

/-!
# Printed numbers

The digits of a number come out of another printer, which lays it out as a JSON text does but writes
no plus sign in front of a power of ten. `Significand.ofPrinted` takes such a text apart: the digits
on both sides of the point without the zeros at either end, and the place of the point, moved by the
power of ten and by the zeros in front.
-/

namespace ScriptLiteral.Significand

-- powers are those of the core library, whatever else is imported
attribute [local instance (high)] instPowNat

/-- The number as the other printer writes it. -/
def plain (s : Significand) : List Char := (s.write .json).filter (· ≠ '+')

/-- A power of ten that fits into 32 bits; if the text is none, the point does not move. -/
def powerOfTen (text : List Char) : Int :=
  match Decimal.readInteger? text with
  | some e => if -2 ^ (31 : Nat) ≤ e ∧ e < 2 ^ (31 : Nat) then e else 0
  | none => 0

/-- The digits and the point of a printed number. -/
def ofPrinted (text : List Char) : Significand :=
  let (mantissa, power) := splitAtFirst 'e' text
  let (whole, fraction) := splitAtFirst '.' mantissa
  let ds := (whole ++ fraction.getD []).filterMap (digit? 10)
  let significant := ds.dropWhile (· = 0)
  let zerosInFront := ds.length - significant.length
  ⟨Decimal.stripZeros significant, whole.length - zerosInFront + (power.map powerOfTen).getD 0⟩

end ScriptLiteral.Significand
