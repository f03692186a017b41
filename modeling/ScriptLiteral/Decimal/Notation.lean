import ScriptLiteral.Decimal.Basic

/-!
# Decimal notation

A significand is written in one of four shapes. With the point behind the last digit, zeros fill
the place between; with the point among the digits it splits them; with the point before the
first digit, zeros stand between the two; and when the point lies too far off on either side,
one digit stands before it and a power of ten after the letter `e`.

A `Layout` says how far the point may lie off before the last shape is taken and whether an
integer keeps a fraction digit. The library uses two: `Layout.script`, in which scripts print
their numbers, and `Layout.json`.
-/

namespace ScriptLiteral

/-- How a significand is laid out. -/
structure Layout where
  /-- the least place of the point that is written without an exponent -/
  leastPoint : Int
  /-- the greatest place of the point that is written without an exponent -/
  greatestPoint : Int
  /-- whether an integer written without an exponent ends in `.0` -/
  keepsFraction : Bool
deriving DecidableEq, Repr

/-- Numbers as scripts print them: without an exponent from `1e-6` up to below `1e21`. -/
def Layout.script : Layout := ⟨-5, 21, false⟩

/-- Numbers in a JSON text: without an exponent from `1e-5` up to below `1e16`, and then with at
least one fraction digit. -/
def Layout.json : Layout := ⟨-4, 16, true⟩

namespace Significand

/-- A run of zeros. -/
def zeros (n : Nat) : List Char := List.replicate n '0'

/-- The power of ten at the end of a number, with its sign always written. -/
def exponentPart (e : Int) : List Char :=
  'e' :: (if e < 0 then '-' else '+') :: (toDigits e.natAbs).map digitChar

/-- The first digit, the other digits after a point, and the power of ten. -/
def scientific (s : Significand) : List Char :=
  match s.digits.map digitChar with
  | [] => exponentPart (s.point - 1)
  | [c] => c :: exponentPart (s.point - 1)
  | c :: cs => c :: '.' :: cs ++ exponentPart (s.point - 1)

/-- The digits around the point, with zeros where digits are missing. -/
def positional (keepsFraction : Bool) (s : Significand) : List Char :=
  let cs := s.digits.map digitChar
  if s.point ≤ 0 then '0' :: '.' :: zeros s.point.natAbs ++ cs
  else
    let n := s.point.toNat
    if cs.length ≤ n then cs ++ zeros (n - cs.length) ++ (if keepsFraction then ['.', '0'] else [])
    else cs.take n ++ '.' :: cs.drop n

/-- The text of a significand in a layout. -/
def write (l : Layout) (s : Significand) : List Char :=
  if l.leastPoint ≤ s.point ∧ s.point ≤ l.greatestPoint then s.positional l.keepsFraction
  else s.scientific

end Significand

end ScriptLiteral
