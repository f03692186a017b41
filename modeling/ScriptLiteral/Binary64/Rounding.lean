import ScriptLiteral.Binary64.Basic
import ScriptLiteral.Decimal.Basic

/-!
# Rounding to the nearest double

A value between two neighbours of the format goes to the nearer one, and a value half-way to the
one whose fraction is even. Values from half a step above the greatest finite number on go to
infinity; values up to half the least positive number go to zero.

The value comes as a fraction of natural numbers that counts quanta of `2 ^ -1074`, so the only
inexact step is one division, `divNearest`. The step between neighbours is a power of two,
chosen so that the value holds it fewer than `2 ^ 53` times; from there on the count of steps
and the exponent add up to the magnitude, also where rounding up carries into the next power of
two.
-/

namespace ScriptLiteral

/-- The natural number nearest to the fraction `n / d`, an even one if it lies half-way between
two. -/
def divNearest (n d : Nat) : Nat :=
  if 2 * (n % d) < d then n / d
  else if d < 2 * (n % d) then n / d + 1
  else n / d + n / d % 2

namespace Binary64

-- powers of natural numbers are those of the core library, whatever else is imported
attribute [local instance (high)] instPowNat

/-- The magnitude nearest to `n / d` quanta. -/
def nearest (n d : Nat) : Nat :=
  let step := (n / d).log2 - 52
  min (step * 2 ^ (52 : Nat) + divNearest n (d * 2 ^ step)) infiniteMagnitude

/-- The number of quanta in one. -/
def quantaPerUnit : Nat := 2 ^ (1074 : Nat)

/-- The double nearest to a natural number. -/
def ofNat (n : Nat) : Binary64 :=
  ofMagnitude (nearest (n * quantaPerUnit) 1)

/-- The magnitude nearest to a decimal. The place of its first digit settles the matter far
outside the range of the format, so an exponent of any size is read at once. -/
def decimalMagnitude (d : Decimal) : Nat :=
  let place := decimalLength d.coefficient + d.exponent
  if d.coefficient = 0 ∨ place < -330 then 0
  else if 310 < place then infiniteMagnitude
  else
    match d.exponent with
    | .ofNat e => nearest (d.coefficient * 10 ^ e * quantaPerUnit) 1
    | .negSucc e => nearest (d.coefficient * quantaPerUnit) (10 ^ (e + 1))

/-- The double nearest to a decimal. -/
def ofDecimal (d : Decimal) : Binary64 :=
  ofMagnitude (decimalMagnitude d)

end Binary64

end ScriptLiteral
