import ScriptLiteral.Text.Digit

/-!
# Decimal numbers

A `Decimal` is a natural number scaled by a power of ten. It is what a decimal numeral denotes
and what a binary number is written from; both directions go through it and neither rounds.

`read?` accepts a numeral without a sign: digits with at most one point among or beside them, at
least one digit in all, then at most one exponent with at least one digit. `significand` brings
a decimal to the normal form from which it is laid out: digits without a zero at either end, and
the place of the point.
-/

namespace ScriptLiteral

/-- The number `coefficient · 10 ^ exponent`. -/
@[ext] structure Decimal where
  /-- the digits, as one natural number -/
  coefficient : Nat
  /-- the power of ten by which they are scaled -/
  exponent : Int
deriving DecidableEq, Repr

/-- The number `0.digits · 10 ^ point`. -/
@[ext] structure Significand where
  /-- the digits after the point -/
  digits : List (Fin 10)
  /-- how many places the point moves to the right -/
  point : Int
deriving DecidableEq, Repr

namespace Decimal

/-! ## Reading a numeral -/

/-- Reads an integer with an optional sign and at least one digit, up to the end of the text. -/
def readInteger? : List Char → Option Int
  | '+' :: cs => natural? cs
  | '-' :: cs => (natural? cs).map (-·)
  | cs => natural? cs
where
  /-- Reads digits up to the end of the text. -/
  natural? (cs : List Char) : Option Int :=
    match spanDigits cs with
    | ([], _) => none
    | (ds, []) => some (ofDigits ds)
    | (_, _ :: _) => none

/-- Reads the exponent that ends a numeral: nothing, or `e` in either case and an integer. -/
def readExponent? : List Char → Option Int
  | [] => some 0
  | c :: cs => if c = 'e' ∨ c = 'E' then readInteger? cs else none

/-- The digits after the point, if the text has a point, and the text after them. -/
def spanFraction : List Char → List (Fin 10) × List Char
  | '.' :: cs => spanDigits cs
  | cs => ([], cs)

/-- The decimal that a numeral denotes, or `none` if the text is no numeral. -/
def read? (text : List Char) : Option Decimal :=
  let (whole, rest) := spanDigits text
  let (fraction, rest) := spanFraction rest
  if whole.isEmpty && fraction.isEmpty then none
  else (readExponent? rest).map fun e => ⟨ofDigits (whole ++ fraction), e - fraction.length⟩

/-! ## Normal form -/

/-- The digits with the zeros at the end left out. -/
def stripZeros (ds : List (Fin 10)) : List (Fin 10) :=
  (ds.reverse.dropWhile (· = 0)).reverse

/-- The significant digits of a decimal, with a zero at neither end, and the place of the point. -/
def significand (d : Decimal) : Significand :=
  let ds := toDigits d.coefficient
  ⟨stripZeros ds, ds.length + d.exponent⟩

end Decimal

end ScriptLiteral
