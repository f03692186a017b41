import ScriptLiteral.Binary64.Rounding

/-!
# The shortest decimal of a double

Many decimals round to the same double. The one it is written as lies on the coarsest grid of
powers of ten that holds any of them, so it has the fewest digits; of several on that grid it is
the one nearest to the exact value, and of two equally near the one whose last digit is even.

A quantum is `2 ^ -1074`, hence `5 ^ 1074` times `10 ^ -1074`, so every finite double is a whole
number of the finest grid that is ever needed. The search goes from the coarse grids to the fine
ones and looks at the two neighbours of the value on each; on the finest grid the value itself
is found.
-/

namespace ScriptLiteral.Binary64

-- powers of natural numbers are those of the core library, whatever else is imported
attribute [local instance (high)] instPowNat

/-- The power of ten below which no grid is needed: the last decimal place of a quantum. -/
def finestPlace : Nat := 1074

/-- The number of times that a quantum holds `10 ^ -1074`. -/
def unitsPerQuantum : Nat := 5 ^ finestPlace

/-- Whether `n` times `10 ^ -1074` rounds to the magnitude. -/
def readsBack (m n : Nat) : Bool :=
  nearest n unitsPerQuantum = m

/-- The multiple of `step` that is to stand for the value `n`: the neighbour of `n` that reads back,
the nearer if both do, and of two equally near the even one. -/
def gridPoint? (reads : Nat → Bool) (n step : Nat) : Option Nat :=
  let below := n / step
  match reads (below * step), reads ((below + 1) * step) with
  | true, true => some (divNearest n step)
  | true, false => some below
  | false, true => some (below + 1)
  | false, false => none

/-- Searches the grids from `10 ^ places` units down to one unit for the value of `n` units. -/
def searchGrids (reads : Nat → Bool) (n : Nat) : Nat → Decimal
  | 0 => ⟨n, -finestPlace⟩
  | places + 1 =>
    match gridPoint? reads n (10 ^ (places + 1)) with
    | some d => ⟨d, (places + 1 : Nat) - finestPlace⟩
    | none => searchGrids reads n places

/-- The shortest decimal that rounds to a finite magnitude, nearest to its value. -/
def shortest (m : Nat) : Decimal :=
  let n := quanta m * unitsPerQuantum
  searchGrids (readsBack m) n (decimalLength n)

end ScriptLiteral.Binary64
