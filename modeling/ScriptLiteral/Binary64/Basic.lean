/-!
# Double-precision numbers

A `Binary64` is a number in the 64-bit binary format: a sign and a *magnitude*, the other 63
bits read as one natural number. Magnitudes are in the order of the values they stand for, so
the successor of a finite magnitude is the next larger number, and the magnitude above the
greatest finite one is infinity. All magnitudes above that are not numbers.

Every finite value is a multiple of the least positive one, `2 ^ -1074`. `quanta` counts how
many times it holds that quantum, so that statements about values are statements about natural
numbers.
-/

namespace ScriptLiteral

-- powers of natural numbers are those of the core library, whatever else is imported
attribute [local instance (high)] instPowNat

/-- A number in the 64-bit binary format. -/
@[ext] structure Binary64 where
  /-- the sign bit -/
  negative : Bool
  /-- the exponent field and the fraction field, as one number -/
  magnitude : Nat
  /-- the two fields together have 63 bits -/
  magnitude_lt : magnitude < 2 ^ (63 : Nat)
deriving DecidableEq

namespace Binary64

/-- The magnitude of infinity, the least above the finite ones. -/
def infiniteMagnitude : Nat := 2047 * 2 ^ (52 : Nat)

/-! ## Bits -/

/-- The number with the given bit pattern. -/
def ofBits (bits : UInt64) : Binary64 where
  negative := 2 ^ (63 : Nat) ≤ bits.toNat
  magnitude := bits.toNat % 2 ^ (63 : Nat)
  magnitude_lt := Nat.mod_lt _ (by decide)

/-- The bit pattern of a number. -/
def toBits (x : Binary64) : UInt64 :=
  UInt64.ofNat ((if x.negative then 2 ^ (63 : Nat) else 0) + x.magnitude)

theorem ofBits_toBits (x : Binary64) : ofBits x.toBits = x := by
  have h := x.magnitude_lt
  have hn : x.toBits.toNat = (if x.negative then 2 ^ (63 : Nat) else 0) + x.magnitude := by
    rw [toBits, UInt64.toNat_ofNat']
    exact Nat.mod_eq_of_lt (by split <;> omega)
  ext
  · simp only [ofBits, hn]
    cases hneg : x.negative
    · simp; omega
    · simp
  · simp only [ofBits, hn]
    split <;> omega

theorem toBits_ofBits (bits : UInt64) : (ofBits bits).toBits = bits := by
  have h := bits.toNat_lt
  apply UInt64.toNat.inj
  rw [toBits, UInt64.toNat_ofNat']
  simp only [ofBits, decide_eq_true_eq]
  split <;> omega

/-! ## Kinds of numbers -/

/-- Whether the pattern stands for no number. -/
def isNaN (x : Binary64) : Bool := infiniteMagnitude < x.magnitude

/-- Whether the number is one of the two infinities. -/
def isInfinite (x : Binary64) : Bool := x.magnitude = infiniteMagnitude

/-- Whether the number is neither infinite nor no number. -/
def isFinite (x : Binary64) : Bool := x.magnitude < infiniteMagnitude

/-- Whether the number is one of the two zeros. -/
def isZero (x : Binary64) : Bool := x.magnitude = 0

/-- The number that stands for the failure to be one: positive, with only the first fraction bit
set. -/
def nan : Binary64 := ⟨false, infiniteMagnitude + 2 ^ (51 : Nat), by decide⟩

/-- The nonnegative number of the given magnitude; magnitudes above infinity are cut down to it. -/
def ofMagnitude (m : Nat) : Binary64 where
  negative := false
  magnitude := min m infiniteMagnitude
  magnitude_lt := Nat.lt_of_le_of_lt (Nat.min_le_right _ _) (by decide)

/-- Whether two values are the same: all patterns that are no number count as one, and the two
zeros differ. -/
def same (x y : Binary64) : Bool :=
  x.isNaN && y.isNaN || x == y

/-! ## Exact values -/

/-- The value of a finite magnitude, in multiples of `2 ^ -1074`. Magnitudes below `2 ^ 52`
count the quanta themselves; each further `2 ^ 52` doubles the step. -/
def quanta (m : Nat) : Nat :=
  if m < 2 ^ (52 : Nat) then m
  else (2 ^ (52 : Nat) + m % 2 ^ (52 : Nat)) * 2 ^ (m / 2 ^ (52 : Nat) - 1)

end Binary64

end ScriptLiteral
