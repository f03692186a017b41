import ScriptLiteral.Binary64.Basic
import Mathlib.Algebra.Order.Field.Rat
import Mathlib.Algebra.Ring.Parity
import Mathlib.Order.Monotone.Basic
import Mathlib.Tactic.FieldSimp
import Mathlib.Tactic.Linarith
import Mathlib.Tactic.NormNum
import Mathlib.Tactic.Positivity
import Mathlib.Tactic.Ring

/-!
# The value of a double, and the nearest double

The value of a finite double is a rational number: an integer significand below `2 ^ 53`, scaled
by a power of two, with a sign. `IsNearest` says of a double that it is the one to which a
nonnegative rational rounds: no finite double is nearer, one that is as near has an odd
significand where this one is even, and from half a step above the greatest finite double on it
is infinity. Nothing is computed there, and `IsNearest.unique` shows that it leaves no choice.

Proofs about nearest doubles are carried out in quanta of `2 ^ -1074`, in which every value is a
natural number. A magnitude is `s · 2 ^ 52 + k` for a count `k` of steps of `2 ^ s` quanta
(`exists_step`), so that `quanta` is strictly monotone and a comparison of values is one of
magnitudes.
-/

namespace ScriptLiteral.Binary64

/-! ## Quanta -/

section Quanta

variable {m k s : ℕ}

/-- The quanta of a magnitude, by its step. The greatest count of a step is the least count of the
next one, and both give the same number. -/
theorem quanta_step (hk : k ≤ 2 ^ 53) (h : s = 0 ∨ 2 ^ 52 ≤ k) :
    quanta (s * 2 ^ 52 + k) = k * 2 ^ s := by
  unfold quanta
  by_cases hlt : k < 2 ^ 52
  · obtain rfl : s = 0 := by omega
    rw [if_pos (by omega)]
    omega
  · rw [if_neg (by omega)]
    by_cases htop : k = 2 ^ 53
    · have hdiv : (s * 2 ^ 52 + k) / 2 ^ 52 - 1 = s + 1 := by omega
      have hmod : (s * 2 ^ 52 + k) % 2 ^ 52 = 0 := by omega
      rw [hdiv, hmod, htop, pow_succ]
      ring
    · have hdiv : (s * 2 ^ 52 + k) / 2 ^ 52 - 1 = s := by omega
      have hmod : 2 ^ 52 + (s * 2 ^ 52 + k) % 2 ^ 52 = k := by omega
      rw [hdiv, hmod]

/-- Every magnitude is a count of steps. -/
theorem exists_step (m : ℕ) :
    ∃ s k, m = s * 2 ^ 52 + k ∧ k < 2 ^ 53 ∧ (s = 0 ∨ 2 ^ 52 ≤ k) :=
  ⟨m / 2 ^ 52 - 1, m - (m / 2 ^ 52 - 1) * 2 ^ 52, by omega, by omega, by omega⟩

/-- The next magnitude is one step more. -/
theorem quanta_lt_succ (m : ℕ) : quanta m < quanta (m + 1) := by
  obtain ⟨s, k, rfl, hk, h⟩ := exists_step m
  rw [quanta_step (by omega) h, Nat.add_assoc, quanta_step (by omega) (by omega)]
  exact Nat.mul_lt_mul_of_pos_right (Nat.lt_succ_self k) (Nat.two_pow_pos s)

theorem quanta_strictMono : StrictMono quanta :=
  strictMono_nat_of_lt_succ quanta_lt_succ

@[simp] theorem quanta_zero : quanta 0 = 0 := rfl

/-- Infinity stands where the next finite value would be. -/
theorem quanta_infiniteMagnitude : quanta infiniteMagnitude = 2 ^ 54 * 2 ^ 2044 := by
  have h : infiniteMagnitude = 2045 * 2 ^ 52 + 2 ^ 53 := rfl
  rw [h, quanta_step (by omega) (by omega), pow_succ 2 2044]
  generalize 2 ^ 2044 = step
  omega

/-- The greatest finite value. -/
theorem quanta_greatest : quanta (infiniteMagnitude - 1) = (2 ^ 54 - 2) * 2 ^ 2044 := by
  have h : infiniteMagnitude - 1 = 2045 * 2 ^ 52 + (2 ^ 53 - 1) := rfl
  rw [h, quanta_step (by omega) (by omega), pow_succ 2 2044]
  generalize 2 ^ 2044 = step
  omega

end Quanta

/-! ## Values -/

/-- The significand of a finite double as an integer: the fraction field, with the leading bit
that is left out of it where the exponent field is not zero. -/
def mantissa (x : Binary64) : ℕ :=
  if x.magnitude / 2 ^ 52 = 0 then x.magnitude % 2 ^ 52 else 2 ^ 52 + x.magnitude % 2 ^ 52

/-- The power of two by which the significand is scaled; an exponent field of zero means the same
as one. -/
def exponent (x : Binary64) : ℤ := max 1 ((x.magnitude / 2 ^ 52 : ℕ) : ℤ) - 1075

/-- The value of a finite double. -/
def value (x : Binary64) : ℚ :=
  (if x.negative then -1 else 1) * (x.mantissa * 2 ^ x.exponent)

/-- The double to which the nonnegative number `v` rounds: to nearest, ties to even. -/
structure IsNearest (v : ℚ) (x : Binary64) : Prop where
  /-- the sign bit is clear -/
  positive : x.negative = false
  /-- large numbers go to infinity -/
  infinite : 2 ^ 1024 - 2 ^ 970 ≤ v → x.isInfinite = true
  /-- all others stay finite -/
  finite : v < 2 ^ 1024 - 2 ^ 970 → x.isFinite = true
  /-- no finite double is nearer -/
  le : v < 2 ^ 1024 - 2 ^ 970 → ∀ y : Binary64, y.isFinite = true →
    |v - x.value| ≤ |v - y.value|
  /-- where another one is as near, the significand is even -/
  even : v < 2 ^ 1024 - 2 ^ 970 → ∀ y : Binary64, y.isFinite = true → y.value ≠ x.value →
    |v - x.value| = |v - y.value| → Even x.mantissa

/-- The significand and the magnitude end in the same bit. -/
theorem even_mantissa_iff (x : Binary64) : Even x.mantissa ↔ Even x.magnitude := by
  rw [Nat.even_iff, Nat.even_iff, mantissa]
  split <;> omega

/-- The value of a double is a whole number of quanta. -/
theorem value_eq (x : Binary64) :
    x.value = (if x.negative then -1 else 1) * (quanta x.magnitude / 2 ^ 1074) := by
  have hscale : (x.mantissa * 2 ^ x.exponent : ℚ) = quanta x.magnitude / 2 ^ 1074 := by
    rw [eq_div_iff (by positivity), mul_assoc, ← zpow_natCast, ← zpow_add₀ two_ne_zero, mantissa,
      exponent, quanta]
    by_cases hm : x.magnitude < 2 ^ 52
    · have hdiv : x.magnitude / 2 ^ 52 = 0 := Nat.div_eq_of_lt hm
      rw [if_pos hdiv, if_pos hm, hdiv, Nat.mod_eq_of_lt hm]
      norm_num
    · have hdiv : x.magnitude / 2 ^ 52 ≠ 0 := by omega
      rw [if_neg hdiv, if_neg hm]
      have hexp : max 1 ((x.magnitude / 2 ^ 52 : ℕ) : ℤ) - 1075 + (1074 : ℕ) =
          ((x.magnitude / 2 ^ 52 - 1 : ℕ) : ℤ) := by omega
      rw [hexp, zpow_natCast]
      push_cast
      ring
  rw [value, hscale]

/-! ## There is one nearest double -/

section Unique

variable {v w : ℚ} {x y : Binary64} {m k : ℕ}

/-- The value of a double with a clear sign bit. -/
theorem value_of_positive (hx : x.negative = false) : x.value = quanta x.magnitude / 2 ^ 1074 := by
  rw [value_eq, hx]
  simp

/-- The value of a double with the sign bit set. -/
theorem value_of_negative (hx : x.negative = true) : x.value = -(quanta x.magnitude / 2 ^ 1074) := by
  rw [value_eq, hx, if_pos rfl, neg_one_mul]

/-- Between two magnitudes that are as far from a number as each other, the numbers are nearer. -/
theorem abs_sub_quanta_lt (hmk : m + 1 < k)
    (h : |w - quanta m| = |w - quanta k|) : |w - quanta (m + 1)| < |w - quanta m| := by
  have h₁ : (quanta m : ℚ) < quanta (m + 1) := by exact_mod_cast quanta_lt_succ m
  have h₂ : (quanta (m + 1) : ℚ) < quanta k := by exact_mod_cast quanta_strictMono hmk
  -- the number is the middle of the two, as they are not equal
  obtain h | h := abs_eq_abs.mp h
  · linarith
  · rw [abs_of_pos (by linarith : 0 < w - quanta m), abs_lt]
    constructor <;> linarith

/-- Distances to values are distances in quanta. -/
theorem abs_sub_quanta_div (v : ℚ) (m : ℕ) :
    |v - quanta m / 2 ^ 1074| = |v * 2 ^ 1074 - quanta m| / 2 ^ 1074 := by
  have hpos : (0 : ℚ) < 2 ^ 1074 := by positivity
  rw [← abs_of_pos hpos, ← abs_div, abs_of_pos hpos, sub_div, mul_div_cancel_right₀ v hpos.ne']

theorem abs_sub_value (hx : x.negative = false) :
    |v - x.value| = |v * 2 ^ 1074 - quanta x.magnitude| / 2 ^ 1074 := by
  rw [value_of_positive hx, abs_sub_quanta_div]

/-- Of two finite doubles that a number rounds to, the first does not lie below the second. -/
theorem IsNearest.not_magnitude_lt (hv : v < 2 ^ 1024 - 2 ^ 970) (hx : IsNearest v x)
    (hy : IsNearest v y) : ¬ x.magnitude < y.magnitude := by
  intro hlt
  have hdist : |v - x.value| = |v - y.value| :=
    le_antisymm (hx.le hv y (hy.finite hv)) (hy.le hv x (hx.finite hv))
  have hne : x.value ≠ y.value := by
    rw [value_of_positive hx.positive, value_of_positive hy.positive, Ne,
      div_left_inj' (by positivity)]
    exact_mod_cast (quanta_strictMono hlt).ne
  have hex := (even_mantissa_iff x).mp (hx.even hv y (hy.finite hv) hne.symm hdist)
  have hey := (even_mantissa_iff y).mp (hy.even hv x (hx.finite hv) hne hdist.symm)
  have hfy : y.magnitude < infiniteMagnitude := of_decide_eq_true (hy.finite hv)
  -- both magnitudes are even, so there is one between them, and its value is nearer
  rw [Nat.even_iff] at hex hey
  have hgap : x.magnitude + 1 < y.magnitude := by omega
  let z : Binary64 := ⟨false, x.magnitude + 1, hgap.trans y.magnitude_lt⟩
  have hfz : z.isFinite = true := decide_eq_true (hgap.trans hfy)
  have hz := hx.le hv z hfz
  rw [abs_sub_value hx.positive, abs_sub_value hy.positive, div_left_inj' (by positivity)] at hdist
  rw [abs_sub_value hx.positive, abs_sub_value (x := z) rfl,
    div_le_div_iff_of_pos_right (by positivity)] at hz
  exact absurd hz (not_le.mpr (abs_sub_quanta_lt hgap hdist))

/-- **The nearest double is unique.** -/
theorem IsNearest.unique (hx : IsNearest v x) (hy : IsNearest v y) : x = y := by
  refine Binary64.ext (hx.positive.trans hy.positive.symm) ?_
  obtain hv | hv := le_or_gt (2 ^ 1024 - 2 ^ 970) v
  · exact (of_decide_eq_true (hx.infinite hv)).trans (of_decide_eq_true (hy.infinite hv)).symm
  · have hxy := hx.not_magnitude_lt hv hy
    have hyx := hy.not_magnitude_lt hv hx
    omega

end Unique

end ScriptLiteral.Binary64
