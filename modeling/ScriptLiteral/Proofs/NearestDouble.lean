import ScriptLiteral.Binary64.Rounding
import ScriptLiteral.Proofs.Binary64Value
import ScriptLiteral.Proofs.Digits

/-!
# Rounding gives the nearest double

`Binary64.nearest` divides once. The divisor is chosen so that the quotient counts steps between
neighbouring doubles, and `divNearest` gives the nearest count, an even one of two. That is right
among the multiples of this step (`divNearest_le`), and the doubles that are no multiples of it lie
below the least multiple that has a significand of full length, which is no farther away than
they are. So the magnitude is the nearest of all (`nearestMagnitude`), as long as exponents are
not bounded; where they are, `IsNearest.of_magnitude` reads off which numbers go to infinity.

`ofNat` and `ofDecimal` come down to that: `isNearest_ofNat` and `isNearest_ofDecimal` hold for
natural numbers and decimals of any size.
-/

namespace ScriptLiteral

/-! ## The nearest natural number -/

section DivNearest

variable {n d j : ℕ}

/-- A quotient and the remainder it leaves, as a fraction. -/
theorem div_add_mod_div (n : ℕ) (hd : 0 < d) : (n / d : ℚ) = (n / d : ℕ) + (n % d : ℕ) / d := by
  have hd' : (d : ℚ) ≠ 0 := by exact_mod_cast hd.ne'
  rw [div_eq_iff hd', add_mul, div_mul_cancel₀ _ hd']
  exact_mod_cast (by rw [Nat.mul_comm, Nat.div_add_mod] : n = n / d * d + n % d)

/-- The nearest natural number is at most half of one away, and at half of one it is even. -/
theorem abs_sub_divNearest (n : ℕ) (hd : 0 < d) :
    |(n / d : ℚ) - divNearest n d| ≤ 1 / 2 ∧
      (|(n / d : ℚ) - divNearest n d| = 1 / 2 → Even (divNearest n d)) := by
  have hd' : (0 : ℚ) < d := by exact_mod_cast hd
  have hr : (n % d : ℕ) < (d : ℚ) := by exact_mod_cast Nat.mod_lt n hd
  have hr0 : (0 : ℚ) ≤ (n % d : ℕ) := Nat.cast_nonneg _
  rw [div_add_mod_div n hd, divNearest]
  have hf0 : (0 : ℚ) ≤ (n % d : ℕ) / d := div_nonneg hr0 hd'.le
  split
  · next h =>
    have hf : ((n % d : ℕ) / d : ℚ) < 1 / 2 := by
      rw [div_lt_div_iff₀ hd' two_pos]
      exact_mod_cast (by omega : n % d * 2 < 1 * d)
    rw [add_sub_cancel_left, abs_of_nonneg hf0]
    exact ⟨hf.le, fun h => absurd h hf.ne⟩
  · split
    · next h =>
      have hf : (1 / 2 : ℚ) < (n % d : ℕ) / d := by
        rw [div_lt_div_iff₀ two_pos hd']
        exact_mod_cast (by omega : 1 * d < n % d * 2)
      have hf1 : ((n % d : ℕ) / d : ℚ) < 1 := (div_lt_one hd').mpr hr
      push_cast
      rw [add_sub_add_left_eq_sub, abs_of_neg (by linarith)]
      exact ⟨by linarith, fun h => by linarith⟩
    · -- half-way, where the remainder of the quotient by two picks the even neighbour
      have hf : ((n % d : ℕ) / d : ℚ) = 1 / 2 := by
        rw [div_eq_div_iff hd'.ne' two_ne_zero]
        exact_mod_cast (by omega : n % d * 2 = 1 * d)
      rw [hf]
      refine ⟨?_, fun _ => by rw [Nat.even_iff]; omega⟩
      obtain h | h := Nat.mod_two_eq_zero_or_one (n / d)
      · rw [h, Nat.add_zero, add_sub_cancel_left, abs_of_pos one_half_pos]
      · rw [h]
        push_cast
        rw [add_sub_add_left_eq_sub]
        norm_num

/-- Natural numbers that differ are one apart at least. -/
theorem one_le_abs_sub {i j : ℕ} (h : i ≠ j) : (1 : ℚ) ≤ |(i : ℚ) - j| := by
  have hij : (i : ℤ) - j ≠ 0 := sub_ne_zero.mpr (Nat.cast_injective.ne h)
  exact_mod_cast Int.one_le_abs hij

/-- Any other natural number is at least half of one away. -/
theorem half_le_abs_sub (hd : 0 < d) (hj : j ≠ divNearest n d) :
    1 / 2 ≤ |(n / d : ℚ) - j| := by
  have hnear := (abs_sub_divNearest n hd).1
  have hone := one_le_abs_sub hj
  have htri := abs_sub_le (j : ℚ) (n / d) (divNearest n d)
  rw [abs_sub_comm (j : ℚ) (n / d)] at htri
  linarith

/-- No natural number is nearer. -/
theorem divNearest_le (n j : ℕ) (hd : 0 < d) :
    |(n / d : ℚ) - divNearest n d| ≤ |(n / d : ℚ) - j| := by
  by_cases hj : j = divNearest n d
  · rw [hj]
  · exact (abs_sub_divNearest n hd).1.trans (half_le_abs_sub hd hj)

/-- Where another natural number is as near, the one that is taken is even. -/
theorem even_divNearest (hd : 0 < d) (hj : j ≠ divNearest n d)
    (h : |(n / d : ℚ) - divNearest n d| = |(n / d : ℚ) - j|) : Even (divNearest n d) := by
  obtain ⟨hle, heven⟩ := abs_sub_divNearest n hd
  exact heven (le_antisymm hle (h ▸ half_le_abs_sub hd hj))

end DivNearest

namespace Binary64

/-! ## The nearest magnitude -/

/-- The magnitude whose value is nearest to `w` quanta, even if there are two, where infinity is
left out and every magnitude has a value. -/
structure NearestMagnitude (w : ℚ) (m : ℕ) : Prop where
  /-- no magnitude is nearer -/
  le : ∀ k, |w - quanta m| ≤ |w - quanta k|
  /-- where another one is as near, this one is even -/
  even : ∀ k ≠ m, |w - quanta m| = |w - quanta k| → Even m

section Nearest

variable {n d s : ℕ}

/-- The step of a fraction: it holds `2 ^ 53` steps at most, and `2 ^ 52` unless the step is the
least one. -/
theorem step_bounds (n : ℕ) (hd : 0 < d) (hs : s = (n / d).log2 - 52) :
    (n / d : ℚ) < 2 ^ 53 * 2 ^ s ∧ (s = 0 ∨ (2 ^ 52 * 2 ^ s : ℚ) ≤ n / d) := by
  have hd' : (0 : ℚ) < d := by exact_mod_cast hd
  have hlt : n / d < 2 ^ (53 + s) :=
    Nat.lt_log2_self.trans_le (Nat.pow_le_pow_right two_pos (by omega))
  refine ⟨?_, ?_⟩
  · rw [div_lt_iff₀ hd', ← pow_add]
    exact_mod_cast (Nat.div_lt_iff_lt_mul hd).mp hlt
  · by_cases h0 : s = 0
    · exact .inl h0
    · -- the logarithm is more than 52, so the subtraction cuts nothing off
      have hne : n / d ≠ 0 := by
        intro hz
        rw [hz] at hs
        exact h0 hs
      have hle : 2 ^ (52 + s) ≤ n / d := by
        have hlog : 52 + s = (n / d).log2 := by omega
        rw [hlog]
        exact Nat.log2_self_le hne
      refine .inr ?_
      rw [le_div_iff₀ hd', ← pow_add]
      exact_mod_cast (Nat.le_div_iff_mul_le hd).mp hle

/-- The count of steps that is nearest to a fraction is one that a magnitude can have. -/
theorem divNearest_bounds (n : ℕ) (hd : 0 < d) (hs : s = (n / d).log2 - 52) :
    divNearest n (d * 2 ^ s) ≤ 2 ^ 53 ∧ (s = 0 ∨ 2 ^ 52 ≤ divNearest n (d * 2 ^ s)) := by
  obtain ⟨hlt, hle⟩ := step_bounds n hd hs
  have hpow : (0 : ℚ) < 2 ^ s := by positivity
  have hnear := (abs_sub_divNearest n (Nat.mul_pos hd (Nat.two_pow_pos s))).1
  rw [abs_le] at hnear
  have hquot : (n / (d * 2 ^ s : ℕ) : ℚ) = n / d / 2 ^ s := by
    push_cast
    rw [div_div]
  rw [hquot] at hnear
  refine ⟨?_, hle.imp_right fun hle => ?_⟩
  · have hlt' : (n / d / 2 ^ s : ℚ) < 2 ^ 53 := (div_lt_iff₀ hpow).mpr hlt
    have hcount : (divNearest n (d * 2 ^ s) : ℚ) < (2 ^ 53 + 1 : ℕ) := by
      push_cast
      linarith
    exact Nat.lt_succ_iff.mp (by exact_mod_cast hcount)
  · have hle' : (2 ^ 52 : ℚ) ≤ n / d / 2 ^ s := (le_div_iff₀ hpow).mpr hle
    have hcount : (2 ^ 52 : ℚ) < (divNearest n (d * 2 ^ s) + 1 : ℕ) := by
      push_cast
      linarith
    exact Nat.lt_succ_iff.mp (by exact_mod_cast hcount)

/-- The value of a magnitude is a multiple of the step, or it lies below all that have a
significand of full length. -/
theorem quanta_grid (s k : ℕ) :
    (∃ j, quanta k = j * 2 ^ s) ∨ s ≠ 0 ∧ quanta k < 2 ^ 52 * 2 ^ s := by
  obtain ⟨t, i, rfl, hi, h⟩ := exists_step k
  rw [quanta_step hi.le h]
  obtain hst | hts := le_or_gt s t
  · -- the magnitude has a step that is a multiple of this one
    refine .inl ⟨i * 2 ^ (t - s), ?_⟩
    rw [mul_assoc, ← pow_add, Nat.sub_add_cancel hst]
  · -- its step is half of this one at most, and it counts fewer than `2 ^ 53` of them
    refine .inr ⟨Nat.ne_zero_of_lt hts, ?_⟩
    calc i * 2 ^ t < 2 ^ 53 * 2 ^ t := Nat.mul_lt_mul_of_pos_right hi (Nat.two_pow_pos t)
      _ = 2 ^ 52 * 2 ^ (t + 1) := by rw [pow_succ 2 t]; ring
      _ ≤ 2 ^ 52 * 2 ^ s := Nat.mul_le_mul_left _ (Nat.pow_le_pow_right two_pos hts)

/-- The distance of a fraction to a multiple of the step, in steps. -/
theorem abs_sub_mul_step (n d s j : ℕ) :
    |(n / d : ℚ) - (j * 2 ^ s : ℕ)| = |(n / (d * 2 ^ s : ℕ) : ℚ) - j| * 2 ^ s := by
  have hpos : (0 : ℚ) < 2 ^ s := by positivity
  have hscale : (n / d : ℚ) - (j * 2 ^ s : ℕ) = (n / (d * 2 ^ s : ℕ) - j) * 2 ^ s := by
    push_cast
    rw [sub_mul, ← div_div, div_mul_cancel₀ _ hpos.ne']
  rw [hscale, abs_mul, abs_of_pos hpos]

/-- A magnitude below those with a significand of full length is farther away. -/
theorem lt_of_below_grid {k : ℕ} (hd : 0 < d) (hs : s = (n / d).log2 - 52) (h0 : s ≠ 0)
    (hk : quanta k < 2 ^ 52 * 2 ^ s) :
    |(n / d : ℚ) - (divNearest n (d * 2 ^ s) * 2 ^ s : ℕ)| < |(n / d : ℚ) - quanta k| := by
  have hfull : (2 ^ 52 * 2 ^ s : ℚ) ≤ n / d := (step_bounds n hd hs).2.resolve_left h0
  have hk' : (quanta k : ℚ) < 2 ^ 52 * 2 ^ s := by exact_mod_cast hk
  calc |(n / d : ℚ) - (divNearest n (d * 2 ^ s) * 2 ^ s : ℕ)|
      ≤ |(n / d : ℚ) - (2 ^ 52 * 2 ^ s : ℕ)| := by
        rw [abs_sub_mul_step, abs_sub_mul_step]
        exact mul_le_mul_of_nonneg_right
          (divNearest_le n (2 ^ 52) (Nat.mul_pos hd (Nat.two_pow_pos s))) (by positivity)
    _ < |(n / d : ℚ) - quanta k| := by
        push_cast
        rw [abs_of_nonneg (by linarith), abs_of_pos (by linarith)]
        linarith

/-- **The nearest magnitude.** The count of steps and the exponent make up the magnitude nearest
to `n / d` quanta. -/
theorem nearestMagnitude (n : ℕ) (hd : 0 < d) (hs : s = (n / d).log2 - 52) :
    NearestMagnitude (n / d) (s * 2 ^ 52 + divNearest n (d * 2 ^ s)) := by
  obtain ⟨hcount, hfull⟩ := divNearest_bounds n hd hs
  have hstep : 0 < d * 2 ^ s := Nat.mul_pos hd (Nat.two_pow_pos s)
  have hpow : (0 : ℚ) < 2 ^ s := by positivity
  have hvalue := quanta_step hcount hfull
  refine ⟨?_, ?_⟩
  · intro k
    rw [hvalue]
    obtain ⟨j, hj⟩ | ⟨h0, hk⟩ := quanta_grid s k
    · rw [hj, abs_sub_mul_step, abs_sub_mul_step]
      exact mul_le_mul_of_nonneg_right (divNearest_le n j hstep) hpow.le
    · exact (lt_of_below_grid hd hs h0 hk).le
  · intro k hne htie
    rw [hvalue] at htie
    obtain ⟨j, hj⟩ | ⟨h0, hk⟩ := quanta_grid s k
    · -- the magnitude and the count end in the same bit, as `2 ^ 52` is even
      have hjne : j ≠ divNearest n (d * 2 ^ s) := by
        rintro rfl
        exact hne (quanta_strictMono.injective (hj.trans hvalue.symm))
      rw [hj, abs_sub_mul_step, abs_sub_mul_step] at htie
      have heven := even_divNearest hstep hjne (mul_right_cancel₀ hpow.ne' htie)
      exact ((Nat.even_pow.mpr ⟨even_two, by decide⟩).mul_left s).add heven
    · exact absurd htie (lt_of_below_grid hd hs h0 hk).ne

end Nearest

/-! ## The nearest double -/

section Bounded

variable {v w : ℚ} {m : ℕ}

/-- The least number that goes to infinity, in quanta, lies half-way between the greatest finite
value and the one that would be next. -/
theorem overflow_quanta : ((2 : ℚ) ^ 1024 - 2 ^ 970) * 2 ^ 1074 = (2 ^ 54 - 1) * 2 ^ 2044 := by
  rw [sub_mul, ← pow_add, ← pow_add, sub_mul, ← pow_add, one_mul]

/-- The greatest finite value lies half a step below the numbers that go to infinity. -/
theorem cast_quanta_greatest :
    (quanta (infiniteMagnitude - 1) : ℚ) = (2 ^ 54 - 1) * 2 ^ 2044 - 2 ^ 2044 := by
  rw [quanta_greatest, Nat.cast_mul, Nat.cast_pow, Nat.cast_ofNat, ← sub_one_mul]
  congr 1
  norm_num

/-- The value that would be next lies half a step above the least of them. -/
theorem cast_quanta_infinite :
    (quanta infiniteMagnitude : ℚ) = (2 ^ 54 - 1) * 2 ^ 2044 + 2 ^ 2044 := by
  rw [quanta_infiniteMagnitude, Nat.cast_mul, Nat.cast_pow, Nat.cast_pow, Nat.cast_ofNat,
    ← add_one_mul, sub_add_cancel]

/-- The magnitude of a number stays finite just if the number does. -/
theorem NearestMagnitude.lt_infinite_iff (h : NearestMagnitude w m) :
    m < infiniteMagnitude ↔ w < (2 ^ 54 - 1) * 2 ^ 2044 := by
  have hlast := cast_quanta_greatest
  have hnext := cast_quanta_infinite
  have hhalf : (0 : ℚ) < 2 ^ 2044 := by positivity
  generalize ((2 : ℚ) ^ 54 - 1) * 2 ^ 2044 = t at hlast hnext ⊢
  generalize (2 : ℚ) ^ 2044 = half at hlast hnext hhalf
  refine ⟨?_, ?_⟩
  · intro hm
    by_contra hw
    rw [not_lt] at hw
    have hle : (quanta m : ℚ) ≤ quanta (infiniteMagnitude - 1) := by
      exact_mod_cast quanta_strictMono.monotone (Nat.le_pred_of_lt hm)
    -- infinity, taken as a value, is at least as near as any finite one
    have hnear := h.le infiniteMagnitude
    rw [abs_of_pos (by linarith)] at hnear
    obtain hfar | hclose := le_or_gt 0 (w - quanta infiniteMagnitude)
    · rw [abs_of_nonneg hfar] at hnear
      linarith
    · -- the number is the least that goes to infinity, and the magnitude below is odd
      rw [abs_of_neg hclose] at hnear
      have heq : (quanta m : ℚ) = quanta (infiniteMagnitude - 1) := by linarith
      obtain rfl : m = infiniteMagnitude - 1 := quanta_strictMono.injective (by exact_mod_cast heq)
      have heven := h.even infiniteMagnitude (by decide) (by
        rw [abs_of_pos (by linarith), abs_of_neg hclose]
        linarith)
      exact absurd heven (by decide)
  · intro hw
    by_contra hm
    rw [not_lt] at hm
    have hle : (quanta infiniteMagnitude : ℚ) ≤ quanta m := by
      exact_mod_cast quanta_strictMono.monotone hm
    have hnear := h.le (infiniteMagnitude - 1)
    rw [abs_of_neg (by linarith)] at hnear
    obtain hbelow | habove := le_or_gt 0 (w - quanta (infiniteMagnitude - 1))
    · rw [abs_of_nonneg hbelow] at hnear
      linarith
    · rw [abs_of_neg habove] at hnear
      linarith

/-- A double with the sign bit set is no nearer to a nonnegative number than its opposite. -/
theorem abs_sub_quanta_le (hv : 0 ≤ v) (y : Binary64) :
    |v - quanta y.magnitude / 2 ^ 1074| ≤ |v - y.value| := by
  cases hy : y.negative with
  | false => rw [value_of_positive hy]
  | true =>
    have hq : (0 : ℚ) ≤ quanta y.magnitude / 2 ^ 1074 :=
      div_nonneg (Nat.cast_nonneg _) (pow_nonneg zero_le_two _)
    rw [value_of_negative hy, sub_neg_eq_add]
    generalize (quanta y.magnitude / 2 ^ 1074 : ℚ) = q at hq
    rw [abs_of_nonneg (add_nonneg hv hq), abs_le]
    constructor <;> linarith

/-- Magnitudes up to infinity are kept. -/
theorem magnitude_ofMagnitude (hm : m ≤ infiniteMagnitude) : (ofMagnitude m).magnitude = m :=
  Nat.min_eq_left hm

theorem isFinite_ofMagnitude (hm : m < infiniteMagnitude) : (ofMagnitude m).isFinite = true :=
  decide_eq_true (Nat.lt_of_le_of_lt (Nat.min_le_left _ _) hm)

theorem isInfinite_ofMagnitude (hm : infiniteMagnitude ≤ m) : (ofMagnitude m).isInfinite = true :=
  decide_eq_true (Nat.min_eq_right hm)

/-- The magnitude nearest to zero is zero. -/
theorem NearestMagnitude.eq_zero (h : NearestMagnitude 0 m) : m = 0 := by
  have hle := h.le 0
  rw [quanta_zero, Nat.cast_zero, sub_zero, abs_zero, zero_sub, abs_neg, abs_nonpos_iff] at hle
  exact quanta_strictMono.injective (by exact_mod_cast hle)

/-- Only zero is as near as its opposite. -/
theorem NearestMagnitude.eq_zero_of_tie {c : ℚ} (hc : c ≠ 0) (h : NearestMagnitude (v * c) m)
    (htie : |v - quanta m / c| = |v + quanta m / c|) : m = 0 := by
  obtain hq | hw := abs_eq_abs.mp htie
  · have hq0 : (quanta m / c : ℚ) = 0 := by linarith
    rw [div_eq_zero_iff, or_iff_left hc] at hq0
    exact quanta_strictMono.injective (by exact_mod_cast hq0)
  · obtain rfl : v = 0 := by linarith
    rw [zero_mul] at h
    exact h.eq_zero

/-- The double of the nearest magnitude is the nearest double. -/
theorem IsNearest.of_magnitude (hv : 0 ≤ v) (h : NearestMagnitude (v * 2 ^ 1074) m) :
    IsNearest v (ofMagnitude m) := by
  have hpos : (0 : ℚ) < 2 ^ 1074 := pow_pos two_pos _
  have hlt : v < 2 ^ 1024 - 2 ^ 970 ↔ m < infiniteMagnitude := by
    rw [h.lt_infinite_iff, ← overflow_quanta, mul_lt_mul_iff_left₀ hpos]
  have hvalue : ∀ hm : m < infiniteMagnitude, (ofMagnitude m).value = quanta m / 2 ^ 1074 := by
    intro hm
    rw [value_of_positive rfl, magnitude_ofMagnitude hm.le]
  have hnear : ∀ k, |v - quanta m / 2 ^ 1074| ≤ |v - quanta k / 2 ^ 1074| := by
    intro k
    rw [abs_sub_quanta_div, abs_sub_quanta_div]
    exact (div_le_div_iff_of_pos_right hpos).mpr (h.le k)
  refine ⟨rfl, fun hbig => ?_, fun hv => isFinite_ofMagnitude (hlt.mp hv), fun hlow y _ => ?_,
    fun hlow y _ hne htie => ?_⟩
  · exact isInfinite_ofMagnitude (not_lt.mp fun hm => absurd (hlt.mpr hm) (not_lt.mpr hbig))
  · rw [hvalue (hlt.mp hlow)]
    exact (hnear y.magnitude).trans (abs_sub_quanta_le hv y)
  · rw [even_mantissa_iff, magnitude_ofMagnitude (hlt.mp hlow).le]
    rw [hvalue (hlt.mp hlow)] at hne htie
    by_cases hym : y.magnitude = m
    · -- the two doubles differ in their signs alone, and only zeros do so and are as near
      have hneg : y.negative = true := by
        by_contra hpositive
        rw [value_of_positive (Bool.eq_false_iff.mpr hpositive), hym] at hne
        exact hne rfl
      rw [value_of_negative hneg, hym, sub_neg_eq_add] at htie
      rw [h.eq_zero_of_tie hpos.ne' htie]
      exact Even.zero
    · have hle := (abs_sub_quanta_le hv y).trans htie.symm.le
      have heq := le_antisymm (hnear y.magnitude) hle
      rw [abs_sub_quanta_div, abs_sub_quanta_div, div_left_inj' hpos.ne'] at heq
      exact h.even y.magnitude hym heq

/-- From half a step above the greatest finite value on, infinity is the nearest double. -/
theorem IsNearest.of_overflow (hv : 2 ^ 1024 - 2 ^ 970 ≤ v) (hm : infiniteMagnitude ≤ m) :
    IsNearest v (ofMagnitude m) where
  positive := rfl
  infinite _ := isInfinite_ofMagnitude hm
  finite hlt := absurd hlt (not_lt.mpr hv)
  le hlt := absurd hlt (not_lt.mpr hv)
  even hlt := absurd hlt (not_lt.mpr hv)

/-- A number of up to half a quantum is nearest to zero. -/
theorem nearestMagnitude_zero (h0 : 0 ≤ w) (hw : w ≤ 1 / 2) : NearestMagnitude w 0 := by
  refine ⟨fun k => ?_, fun _ _ _ => Even.zero⟩
  rw [quanta_zero, Nat.cast_zero, sub_zero, abs_of_nonneg h0]
  by_cases hk : k = 0
  · rw [hk, quanta_zero, Nat.cast_zero, sub_zero]
    exact le_abs_self w
  · have hq : (1 : ℚ) ≤ quanta k := by
      exact_mod_cast quanta_strictMono (Nat.pos_of_ne_zero hk)
    have hneg := neg_abs_le (w - quanta k)
    linarith

/-- Numbers of up to half the least positive value go to zero. -/
theorem IsNearest.zero (h0 : 0 ≤ v) (hv : v ≤ 1 / 2 ^ 1075) : IsNearest v (ofMagnitude 0) := by
  have hpos : (0 : ℚ) < 2 ^ 1074 := pow_pos two_pos _
  refine .of_magnitude h0 (nearestMagnitude_zero (mul_nonneg h0 hpos.le) ?_)
  rw [pow_succ, ← div_div, div_right_comm, le_div_iff₀ hpos] at hv
  exact hv

/-- Magnitudes are cut down to infinity once. -/
theorem ofMagnitude_min (m : ℕ) : ofMagnitude (min m infiniteMagnitude) = ofMagnitude m :=
  Binary64.ext rfl (min_eq_left (min_le_right m infiniteMagnitude))

/-- **Rounding a fraction.** The division gives the nearest double. -/
theorem isNearest_nearest {n d : ℕ} (hd : 0 < d) (hv : v * 2 ^ 1074 = n / d) :
    IsNearest v (ofMagnitude (nearest n d)) := by
  have hv0 : 0 ≤ v * 2 ^ 1074 := hv ▸ div_nonneg (Nat.cast_nonneg n) (Nat.cast_nonneg d)
  rw [nearest, ofMagnitude_min]
  exact .of_magnitude (nonneg_of_mul_nonneg_left hv0 (pow_pos two_pos _))
    (hv ▸ nearestMagnitude n hd rfl)

end Bounded

/-! ## Natural numbers and decimals -/

theorem cast_quantaPerUnit : (quantaPerUnit : ℚ) = 2 ^ 1074 := by
  simp only [quantaPerUnit, Nat.cast_pow, Nat.cast_ofNat]

/-- **Rounding a natural number.** -/
theorem isNearest_ofNat (n : ℕ) : IsNearest n (ofNat n) := by
  refine isNearest_nearest one_pos ?_
  rw [Nat.cast_mul, cast_quantaPerUnit, Nat.cast_one, div_one]

end Binary64

/-- The number that a decimal stands for. -/
def Decimal.value (d : Decimal) : ℚ := d.coefficient * 10 ^ d.exponent

theorem Decimal.value_nonneg (d : Decimal) : 0 ≤ d.value :=
  mul_nonneg (Nat.cast_nonneg _) (zpow_nonneg (by norm_num) _)

/-- The place of the first digit of a decimal tells the powers of ten between which it lies. -/
theorem Decimal.value_bounds {d : Decimal} (hd : d.coefficient ≠ 0) :
    (10 : ℚ) ^ (decimalLength d.coefficient + d.exponent - 1) ≤ d.value ∧
      d.value < (10 : ℚ) ^ (decimalLength d.coefficient + d.exponent) := by
  have hscale : (0 : ℚ) < 10 ^ d.exponent := zpow_pos (by norm_num) _
  have hlen : 1 ≤ decimalLength d.coefficient := by
    rw [decimalLength_eq]
    exact Nat.succ_pos _
  obtain ⟨hle, hlt⟩ := decimalLength_bounds hd
  have hle' : (10 : ℚ) ^ (decimalLength d.coefficient - 1) ≤ d.coefficient := by exact_mod_cast hle
  have hlt' : (d.coefficient : ℚ) < 10 ^ decimalLength d.coefficient := by exact_mod_cast hlt
  refine ⟨?_, ?_⟩
  · have hsub : (decimalLength d.coefficient + d.exponent - 1 : ℤ) =
        (decimalLength d.coefficient - 1 : ℕ) + d.exponent := by omega
    rw [hsub, zpow_add₀ (by norm_num), zpow_natCast]
    exact mul_le_mul_of_nonneg_right hle' hscale.le
  · rw [zpow_add₀ (by norm_num), zpow_natCast]
    exact mul_lt_mul_of_pos_right hlt' hscale

/-- Half the least positive value, and a power of ten below it. -/
theorem two_pow_le_ten_pow_331 : 2 ^ 1075 ≤ 10 ^ 331 := by decide +kernel

/-- A power of two above all finite values, and a power of ten above that. -/
theorem two_pow_le_ten_pow_310 : 2 ^ 1024 ≤ 10 ^ 310 := by decide +kernel

/-- Decimals whose first digit stands far behind the point go to zero. -/
theorem Decimal.value_le_of_place {d : Decimal} (hd : d.coefficient ≠ 0)
    (h : (decimalLength d.coefficient + d.exponent : ℤ) < -330) : d.value ≤ 1 / 2 ^ 1075 :=
  calc d.value ≤ 10 ^ (decimalLength d.coefficient + d.exponent : ℤ) := (value_bounds hd).2.le
    _ ≤ 10 ^ (-(331 : ℕ) : ℤ) := zpow_le_zpow_right₀ (by norm_num) (by omega)
    _ = 1 / 10 ^ 331 := by rw [zpow_neg, zpow_natCast, one_div]
    _ ≤ 1 / 2 ^ 1075 :=
        one_div_le_one_div_of_le (pow_pos two_pos _) (by exact_mod_cast two_pow_le_ten_pow_331)

/-- Decimals whose first digit stands far before the point go to infinity. -/
theorem Decimal.le_value_of_place {d : Decimal} (hd : d.coefficient ≠ 0)
    (h : (310 : ℤ) < decimalLength d.coefficient + d.exponent) : 2 ^ 1024 - 2 ^ 970 ≤ d.value :=
  calc (2 : ℚ) ^ 1024 - 2 ^ 970 ≤ 2 ^ 1024 := sub_le_self _ (pow_pos two_pos _).le
    _ ≤ 10 ^ 310 := by exact_mod_cast two_pow_le_ten_pow_310
    _ = 10 ^ ((310 : ℕ) : ℤ) := (zpow_natCast _ _).symm
    _ ≤ 10 ^ (decimalLength d.coefficient + d.exponent - 1 : ℤ) :=
        zpow_le_zpow_right₀ (by norm_num) (by omega)
    _ ≤ d.value := (value_bounds hd).1

/-- **Rounding a decimal.** -/
theorem Binary64.isNearest_ofDecimal (d : Decimal) : IsNearest d.value (ofDecimal d) := by
  rw [ofDecimal, decimalMagnitude]
  by_cases hc : d.coefficient = 0
  · rw [if_pos (.inl hc)]
    exact .zero d.value_nonneg (by simp [Decimal.value, hc])
  -- far outside the range of the format the place of the first digit decides
  by_cases hlow : (decimalLength d.coefficient + d.exponent : ℤ) < -330
  · rw [if_pos (.inr hlow)]
    exact .zero d.value_nonneg (Decimal.value_le_of_place hc hlow)
  rw [if_neg (not_or.mpr ⟨hc, hlow⟩)]
  by_cases hhigh : (310 : ℤ) < decimalLength d.coefficient + d.exponent
  · rw [if_pos hhigh]
    exact .of_overflow (Decimal.le_value_of_place hc hhigh) le_rfl
  rw [if_neg hhigh]
  -- inside it the power of ten goes to the numerator or to the denominator, by its sign
  obtain ⟨c, e⟩ := d
  cases e with
  | ofNat e =>
    refine isNearest_nearest one_pos ?_
    rw [Nat.cast_mul, cast_quantaPerUnit, Nat.cast_one, div_one, Nat.cast_mul, Nat.cast_pow,
      Decimal.value, Int.ofNat_eq_natCast, zpow_natCast]
    rfl
  | negSucc e =>
    refine isNearest_nearest (Nat.pow_pos (by decide)) ?_
    rw [Nat.cast_mul, cast_quantaPerUnit, Decimal.value, zpow_negSucc, Nat.cast_pow, mul_right_comm,
      div_eq_mul_inv]
    rfl

end ScriptLiteral
