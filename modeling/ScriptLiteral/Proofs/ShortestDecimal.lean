import ScriptLiteral.Binary64.Text
import ScriptLiteral.Proofs.Significand

/-!
# The shortest decimal rounds back

The search for the decimal of a double tries multiples of powers of ten, counted in units of
`10 ^ -1074`, and takes one only if it rounds back to the double (`readsBack_iff`). On the finest
grid it takes the value itself, which does so (`readsBack_quanta`). So whatever the search finds
rounds back (`exists_of_searchGrids`), and the digits that are written for a double are those of a
number whose nearest double it is (`isNearest_significand`).
-/

namespace ScriptLiteral.Binary64

variable {m n k : ℕ}

/-! ## Values of magnitudes -/

/-- A magnitude is nearest to its own value. -/
theorem nearestMagnitude_quanta (m : ℕ) : NearestMagnitude (quanta m) m := by
  refine ⟨fun k => ?_, fun k hne htie => ?_⟩
  · rw [sub_self, abs_zero]
    exact abs_nonneg _
  · rw [sub_self, abs_zero, eq_comm, abs_eq_zero, sub_eq_zero] at htie
    exact absurd (quanta_strictMono.injective (by exact_mod_cast htie)).symm hne

/-- A double is nearest to its own value. -/
theorem isNearest_quanta (m : ℕ) : IsNearest (quanta m / 2 ^ 1074) (ofMagnitude m) := by
  refine .of_magnitude (div_nonneg (Nat.cast_nonneg _) (pow_nonneg zero_le_two _)) ?_
  rw [div_mul_cancel₀ _ (pow_ne_zero _ two_ne_zero)]
  exact nearestMagnitude_quanta m

/-- Magnitudes up to infinity tell their doubles apart. -/
theorem ofMagnitude_inj (hm : m ≤ infiniteMagnitude) (hn : n ≤ infiniteMagnitude) :
    ofMagnitude m = ofMagnitude n ↔ m = n := by
  refine ⟨fun h => ?_, congrArg ofMagnitude⟩
  rw [← magnitude_ofMagnitude hm, h, magnitude_ofMagnitude hn]

/-- A number that rounds to a finite double is not too large. -/
theorem IsNearest.lt_overflow {v : ℚ} {x : Binary64} (h : IsNearest v x)
    (hx : x.isFinite = true) : v < 2 ^ 1024 - 2 ^ 970 := by
  by_contra hlarge
  have hinfinite := h.infinite (not_lt.mp hlarge)
  rw [isInfinite, decide_eq_true_eq] at hinfinite
  rw [isFinite, hinfinite] at hx
  exact absurd hx (by decide)

theorem nearest_le (n d : ℕ) : nearest n d ≤ infiniteMagnitude := Nat.min_le_right _ _

/-! ## The search -/

theorem unitsPerQuantum_pos : 0 < unitsPerQuantum := Nat.pow_pos (by decide)

/-- A unit is a quantum divided by a power of five. -/
theorem units_mul_quanta (k : ℕ) :
    (k / 10 ^ finestPlace * 2 ^ 1074 : ℚ) = k / unitsPerQuantum := by
  have h10 : (10 : ℚ) ^ finestPlace = 5 ^ finestPlace * 2 ^ 1074 := by
    rw [show (1074 : ℕ) = finestPlace from rfl, ← mul_pow]
    norm_num
  rw [h10, ← div_div, div_mul_cancel₀ _ (pow_ne_zero _ two_ne_zero), unitsPerQuantum, Nat.cast_pow,
    Nat.cast_ofNat]

/-- A number of units is taken for a magnitude just if the double is nearest to it. -/
theorem readsBack_iff (hm : m ≤ infiniteMagnitude) :
    readsBack m k = true ↔ IsNearest (k / 10 ^ finestPlace) (ofMagnitude m) := by
  have hnear : IsNearest (k / 10 ^ finestPlace) (ofMagnitude (nearest k unitsPerQuantum)) :=
    isNearest_nearest unitsPerQuantum_pos (units_mul_quanta k)
  rw [readsBack, decide_eq_true_eq]
  refine ⟨fun h => h ▸ hnear, fun h => ?_⟩
  exact (ofMagnitude_inj (nearest_le _ _) hm).mp (hnear.unique h)

/-- The value of a magnitude in units. -/
theorem quanta_mul_units (m : ℕ) :
    ((quanta m * unitsPerQuantum : ℕ) / 10 ^ finestPlace : ℚ) = quanta m / 2 ^ 1074 := by
  have hunits : (unitsPerQuantum : ℚ) ≠ 0 := Nat.cast_ne_zero.mpr unitsPerQuantum_pos.ne'
  rw [eq_div_iff (pow_ne_zero _ two_ne_zero), units_mul_quanta, Nat.cast_mul,
    mul_div_cancel_right₀ _ hunits]

/-- A multiple of a power of ten in units. -/
theorem mul_ten_pow_units (c q : ℕ) :
    (c * 10 ^ ((q : ℤ) - finestPlace) : ℚ) = (c * 10 ^ q : ℕ) / 10 ^ finestPlace := by
  rw [zpow_sub₀ (by norm_num), zpow_natCast, zpow_natCast, mul_div_assoc', Nat.cast_mul,
    Nat.cast_pow, Nat.cast_ofNat]

/-- The value of a magnitude reads back. -/
theorem readsBack_quanta (hm : m ≤ infiniteMagnitude) :
    readsBack m (quanta m * unitsPerQuantum) = true := by
  rw [readsBack_iff hm, quanta_mul_units]
  exact isNearest_quanta m

/-- The nearest natural number to a fraction is one of its neighbours. -/
theorem divNearest_eq_or (n d : ℕ) :
    divNearest n d = n / d ∨ divNearest n d = n / d + 1 := by
  unfold divNearest
  split
  · exact .inl rfl
  · split
    · exact .inr rfl
    · omega

section Search

variable {reads : ℕ → Bool}

/-- What is taken from a grid reads back. -/
theorem reads_of_gridPoint {step d : ℕ} (h : gridPoint? reads n step = some d) :
    reads (d * step) = true := by
  simp only [gridPoint?] at h
  split at h
  · next hbelow habove =>
    cases h
    rcases divNearest_eq_or n step with hd | hd
    · rw [hd, hbelow]
    · rw [hd, habove]
  · next hbelow _ =>
    cases h
    exact hbelow
  · next _ habove =>
    cases h
    exact habove
  · cases h

/-- **What the search finds reads back**, if the value itself does. -/
theorem exists_of_searchGrids (hn : reads n = true) (places : ℕ) :
    ∃ k : ℕ, reads k = true ∧ (searchGrids reads n places).value = k / 10 ^ finestPlace := by
  induction places with
  | zero =>
    refine ⟨n, hn, ?_⟩
    rw [searchGrids, Decimal.value, zpow_neg, zpow_natCast, div_eq_mul_inv]
  | succ places ih =>
    rw [searchGrids]
    split
    · next d hd =>
      exact ⟨d * 10 ^ (places + 1), reads_of_gridPoint hd, mul_ten_pow_units d (places + 1)⟩
    · exact ih

end Search

/-- **The shortest decimal rounds back** to its double. -/
theorem isNearest_shortest (hm : m ≤ infiniteMagnitude) :
    IsNearest (shortest m).value (ofMagnitude m) := by
  obtain ⟨k, hk, hvalue⟩ := exists_of_searchGrids (readsBack_quanta hm)
    (decimalLength (quanta m * unitsPerQuantum))
  rw [shortest, hvalue]
  exact (readsBack_iff hm).mp hk

/-- Zero rounds to no other magnitude. -/
theorem IsNearest.ne_zero {v : ℚ} (h : IsNearest v (ofMagnitude m)) (hm : m ≤ infiniteMagnitude)
    (h0 : m ≠ 0) : v ≠ 0 := by
  rintro rfl
  have hzero : IsNearest 0 (ofMagnitude 0) := .zero le_rfl (by positivity)
  exact h0 ((ofMagnitude_inj hm (Nat.zero_le _)).mp (h.unique hzero))

/-- Only zero is written without a digit other than zero. -/
theorem coefficient_shortest (hm : m ≤ infiniteMagnitude) (h0 : m ≠ 0) :
    (shortest m).coefficient ≠ 0 := by
  intro hc
  apply (isNearest_shortest hm).ne_zero hm h0
  rw [Decimal.value, hc, Nat.cast_zero, zero_mul]

/-! ## Digits of a double -/

/-- The digits of a double are in normal form. -/
theorem isNormal_significand (hm : m ≤ infiniteMagnitude) (h0 : m ≠ 0) :
    (significand m).IsNormal :=
  Decimal.isNormal_significand (coefficient_shortest hm h0)

/-- **The digits of a double** are those of a number whose nearest double it is. -/
theorem isNearest_significand (hm : m ≤ infiniteMagnitude) :
    IsNearest (significand m).value (ofMagnitude m) := by
  rw [significand, Decimal.value_significand]
  exact isNearest_shortest hm

/-- The place of the point is that of the first digit of the shortest decimal. -/
theorem point_significand (m : ℕ) :
    (significand m).point =
      decimalLength (shortest m).coefficient + (shortest m).exponent := by
  rw [← length_toDigits]
  rfl

/-- **The point of a double** does not lie far off: decimals whose point does go to zero or to
infinity. -/
theorem point_significand_bounds (hm : m < infiniteMagnitude) (h0 : m ≠ 0) :
    -330 ≤ (significand m).point ∧ (significand m).point ≤ 310 := by
  have hcoefficient := coefficient_shortest hm.le h0
  have hnear := isNearest_shortest hm.le
  rw [point_significand]
  constructor
  · by_contra hplace
    have hsmall := Decimal.value_le_of_place hcoefficient (not_le.mp hplace)
    have hzero := IsNearest.zero (Decimal.value_nonneg _) hsmall
    exact h0 ((ofMagnitude_inj hm.le (Nat.zero_le _)).mp (hnear.unique hzero))
  · by_contra hplace
    have hlarge := Decimal.le_value_of_place hcoefficient (not_le.mp hplace)
    exact absurd (hnear.lt_overflow (isFinite_ofMagnitude hm)) (not_lt.mpr hlarge)

end ScriptLiteral.Binary64
