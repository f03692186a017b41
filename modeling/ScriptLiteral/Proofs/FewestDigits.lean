import ScriptLiteral.Proofs.RoundingInterval
import Mathlib.Algebra.Order.Field.Power

/-!
# The fewest digits

The search for the decimal of a double looks at two points of each grid. That is enough because the
numbers which read back are an interval around the value: if any point of a grid reads back, so does
a neighbour of the value (`IsInterval.neighbour_reads`). So no coarser grid than the one that is
taken holds a number that rounds to the double (`le_exponent_shortest`), and no number of that grid
is nearer to it than the one that is taken (`abs_sub_shortest_le`).

The number of digits and their place follow. The digits begin at some power of ten, and a number
with fewer digits, or with as many on a finer grid, lies below that power. If it rounds to the
double, the power between the two does so too and is a point of the grid itself: there is a single
digit (`digitCount_eq_one`). Then no decimal with fewer digits is left (`not_isNearest_of_fewer`),
and one with as many on a finer grid is too far below to be nearer (`abs_sub_significand_le`).
-/

namespace ScriptLiteral.Binary64

/-! ## Grids -/

/-- Whatever lies between two numbers that read back does so too. -/
def IsInterval (reads : ℕ → Bool) : Prop :=
  ∀ a t b, reads a = true → reads b = true → a ≤ t → t ≤ b → reads t = true

section Grid

variable {reads : ℕ → Bool} {n step c d : ℕ}

/-- If a point of a grid reads back, so does the neighbour of the value on its side. -/
theorem IsInterval.neighbour_reads (h : IsInterval reads) (hn : reads n = true) (hstep : 0 < step)
    (hc : reads (c * step) = true) :
    c ≤ n / step ∧ reads (n / step * step) = true ∨
      n / step + 1 ≤ c ∧ reads ((n / step + 1) * step) = true := by
  have hbelow : n / step * step ≤ n := Nat.div_mul_le_self n step
  have habove : n ≤ (n / step + 1) * step := (Nat.lt_mul_of_div_lt (Nat.lt_succ_self _) hstep).le
  obtain hle | hlt := le_or_gt c (n / step)
  · exact .inl ⟨hle, h _ _ _ hc hn (Nat.mul_le_mul_right step hle) hbelow⟩
  · exact .inr ⟨hlt, h _ _ _ hn hc habove (Nat.mul_le_mul_right step hlt)⟩

/-- A grid with a point that reads back is not passed over. -/
theorem IsInterval.gridPoint?_ne_none (h : IsInterval reads) (hn : reads n = true)
    (hstep : 0 < step) (hc : reads (c * step) = true) : gridPoint? reads n step ≠ none := by
  intro hnone
  simp only [gridPoint?] at hnone
  split at hnone
  · cases hnone
  · cases hnone
  · cases hnone
  · next hbelow habove =>
    obtain ⟨-, hreads⟩ | ⟨-, hreads⟩ := h.neighbour_reads hn hstep hc
    · rw [hbelow] at hreads
      cases hreads
    · rw [habove] at hreads
      cases hreads

/-- Distances to points of a grid, in steps. -/
theorem abs_sub_mul_grid (hstep : 0 < step) (j : ℕ) :
    |(n - (j * step : ℕ) : ℚ)| = |(n / step : ℚ) - j| * step := by
  have hpos : (0 : ℚ) < step := by exact_mod_cast hstep
  rw [← abs_of_pos hpos, ← abs_mul, abs_of_pos hpos, sub_mul, div_mul_cancel₀ _ hpos.ne',
    Nat.cast_mul]

/-- **What is taken from a grid** is the nearest of its points that read back. -/
theorem IsInterval.abs_sub_gridPoint_le (h : IsInterval reads) (hn : reads n = true)
    (hstep : 0 < step) (hd : gridPoint? reads n step = some d) (hc : reads (c * step) = true) :
    |(n - (d * step : ℕ) : ℚ)| ≤ |(n - (c * step : ℕ) : ℚ)| := by
  have hside := h.neighbour_reads hn hstep hc
  simp only [gridPoint?] at hd
  split at hd
  · -- of the two neighbours the nearer one is taken
    cases hd
    rw [abs_sub_mul_grid hstep, abs_sub_mul_grid hstep]
    exact mul_le_mul_of_nonneg_right (divNearest_le n c hstep) (Nat.cast_nonneg step)
  · next hbelow habove =>
    -- only the neighbour below reads back, so no point above does
    cases hd
    obtain ⟨hle, -⟩ | ⟨-, hreads⟩ := hside
    · have hn' : ((n / step * step : ℕ) : ℚ) ≤ n := by exact_mod_cast Nat.div_mul_le_self n step
      have hc' : ((c * step : ℕ) : ℚ) ≤ (n / step * step : ℕ) := by
        exact_mod_cast Nat.mul_le_mul_right step hle
      rw [abs_of_nonneg (by linarith), abs_of_nonneg (by linarith)]
      linarith
    · rw [habove] at hreads
      cases hreads
  · next hbelow habove =>
    cases hd
    obtain ⟨-, hreads⟩ | ⟨hle, -⟩ := hside
    · rw [hbelow] at hreads
      cases hreads
    · have hn' : (n : ℚ) ≤ ((n / step + 1) * step : ℕ) := by
        exact_mod_cast (Nat.lt_mul_of_div_lt (Nat.lt_succ_self _) hstep).le
      have hc' : (((n / step + 1) * step : ℕ) : ℚ) ≤ (c * step : ℕ) := by
        exact_mod_cast Nat.mul_le_mul_right step hle
      rw [abs_of_nonpos (by linarith), abs_of_nonpos (by linarith)]
      linarith
  · cases hd

/-- **The grid that is taken** is the coarsest one with a point that reads back; on the finest grid
the value itself is taken. -/
theorem exists_searchGrids_eq (reads : ℕ → Bool) (n places : ℕ) :
    ∃ p d : ℕ, searchGrids reads n places = ⟨d, p - finestPlace⟩ ∧
      (p = 0 ∧ d = n ∨ gridPoint? reads n (10 ^ p) = some d) ∧
      ∀ q, p < q → q ≤ places → gridPoint? reads n (10 ^ q) = none := by
  induction places with
  | zero =>
    refine ⟨0, n, ?_, .inl ⟨rfl, rfl⟩, fun q hpq hq => absurd hpq (Nat.not_lt.mpr hq)⟩
    rw [searchGrids, Nat.cast_zero, zero_sub]
  | succ places ih =>
    rw [searchGrids]
    split
    · next d hd =>
      exact ⟨places + 1, d, rfl, .inr hd, fun q hpq hq => absurd hpq (Nat.not_lt.mpr hq)⟩
    · next hnone =>
      obtain ⟨p, d, heq, hpoint, hcoarser⟩ := ih
      refine ⟨p, d, heq, hpoint, fun q hpq hq => ?_⟩
      obtain hle | rfl := Nat.le_succ_iff.mp hq
      · exact hcoarser q hpq hle
      · exact hnone

end Grid

/-! ## The shortest decimal -/

section Shortest

variable {m c : ℕ} {e : ℤ} {v : ℚ}

theorem isInterval_readsBack (hm : m ≤ infiniteMagnitude) : IsInterval (readsBack m) := by
  intro a t b ha hb hat htb
  rw [readsBack_iff hm] at ha hb ⊢
  apply ha.between hb
  · gcongr
  · gcongr

/-- The grid of the shortest decimal, in units. -/
theorem exists_shortest_eq (m : ℕ) :
    ∃ p d : ℕ, shortest m = ⟨d, p - finestPlace⟩ ∧
      (p = 0 ∧ d = quanta m * unitsPerQuantum ∨
        gridPoint? (readsBack m) (quanta m * unitsPerQuantum) (10 ^ p) = some d) ∧
      ∀ q, p < q → q ≤ decimalLength (quanta m * unitsPerQuantum) →
        gridPoint? (readsBack m) (quanta m * unitsPerQuantum) (10 ^ q) = none :=
  exists_searchGrids_eq _ _ _

/-- A number that rounds to a double is not so large that its grid was not searched. -/
theorem place_le_of_readsBack {q : ℕ} (hm : m < infiniteMagnitude) (h0 : m ≠ 0) (hc : c ≠ 0)
    (h : readsBack m (c * 10 ^ q) = true) : q ≤ decimalLength (quanta m * unitsPerQuantum) := by
  have hvalue : quanta m ≠ 0 := by
    rw [← quanta_zero, quanta_strictMono.injective.ne_iff]
    exact h0
  obtain ⟨-, hlength⟩ := decimalLength_bounds (Nat.mul_ne_zero hvalue unitsPerQuantum_pos.ne')
  -- the number is less than the next double, and that is at most twice the value
  have hlt := ((readsBack_iff hm.le).mp h).lt_succ hm
  rw [← quanta_mul_units, div_lt_div_iff_of_pos_right (by positivity), Nat.cast_lt] at hlt
  have hnext := Nat.mul_le_mul_right unitsPerQuantum (quanta_succ_le h0)
  rw [Nat.mul_assoc] at hnext
  by_contra hq
  have hpow : 10 ^ (decimalLength (quanta m * unitsPerQuantum) + 1) ≤ c * 10 ^ q :=
    (Nat.pow_le_pow_right (by decide) (Nat.lt_of_not_le hq)).trans
      (Nat.le_mul_of_pos_left _ (Nat.pos_of_ne_zero hc))
  rw [pow_succ] at hpow
  omega

/-- **No coarser grid** holds a number that rounds to the double. -/
theorem le_exponent_shortest (hm : m < infiniteMagnitude) (h0 : m ≠ 0)
    (h : IsNearest (c * 10 ^ e) (ofMagnitude m)) : e ≤ (shortest m).exponent := by
  obtain ⟨p, d, heq, -, hcoarser⟩ := exists_shortest_eq m
  rw [heq]
  change e ≤ (p : ℤ) - finestPlace
  by_contra he
  obtain ⟨q, rfl, hpq⟩ : ∃ q : ℕ, e = q - finestPlace ∧ p < q :=
    ⟨(e + finestPlace).toNat, by omega, by omega⟩
  have hc : c ≠ 0 := by
    rintro rfl
    exact h.ne_zero hm.le h0 (by rw [Nat.cast_zero, zero_mul])
  rw [mul_ten_pow_units, ← readsBack_iff hm.le] at h
  exact (isInterval_readsBack hm.le).gridPoint?_ne_none (readsBack_quanta hm.le)
    (Nat.pow_pos (by decide)) h (hcoarser q hpq (place_le_of_readsBack hm h0 hc h))

/-- **No number of the same grid** that rounds to the double is nearer. -/
theorem abs_sub_shortest_le (hm : m < infiniteMagnitude)
    (h : IsNearest ((c : ℚ) * 10 ^ (shortest m).exponent) (ofMagnitude m)) :
    |(quanta m / 2 ^ 1074 - (shortest m).value : ℚ)| ≤
      |(quanta m / 2 ^ 1074 - c * 10 ^ (shortest m).exponent : ℚ)| := by
  obtain ⟨p, d, heq, hpoint, -⟩ := exists_shortest_eq m
  rw [heq] at h ⊢
  have hunits : (0 : ℚ) < 10 ^ finestPlace := pow_pos (by norm_num) _
  rw [Decimal.value, mul_ten_pow_units, mul_ten_pow_units, ← quanta_mul_units, ← sub_div, ← sub_div,
    abs_div, abs_div, div_le_div_iff_of_pos_right (abs_pos.mpr hunits.ne')]
  obtain ⟨hp, hd⟩ | hpoint := hpoint
  · -- on the finest grid there is the value itself
    rw [hp, hd, pow_zero, Nat.mul_one, sub_self, abs_zero]
    exact abs_nonneg _
  · rw [mul_ten_pow_units, ← readsBack_iff hm.le] at h
    exact (isInterval_readsBack hm.le).abs_sub_gridPoint_le (readsBack_quanta hm.le)
      (Nat.pow_pos (by decide)) hpoint h

end Shortest

/-! ## Its digits -/

section Digits

variable {m c : ℕ} {e : ℤ} {v : ℚ}

/-- The number of digits of a magnitude. -/
def digitCount (m : ℕ) : ℕ := (significand m).digits.length

/-- The digits have the place of the shortest decimal; no zeros are left out at their end, since
without them the number would be one of a coarser grid. -/
theorem place_significand (hm : m < infiniteMagnitude) (h0 : m ≠ 0) :
    (significand m).point - digitCount m = (shortest m).exponent := by
  apply le_antisymm
  · exact le_exponent_shortest hm h0 (isNearest_significand hm.le)
  · obtain ⟨k, hk⟩ := exists_stripZeros (toDigits (shortest m).coefficient)
    have hlength := congrArg List.length hk
    rw [List.length_append, List.length_replicate] at hlength
    simp only [digitCount, significand, Decimal.significand]
    omega

/-- The number that the digits stand for. -/
theorem value_significand (hm : m < infiniteMagnitude) (h0 : m ≠ 0) :
    (significand m).value = ofDigits (significand m).digits * 10 ^ (shortest m).exponent := by
  rw [Significand.value, ← place_significand hm h0]
  rfl

theorem digitCount_pos (hm : m < infiniteMagnitude) (h0 : m ≠ 0) : 0 < digitCount m :=
  List.length_pos_of_ne_nil (isNormal_significand hm.le h0).ne_nil

/-- The digits begin at this power of ten. -/
theorem le_value_significand (hm : m < infiniteMagnitude) (h0 : m ≠ 0) :
    (10 : ℚ) ^ ((digitCount m - 1 : ℕ) + (shortest m).exponent) ≤ (significand m).value := by
  have hnormal := isNormal_significand hm.le h0
  have hdigits : (10 ^ (digitCount m - 1) : ℚ) ≤ ofDigits (significand m).digits := by
    exact_mod_cast le_ofDigits hnormal.ne_nil hnormal.head_ne
  rw [value_significand hm h0, zpow_add₀ (by norm_num), zpow_natCast]
  gcongr

/-- **If a number that rounds to the double lies below the first digit**, the power of ten between
the two rounds to it too, and so it is on the grid: there is one digit. -/
theorem digitCount_eq_one (hm : m < infiniteMagnitude) (h0 : m ≠ 0)
    (h : IsNearest v (ofMagnitude m))
    (hv : v ≤ 10 ^ ((digitCount m - 1 : ℕ) + (shortest m).exponent)) :
    digitCount m = 1 ∧ IsNearest (10 ^ (shortest m).exponent) (ofMagnitude m) := by
  have hpower := h.between (isNearest_significand hm.le) hv (le_value_significand hm h0)
  have hplace : ((digitCount m - 1 : ℕ) : ℤ) + (shortest m).exponent ≤ (shortest m).exponent := by
    apply le_exponent_shortest (c := 1) hm h0
    rwa [Nat.cast_one, one_mul]
  have hpos := digitCount_pos hm h0
  have hone : digitCount m = 1 := by omega
  rw [hone] at hpower
  exact ⟨hone, by simpa using hpower⟩

/-- **No decimal with fewer digits** rounds to the double. -/
theorem not_isNearest_of_fewer (hm : m < infiniteMagnitude) (h0 : m ≠ 0)
    (hc : c < 10 ^ (digitCount m - 1)) : ¬ IsNearest (c * 10 ^ e) (ofMagnitude m) := by
  intro h
  have he := le_exponent_shortest hm h0 h
  have hle : (c * 10 ^ e : ℚ) ≤ 10 ^ ((digitCount m - 1 : ℕ) + (shortest m).exponent) := by
    have hc' : (c : ℚ) ≤ 10 ^ (digitCount m - 1) := by exact_mod_cast hc.le
    rw [zpow_add₀ (by norm_num), zpow_natCast]
    gcongr
    norm_num
  obtain ⟨hone, -⟩ := digitCount_eq_one hm h0 h hle
  -- fewer digits than one are those of zero
  rw [hone] at hc
  obtain rfl : c = 0 := Nat.lt_one_iff.mp hc
  exact h.ne_zero hm.le h0 (by rw [Nat.cast_zero, zero_mul])

/-- Nine tenths of a power of ten that rounds to a double are no nearer to it than the power. -/
theorem abs_sub_ten_pow_le (hm : m < infiniteMagnitude) (h0 : m ≠ 0)
    (h : IsNearest (10 ^ e) (ofMagnitude m)) (hv : v ≤ 9 / 10 * 10 ^ e) :
    |(quanta m / 2 ^ 1074 - 10 ^ e : ℚ)| ≤ |(quanta m / 2 ^ 1074 - v : ℚ)| := by
  have hnear := nineteen_mul_le hm h0 h
  have hpos : (0 : ℚ) < 10 ^ e := zpow_pos (by norm_num) e
  generalize (quanta m / 2 ^ 1074 : ℚ) = x at hnear ⊢
  rw [abs_of_nonneg (by linarith : 0 ≤ x - v), abs_le]
  constructor <;> linarith

/-- **No decimal with as many digits** that rounds to the double is nearer. -/
theorem abs_sub_significand_le (hm : m < infiniteMagnitude) (h0 : m ≠ 0)
    (hc : c < 10 ^ digitCount m) (h : IsNearest (c * 10 ^ e) (ofMagnitude m)) :
    |(quanta m / 2 ^ 1074 - (significand m).value : ℚ)| ≤
      |(quanta m / 2 ^ 1074 - c * 10 ^ e : ℚ)| := by
  have hle := le_exponent_shortest hm h0 h
  rw [significand, Decimal.value_significand]
  obtain rfl | hlt := eq_or_lt_of_le hle
  · exact abs_sub_shortest_le hm h
  · -- on a finer grid so many digits stay below the first digit
    have hfiner : (10 : ℚ) ^ e ≤ 10 ^ ((shortest m).exponent - 1) :=
      zpow_le_zpow_right₀ (by norm_num) (by omega)
    rw [zpow_sub_one₀ (by norm_num)] at hfiner
    have hbelow : (c * 10 ^ e : ℚ) ≤ 10 ^ ((digitCount m - 1 : ℕ) + (shortest m).exponent) := by
      obtain ⟨k, hk⟩ := Nat.exists_eq_succ_of_ne_zero (digitCount_pos hm h0).ne'
      rw [hk] at hc ⊢
      have hc' : (c : ℚ) ≤ 10 ^ (k + 1) := by exact_mod_cast hc.le
      calc (c * 10 ^ e : ℚ) ≤ 10 ^ (k + 1) * (10 ^ (shortest m).exponent * 10⁻¹) := by gcongr
        _ = 10 ^ ((k.succ - 1 : ℕ) + (shortest m).exponent) := by
          rw [Nat.succ_sub_one, zpow_add₀ (by norm_num), zpow_natCast, pow_succ]
          ring
    obtain ⟨hone, hpower⟩ := digitCount_eq_one hm h0 h hbelow
    have hnine : (c * 10 ^ e : ℚ) ≤ 9 / 10 * 10 ^ (shortest m).exponent := by
      rw [hone, pow_one] at hc
      have hc' : (c : ℚ) ≤ 9 := by exact_mod_cast Nat.le_of_lt_succ hc
      calc (c * 10 ^ e : ℚ) ≤ 9 * (10 ^ (shortest m).exponent * 10⁻¹) := by gcongr
        _ = 9 / 10 * 10 ^ (shortest m).exponent := by ring
    have hgrid : IsNearest ((1 : ℕ) * 10 ^ (shortest m).exponent) (ofMagnitude m) := by
      rwa [Nat.cast_one, one_mul]
    have hnearest := abs_sub_shortest_le hm hgrid
    rw [Nat.cast_one, one_mul] at hnearest
    exact hnearest.trans (abs_sub_ten_pow_le hm h0 hpower hnine)

end Digits

end ScriptLiteral.Binary64
