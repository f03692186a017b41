import ScriptLiteral.Proofs.ShortestDecimal

/-!
# The numbers that round to a double

If two numbers round to one double, so does every number between them (`IsNearest.between`). The
value of the next double rounds to that one, so all numbers that round to a double lie below it
(`IsNearest.lt_succ`). This bounds the powers of ten that round to a double from above: by a
nineteenth of the double at most (`nineteen_mul_le`), although the least doubles lie so far apart
that the numbers which round to one of them differ by much more.
-/

namespace ScriptLiteral.Binary64

/-! ## Between two numbers -/

section Between

variable {a b p q t v : ℚ} {x : Binary64}

/-- The smaller of two numbers is the nearer one up to their middle. -/
theorem abs_sub_le_iff_of_lt (h : p < q) : |t - p| ≤ |t - q| ↔ 2 * t ≤ p + q := by
  rw [← sq_le_sq]
  constructor
  · intro hsq
    by_contra hmid
    nlinarith
  · intro hmid
    nlinarith

/-- The greater of two numbers is the nearer one from their middle on. -/
theorem abs_sub_le_iff_of_gt (h : q < p) : |t - p| ≤ |t - q| ↔ p + q ≤ 2 * t := by
  rw [← sq_le_sq]
  constructor
  · intro hsq
    by_contra hmid
    nlinarith
  · intro hmid
    nlinarith

/-- What is nearer to two numbers is nearer to all between them, and as near as another only at the
ends. -/
theorem abs_sub_between (hat : a ≤ t) (htb : t ≤ b) (ha : |a - p| ≤ |a - q|)
    (hb : |b - p| ≤ |b - q|) :
    |t - p| ≤ |t - q| ∧ (q ≠ p → |t - p| = |t - q| → t = a ∨ t = b) := by
  obtain h | rfl | h := lt_trichotomy p q
  · rw [abs_sub_le_iff_of_lt h] at ha hb
    refine ⟨(abs_sub_le_iff_of_lt h).mpr (by linarith), fun _ htie => .inr ?_⟩
    have hmid := (abs_sub_le_iff_of_gt h).mp htie.ge
    linarith
  · exact ⟨le_rfl, fun hne => absurd rfl hne⟩
  · rw [abs_sub_le_iff_of_gt h] at ha hb
    refine ⟨(abs_sub_le_iff_of_gt h).mpr (by linarith), fun _ htie => .inl ?_⟩
    have hmid := (abs_sub_le_iff_of_lt h).mp htie.ge
    linarith

/-- **What rounds to a double is an interval.** -/
theorem IsNearest.between (ha : IsNearest a x) (hb : IsNearest b x) (hat : a ≤ t) (htb : t ≤ b) :
    IsNearest t x := by
  have hbound (ht : t < 2 ^ 1024 - 2 ^ 970) :
      a < 2 ^ 1024 - 2 ^ 970 ∧ b < 2 ^ 1024 - 2 ^ 970 :=
    ⟨hat.trans_lt ht, hb.lt_overflow (ha.finite (hat.trans_lt ht))⟩
  refine ⟨ha.positive, fun ht => hb.infinite (ht.trans htb), fun ht => ha.finite (hat.trans_lt ht),
    fun ht y hy => ?_, fun ht y hy hne htie => ?_⟩
  · obtain ⟨hfa, hfb⟩ := hbound ht
    exact (abs_sub_between hat htb (ha.le hfa y hy) (hb.le hfb y hy)).1
  · obtain ⟨hfa, hfb⟩ := hbound ht
    obtain rfl | rfl := (abs_sub_between hat htb (ha.le hfa y hy) (hb.le hfb y hy)).2 hne htie
    · exact ha.even ht y hy hne htie
    · exact hb.even ht y hy hne htie

end Between

/-! ## Below the next double -/

section Next

variable {v : ℚ} {m : ℕ}

/-- **What rounds to a double** is less than the next one. -/
theorem IsNearest.lt_succ (h : IsNearest v (ofMagnitude m)) (hm : m < infiniteMagnitude) :
    v < quanta (m + 1) / 2 ^ 1074 := by
  by_contra hle
  have hnext : (quanta m / 2 ^ 1074 : ℚ) ≤ quanta (m + 1) / 2 ^ 1074 := by
    have hlt := quanta_lt_succ m
    gcongr
  have hsame := ((isNearest_quanta m).between h hnext (not_lt.mp hle)).unique
    (isNearest_quanta (m + 1))
  exact absurd ((ofMagnitude_inj hm.le hm).mp hsame) (Nat.ne_of_lt (Nat.lt_succ_self m))

/-- The next double is at most twice as large. -/
theorem quanta_succ_le (h0 : m ≠ 0) : quanta (m + 1) ≤ 2 * quanta m := by
  obtain ⟨s, k, rfl, hk, h⟩ := exists_step m
  rw [quanta_step (by omega) h, Nat.add_assoc, quanta_step (by omega) (by omega), ← Nat.mul_assoc]
  exact Nat.mul_le_mul_right _ (by omega)

end Next

/-! ## Powers of ten -/

section PowersOfTen

variable {m : ℕ} {e : ℤ}

/-- Two digits of the number of quanta in one. -/
theorem two_pow_1074_bounds : 20 * 10 ^ 322 ≤ 2 ^ 1074 ∧ 2 ^ 1074 ≤ 21 * 10 ^ 322 := by
  decide +kernel

/-- The least power of ten that is a quantum or more holds two quanta and a bit. -/
theorem ten_pow_quanta_bounds :
    (2 : ℚ) ≤ 10 ^ (-323 : ℤ) * 2 ^ 1074 ∧ (10 : ℚ) ^ (-323 : ℤ) * 2 ^ 1074 ≤ 21 / 10 := by
  have hpow : (10 : ℚ) ^ (-323 : ℤ) = 1 / (10 * 10 ^ 322) := by
    rw [show (-323 : ℤ) = -((323 : ℕ) : ℤ) from rfl, zpow_neg, zpow_natCast, pow_succ', one_div]
  have hscale : (0 : ℚ) < 10 * 10 ^ 322 := by positivity
  have hlow : (20 * 10 ^ 322 : ℚ) ≤ 2 ^ 1074 := by exact_mod_cast two_pow_1074_bounds.1
  have hhigh : (2 ^ 1074 : ℚ) ≤ 21 * 10 ^ 322 := by exact_mod_cast two_pow_1074_bounds.2
  rw [hpow, one_div_mul_eq_div, le_div_iff₀ hscale, div_le_div_iff₀ hscale (by norm_num)]
  generalize (2 : ℚ) ^ 1074 = quanta at hlow hhigh ⊢
  generalize (10 : ℚ) ^ 322 = power at hlow hhigh ⊢
  constructor <;> linarith

/-- Powers of ten, in quanta, below the double after one of so few quanta. -/
theorem ten_pow_quanta_le (h0 : m ≠ 0) (hsmall : m < 19) (h : (10 : ℚ) ^ e * 2 ^ 1074 < m + 1) :
    19 * ((10 : ℚ) ^ e * 2 ^ 1074) ≤ 20 * m := by
  have hm : (m : ℚ) ≤ 18 := by exact_mod_cast Nat.le_of_lt_succ hsmall
  have hone : (1 : ℚ) ≤ m := by exact_mod_cast Nat.one_le_iff_ne_zero.mpr h0
  obtain ⟨hlow, hhigh⟩ := ten_pow_quanta_bounds
  -- the power of ten as a multiple of the one that holds two quanta and a bit
  have hshift : (10 : ℚ) ^ e * 2 ^ 1074 = 10 ^ (e + 323) * (10 ^ (-323 : ℤ) * 2 ^ 1074) := by
    rw [← mul_assoc, ← zpow_add₀ (by norm_num), add_neg_cancel_right]
  rw [hshift] at h ⊢
  generalize (10 : ℚ) ^ (-323 : ℤ) * 2 ^ 1074 = unit at h hlow hhigh ⊢
  have hunit : 0 ≤ unit := by linarith
  obtain he | rfl | he := lt_trichotomy e (-323)
  · -- less than a quantum
    have hpow : (10 : ℚ) ^ (e + 323) ≤ 10 ^ (-1 : ℤ) :=
      zpow_le_zpow_right₀ (by norm_num) (by omega)
    have hle := mul_le_mul_of_nonneg_right hpow hunit
    norm_num at hle
    linarith
  · -- two quanta and a bit
    rw [neg_add_cancel, zpow_zero, one_mul] at h ⊢
    have htwo : (1 : ℚ) < m := by linarith
    have htwo' : (2 : ℚ) ≤ m := by
      have hlt : 1 < m := by exact_mod_cast htwo
      exact_mod_cast hlt
    linarith
  · -- too many quanta
    have hpow : (10 : ℚ) ^ (1 : ℤ) ≤ 10 ^ (e + 323) :=
      zpow_le_zpow_right₀ (by norm_num) (by omega)
    have hle := mul_le_mul_of_nonneg_right hpow hunit
    rw [zpow_one] at hle
    linarith

/-- **A power of ten** that rounds to a double exceeds it by no more than a nineteenth of it. -/
theorem nineteen_mul_le (hm : m < infiniteMagnitude) (h0 : m ≠ 0)
    (h : IsNearest (10 ^ e) (ofMagnitude m)) : 19 * (10 : ℚ) ^ e ≤ 20 * (quanta m / 2 ^ 1074) := by
  have hpos : (0 : ℚ) < 2 ^ 1074 := pow_pos two_pos _
  have hlt := h.lt_succ hm
  rw [lt_div_iff₀ hpos] at hlt
  rw [mul_div_assoc', le_div_iff₀ hpos, mul_assoc]
  obtain ⟨s, k, rfl, hk, hs⟩ := exists_step m
  rw [Nat.add_assoc, quanta_step (by omega) (by omega)] at hlt
  rw [quanta_step (by omega) hs]
  push_cast at hlt ⊢
  obtain hsmall | hlarge := Nat.lt_or_ge k 19
  · obtain rfl : s = 0 := by omega
    rw [pow_zero, mul_one] at hlt ⊢
    exact ten_pow_quanta_le (by omega) hsmall hlt
  · -- a step is small against so many of them
    have hstep : (19 : ℚ) * 2 ^ s ≤ k * 2 ^ s := by
      gcongr
      exact_mod_cast hlarge
    generalize (10 : ℚ) ^ e * 2 ^ 1074 = w at hlt ⊢
    linarith

end PowersOfTen

end ScriptLiteral.Binary64
