import ScriptLiteral.Proofs.NumeralGrammar

/-!
# The value of a numeric literal

Separators are left out of the text wherever they stand, and what is left is a numeral or it is not.
If it is one, the value is the double nearest to the number it denotes, whatever its length, the
zeros in front of it and the size of its exponent (`numberValue_of_isDecimal`,
`numberValue_of_isPrefixed`). As there is one nearest double, all numerals of a number have the same
bits, in whichever base they are written.
-/

namespace ScriptLiteral

open Binary64 (IsNearest)

/-! ## What the nearest double tells -/

namespace Binary64

variable {v : ℚ} {x : Binary64}

/-- From half a step above the greatest finite value on, the bits are those of infinity. -/
theorem IsNearest.toBits_of_overflow (h : IsNearest v x) (hv : 2 ^ 1024 - 2 ^ 970 ≤ v) :
    x.toBits = 0x7FF0000000000000 := by
  rw [h.unique (.of_overflow hv le_rfl)]
  decide

/-- Up to half the least positive value, the bits are those of zero. -/
theorem IsNearest.toBits_of_underflow (h : IsNearest v x) (h0 : 0 ≤ v) (hv : v ≤ 1 / 2 ^ 1075) :
    x.toBits = 0 := by
  rw [h.unique (.zero h0 hv)]
  decide

/-- The nearest double is finite just below the numbers that go to infinity. -/
theorem IsNearest.isFinite_iff (h : IsNearest v x) :
    x.isFinite = true ↔ v < 2 ^ 1024 - 2 ^ 970 := by
  refine ⟨fun hx => ?_, h.finite⟩
  by_contra hv
  have hinf := of_decide_eq_true (h.infinite (not_lt.mp hv))
  exact (of_decide_eq_true hx).ne hinf

/-- The nearest double is a number. -/
theorem IsNearest.isNaN_eq_false (h : IsNearest v x) : x.isNaN = false := by
  refine decide_eq_false (not_lt.mpr ?_)
  obtain hv | hv := le_or_gt (2 ^ 1024 - 2 ^ 970) v
  · exact (of_decide_eq_true (h.infinite hv)).le
  · exact (of_decide_eq_true (h.finite hv)).le

end Binary64

/-! ## Literals -/

section Literal

variable {text : String} {v : ℚ} {n : ℕ}

/-- A literal that is a numeral has the nearest double as its value, and no warning is given. -/
theorem IsNumeral.numberValue (h : IsNumeral (withoutSeparators text) v) :
    ∃ x, numberValue text = pure x ∧ IsNearest v x := by
  obtain ⟨x, hx, hnear⟩ := h.exists_value
  refine ⟨x, ?_, hnear⟩
  rw [ScriptLiteral.numberValue, hx]

/-- **Decimal literals are correctly rounded.** -/
theorem numberValue_of_isDecimal (h : IsDecimal (text.toList.filter (· ≠ '_')) v) :
    IsNearest v (numberValue text).value ∧
      (2 ^ 1024 - 2 ^ 970 ≤ v → (numberValue text).value.toBits = 0x7FF0000000000000) ∧
      (v ≤ 1 / 2 ^ 1075 → (numberValue text).value.toBits = 0) ∧
      (numberValue text).value.negative = false ∧ (numberValue text).value.isNaN = false := by
  have hnum : IsNumeral (withoutSeparators text) v := .decimal h
  obtain ⟨x, hx, hnear⟩ := hnum.numberValue
  rw [hx]
  exact ⟨hnear, hnear.toBits_of_overflow, hnear.toBits_of_underflow hnum.nonneg, hnear.positive,
    hnear.isNaN_eq_false⟩

/-- A number half-way between two doubles. -/
theorem numberValue_decimal_half :
    IsDecimal ("900_7199_2547_4099_3.0e+0".toList.filter (· ≠ '_')) 9007199254740993 ∧
      IsNearest 9007199254740993 (numberValue "900_7199_2547_4099_3.0e+0").value := by
  have h : IsDecimal ("900_7199_2547_4099_3.0e+0".toList.filter (· ≠ '_')) 9007199254740993 :=
    isDecimal_iff.mpr ⟨⟨90071992547409930, -1⟩, by decide, by norm_num [Decimal.value]⟩
  exact ⟨h, (numberValue_of_isDecimal h).1⟩

/-- **Literals in other bases are correctly rounded.** -/
theorem numberValue_of_isPrefixed (h : IsPrefixed (text.toList.filter (· ≠ '_')) n) :
    IsNearest n (numberValue text).value ∧
      ((numberValue text).value.isFinite = true ↔ (n : ℚ) < 2 ^ 1024 - 2 ^ 970) ∧
      (2 ^ 1024 - 2 ^ 970 ≤ (n : ℚ) → (numberValue text).value.toBits = 0x7FF0000000000000) ∧
      ∀ other : String, IsNumeral (other.toList.filter (· ≠ '_')) n →
        (numberValue other).value.toBits = (numberValue text).value.toBits := by
  obtain ⟨x, hx, hnear⟩ := IsNumeral.numberValue (.natural h)
  rw [hx]
  refine ⟨hnear, hnear.isFinite_iff, hnear.toBits_of_overflow, fun other hother => ?_⟩
  obtain ⟨y, hy, hnear'⟩ := hother.numberValue
  rw [hy]
  exact congrArg Binary64.toBits (hnear'.unique hnear)

/-- The same number in base sixteen. -/
theorem numberValue_hexadecimal_half :
    IsPrefixed ("0X_20_0000_0000_0001".toList.filter (· ≠ '_')) 9007199254740993 ∧
      IsNearest (9007199254740993 : ℕ) (numberValue "0X_20_0000_0000_0001").value := by
  have h : IsPrefixed ("0X_20_0000_0000_0001".toList.filter (· ≠ '_')) 9007199254740993 :=
    isPrefixed_iff.mpr ⟨.hexadecimal, "20000000000001".toList, by decide, by decide⟩
  exact ⟨h, (numberValue_of_isPrefixed h).1⟩

end Literal

end ScriptLiteral
