import ScriptLiteral.Decimal.Printed
import ScriptLiteral.Proofs.Notation

/-!
# Printed numbers taken apart

A printer of numbers may put the point anywhere, write zeros on either side and make up for it by a
power of ten. `IsPrinted` says which texts it may print and which number they denote. Taking such a
text apart finds the digits between the zeros, and they denote the same number (`IsPrinted.exact`):
what a layout moves the point by, the zeros in front and the power of ten move it back.

All layouts of a number are texts of this kind, also without the plus sign in front of the power of
ten (`Significand.IsNormal.isPrinted_write`). As normal forms are unique, the digits that are found
in one are those that were laid out (`Significand.IsNormal.ofPrinted_plain`), as long as the power
of ten fits into 32 bits.
-/

namespace ScriptLiteral

/-! ## Printed numbers -/

/-- The text is a number as a printer may lay it out: a mantissa and perhaps a power of ten that
fits into 32 bits. -/
inductive IsPrinted : List Char → ℚ → Prop
  /-- a mantissa alone -/
  | plain {m : ℚ} {ms : List Char} (hms : IsMantissa ms m) : IsPrinted ms m
  /-- a mantissa scaled by a power of ten -/
  | scaled {m : ℚ} {k : ℤ} {ms cs : List Char} (hms : IsMantissa ms m) (hcs : IsInteger cs k)
      (hlow : -2 ^ 31 ≤ k) (hhigh : k < 2 ^ 31) : IsPrinted (ms ++ 'e' :: cs) (m * 10 ^ k)

section Printed

variable {m v : ℚ} {cs ms text : List Char} {ds : List (Fin 10)}

/-- The digits of a text are found in it. -/
theorem filterMap_of_digits? (h : digits? 10 cs = some ds) : cs.filterMap (digit? 10) = ds := by
  induction cs generalizing ds with
  | nil =>
    cases h
    rfl
  | cons c cs ih =>
    obtain ⟨d, es, hd, hes, rfl⟩ := digits?_cons_eq_some_iff.mp h
    rw [List.filterMap_cons_some hd, ih hes]

/-- A mantissa is split at its point, and its digits denote it once the point has moved. -/
theorem IsMantissa.exists_split (h : IsMantissa ms m) :
    ∃ ws fs whole fraction, splitAtFirst '.' ms = (ws, fs) ∧ digits? 10 ws = some whole ∧
      digits? 10 (fs.getD []) = some fraction ∧
      (ofDigits (whole ++ fraction) : ℚ) = m * 10 ^ fraction.length := by
  have hpoint : digit? 10 '.' = none := by decide
  cases h with
  | whole hne hws =>
    obtain ⟨whole, hwhole, rfl⟩ := denotes_iff.mp hws
    refine ⟨ms, none, whole, [], splitAtFirst_of_not_mem (hws.not_mem hpoint), hwhole, rfl, ?_⟩
    rw [List.append_nil, List.length_nil, pow_zero, mul_one]
  | @pointed _ _ ws fs hne hws hfs =>
    obtain ⟨whole, hwhole, rfl⟩ := denotes_iff.mp hws
    obtain ⟨fraction, hfraction, rfl⟩ := denotes_iff.mp hfs
    refine ⟨ws, some fs, whole, fraction, splitAtFirst_append (hws.not_mem hpoint), hwhole,
      hfraction, ?_⟩
    rw [cast_ofDigits_append, length_of_digits? hfraction]
  | @fraction _ fs hne hfs =>
    obtain ⟨fraction, hfraction, rfl⟩ := denotes_iff.mp hfs
    refine ⟨[], some fs, [], fraction, splitAtFirst_append List.not_mem_nil, rfl, hfraction, ?_⟩
    rw [cast_ofDigits_append, length_of_digits? hfraction, ofDigits_nil, Nat.cast_zero, zero_add]

/-- No letter stands in a mantissa. -/
theorem IsMantissa.not_mem (h : IsMantissa ms m) : 'e' ∉ ms := by
  have hletter : digit? 10 'e' = none := by decide
  cases h with
  | whole hne hws => exact hws.not_mem hletter
  | pointed hne hws hfs =>
    rw [List.mem_append, not_or]
    exact ⟨hws.not_mem hletter,
      List.not_mem_cons_of_ne_of_not_mem (by decide) (hfs.not_mem hletter)⟩
  | fraction hne hfs => exact List.not_mem_cons_of_ne_of_not_mem (by decide) (hfs.not_mem hletter)

/-- A printed number is split in front of its power of ten, which is read as what it is. -/
theorem IsPrinted.exists_split (h : IsPrinted text v) :
    ∃ ms m power, splitAtFirst 'e' text = (ms, power) ∧ IsMantissa ms m ∧
      m * 10 ^ (power.map Significand.powerOfTen).getD 0 = v := by
  cases h with
  | plain hms =>
    refine ⟨text, v, none, splitAtFirst_of_not_mem hms.not_mem, hms, ?_⟩
    rw [Option.map_none, Option.getD_none, zpow_zero, mul_one]
  | @scaled m k ms cs hms hcs hlow hhigh =>
    refine ⟨ms, m, some cs, splitAtFirst_append hms.not_mem, hms, ?_⟩
    have hpower : Significand.powerOfTen cs = k := by
      rw [Significand.powerOfTen, readInteger?_eq_some_iff.mpr hcs]
      exact if_pos ⟨hlow, hhigh⟩
    rw [Option.map_some, Option.getD_some, hpower]

/-! ## Taking them apart -/

/-- Digits without the zeros at their ends are in normal form, wherever the point stands. -/
theorem isNormal_between_zeros (h : ofDigits ds ≠ 0) (n : ℤ) :
    Significand.IsNormal ⟨Decimal.stripZeros (ds.dropWhile (· = 0)), n⟩ := by
  have hne : ds.dropWhile (· = 0) ≠ [] := by
    intro hnil
    obtain ⟨k, hk⟩ := exists_dropWhile_zeros ds
    rw [hk, ofDigits_zeros_append, hnil] at h
    exact h rfl
  obtain ⟨hstripped, hhead⟩ := head?_stripZeros hne (head?_dropWhile_zeros ds)
  refine ⟨hstripped, ?_, getLast?_stripZeros _⟩
  rw [hhead]
  exact head?_dropWhile_zeros ds

/-- They denote the same number if the point moves by the zeros in front. -/
theorem value_between_zeros (ds : List (Fin 10)) (n : ℤ) :
    Significand.value ⟨Decimal.stripZeros (ds.dropWhile (· = 0)),
      n - (ds.length - (ds.dropWhile (· = 0)).length : ℕ)⟩ =
    Decimal.value ⟨ofDigits ds, n - ds.length⟩ := by
  obtain ⟨front, hfront⟩ := exists_dropWhile_zeros ds
  obtain ⟨back, hback⟩ := exists_stripZeros (ds.dropWhile (· = 0))
  refine (Significand.value_of_coefficient (k := back) ?_ ?_).symm
  · conv_lhs => rw [hfront, ofDigits_zeros_append, hback]
    exact ofDigits_append_zeros _ back
  · have hlength := congrArg List.length hfront
    have hlength' := congrArg List.length hback
    rw [List.length_append, List.length_replicate] at hlength hlength'
    dsimp only
    omega

/-- **Printed numbers are read exactly.** What is taken out of one is in normal form and has the
value that the text denotes. -/
theorem IsPrinted.exact (h : IsPrinted text v) (hv : v ≠ 0) :
    (Significand.ofPrinted text).IsNormal ∧ (Significand.ofPrinted text).value = v := by
  obtain ⟨ms, m, power, hsplit, hms, rfl⟩ := h.exists_split
  obtain ⟨ws, fs, whole, fraction, hpoint, hwhole, hfraction, hvalue⟩ := hms.exists_split
  have hne : ofDigits (whole ++ fraction) ≠ 0 := by
    intro hzero
    rw [hzero, Nat.cast_zero] at hvalue
    have hpow : (10 : ℚ) ^ fraction.length ≠ 0 := pow_ne_zero _ (by norm_num)
    exact mul_ne_zero (left_ne_zero_of_mul hv) hpow hvalue.symm
  simp only [Significand.ofPrinted, hsplit, hpoint]
  rw [List.filterMap_append, filterMap_of_digits? hwhole, filterMap_of_digits? hfraction,
    ← length_of_digits? hwhole, sub_add_eq_add_sub]
  refine ⟨isNormal_between_zeros hne _, ?_⟩
  rw [value_between_zeros, ← value_of_shift hvalue, List.length_append, Nat.cast_add,
    add_sub_add_left_eq_sub]

end Printed

/-! ## Numerals in parts -/

namespace NumeralParts

/-- Digits have no sign among them. -/
theorem filter_map_digitChar (ds : List (Fin 10)) :
    (ds.map digitChar).filter (· ≠ '+') = ds.map digitChar := by
  have hplus : digit? 10 '+' = none := by decide
  rw [List.filter_eq_self]
  intro c hc
  exact decide_eq_true fun h => (denotes_map_digitChar ds).not_mem hplus (h ▸ hc)

/-- The power of ten without a plus sign. -/
def plainExponentText (p : NumeralParts) : List Char := p.exponentText.filter (· ≠ '+')

variable (p : NumeralParts)

theorem filter_text :
    p.text.filter (· ≠ '+') =
      p.whole.map digitChar ++ (p.fractionText ++ p.plainExponentText) := by
  have hfraction : p.fractionText.filter (· ≠ '+') = p.fractionText := by
    unfold fractionText
    split
    · rfl
    · rw [List.filter_cons_of_pos (by decide), filter_map_digitChar]
  rw [text, List.filter_append, List.filter_append, filter_map_digitChar, hfraction,
    plainExponentText]

/-- There is no power of ten, or it is read as what it is. -/
theorem plainExponentText_cases :
    p.exponent = none ∧ p.plainExponentText = [] ∨
      ∃ e cs, p.exponent = some e ∧ p.plainExponentText = 'e' :: cs ∧ IsInteger cs e := by
  rw [plainExponentText, exponentText]
  cases p.exponent with
  | none => exact .inl ⟨rfl, rfl⟩
  | some e =>
    have hne : (toDigits e.natAbs).map digitChar ≠ [] :=
      mt List.map_eq_nil_iff.mp (toDigits_ne_nil _)
    have hdigits := denotes_map_digitChar (toDigits e.natAbs)
    rw [ofDigits_toDigits] at hdigits
    rw [Option.map_some, Option.getD_some, Significand.exponentPart,
      List.filter_cons_of_pos (by decide)]
    obtain he | he := lt_or_ge e 0
    · have hinteger := IsInteger.minus hne hdigits
      rw [show -(e.natAbs : ℤ) = e by omega] at hinteger
      rw [if_pos he, List.filter_cons_of_pos (by decide), filter_map_digitChar]
      exact .inr ⟨e, _, rfl, rfl, hinteger⟩
    · have hinteger := IsInteger.unsigned hne hdigits
      rw [show (e.natAbs : ℤ) = e by omega] at hinteger
      rw [if_neg (not_lt.mpr he), List.filter_cons_of_neg (by decide), filter_map_digitChar]
      exact .inr ⟨e, _, rfl, rfl, hinteger⟩

/-- The digits around a point are a mantissa. -/
theorem isMantissa (hne : p.whole ≠ []) :
    IsMantissa (p.whole.map digitChar ++ p.fractionText)
      (ofDigits p.whole + ofDigits p.fraction / 10 ^ p.fraction.length) := by
  have hwhole : p.whole.map digitChar ≠ [] := mt List.map_eq_nil_iff.mp hne
  unfold fractionText
  split
  · next h =>
    have hplain := IsMantissa.whole hwhole (denotes_map_digitChar p.whole)
    rw [h, ofDigits_nil, Nat.cast_zero, zero_div, add_zero, List.append_nil]
    exact hplain
  · have hpointed := IsMantissa.pointed hwhole (denotes_map_digitChar p.whole)
      (denotes_map_digitChar p.fraction)
    rwa [List.length_map] at hpointed

/-- A numeral in parts denotes what it is read as, also when no plus sign is written. -/
theorem isPrinted_text (hne : p.whole ≠ [])
    (hrange : ∀ e ∈ p.exponent, -2 ^ 31 ≤ e ∧ e < 2 ^ 31) :
    IsPrinted (p.text.filter (· ≠ '+')) p.decimal.value := by
  have hmantissa := p.isMantissa hne
  have hvalue := value_of_shift (cast_ofDigits_append p.whole p.fraction) (p.exponent.getD 0)
  rw [decimal, hvalue, filter_text, ← List.append_assoc]
  obtain ⟨hexponent, htext⟩ | ⟨e, cs, hexponent, htext, hcs⟩ := p.plainExponentText_cases
  · rw [hexponent, htext, Option.getD_none, zpow_zero, mul_one, List.append_nil]
    exact .plain hmantissa
  · rw [hexponent] at hrange
    obtain ⟨hlow, hhigh⟩ := hrange e rfl
    rw [hexponent, htext, Option.getD_some]
    exact .scaled hmantissa hcs hlow hhigh

end NumeralParts

/-! ## Printing and taking apart -/

namespace Significand

variable {s : Significand}

/-- A power of ten that is written has the place of the first digit. -/
theorem eq_of_mem_exponent_parts {l : Layout} {e : ℤ} (he : e ∈ (s.parts l).exponent) :
    e = s.point - 1 := by
  unfold parts at he
  split at he
  · split at he
    · cases he
    · split at he <;> cases he
  · cases he
    rfl

/-- **Every layout** of a number in normal form is a printed number, and denotes it. -/
theorem IsNormal.isPrinted_write (hs : s.IsNormal) (l : Layout) (hlow : -2 ^ 31 < s.point)
    (hhigh : s.point ≤ 2 ^ 31) : IsPrinted ((s.write l).filter (· ≠ '+')) s.value := by
  rw [write_eq_text l hs.ne_nil, ← value_parts l hs.ne_nil]
  refine (s.parts l).isPrinted_text (hs.isStrict_parts l).ne_nil fun e he => ?_
  rw [eq_of_mem_exponent_parts he]
  omega

/-- **What was printed is found again.** -/
theorem IsNormal.ofPrinted_plain (hs : s.IsNormal) (hlow : -2 ^ 31 < s.point)
    (hhigh : s.point ≤ 2 ^ 31) : ofPrinted s.plain = s := by
  obtain ⟨hnormal, hvalue⟩ := (hs.isPrinted_write .json hlow hhigh).exact hs.value_ne_zero
  exact hnormal.eq_of_value_eq hs hvalue

end Significand

end ScriptLiteral
