import ScriptLiteral.Literal.Numeral
import ScriptLiteral.Proofs.NearestDouble

/-!
# The grammar of numerals

What a numeral may be and which number it denotes, said without a reader. The number is exact: a
rational for a decimal numeral, a natural number for one with the mark of another base. Rounding
has no part in it.

The readers accept just these texts. Each of them is taken up to the end of what it reads, with
the text after it left open, and `isDecimal_iff` and `isPrefixed_iff` put the parts together. That a
numeral is of one kind only is due to the second character (`Decimal.read?_of_mark`).
-/

namespace ScriptLiteral

/-! ## The grammar -/

/-- The letters that tell the base after a leading zero, with the base. -/
def radixMarks : List (Char × ℕ) :=
  [('x', 16), ('X', 16), ('o', 8), ('O', 8), ('b', 2), ('B', 2)]

/-- The text is a natural number in the base that its second character tells. -/
inductive IsPrefixed : List Char → ℕ → Prop
  /-- a zero, the mark of the base and at least one digit -/
  | intro {c : Char} {base n : ℕ} {cs : List Char} (hc : (c, base) ∈ radixMarks) (hne : cs ≠ [])
      (hcs : Denotes base cs n) : IsPrefixed ('0' :: c :: cs) n

/-- The text is an integer: at least one digit, and a sign in front if need be. -/
inductive IsInteger : List Char → ℤ → Prop
  /-- digits alone -/
  | unsigned {n : ℕ} {cs : List Char} (hne : cs ≠ []) (hcs : Denotes 10 cs n) : IsInteger cs n
  /-- a plus sign changes nothing -/
  | plus {n : ℕ} {cs : List Char} (hne : cs ≠ []) (hcs : Denotes 10 cs n) :
      IsInteger ('+' :: cs) n
  /-- a minus sign -/
  | minus {n : ℕ} {cs : List Char} (hne : cs ≠ []) (hcs : Denotes 10 cs n) :
      IsInteger ('-' :: cs) (-n)

/-- The text is the exponent of a numeral, or empty where the numeral has none. -/
inductive IsExponent : List Char → ℤ → Prop
  /-- no exponent counts as zero -/
  | absent : IsExponent [] 0
  /-- the letter in either case and an integer -/
  | present {c : Char} {k : ℤ} {cs : List Char} (hc : c = 'e' ∨ c = 'E') (hcs : IsInteger cs k) :
      IsExponent (c :: cs) k

/-- The text is the part of a decimal numeral in front of the exponent. -/
inductive IsMantissa : List Char → ℚ → Prop
  /-- digits without a point -/
  | whole {w : ℕ} {ws : List Char} (hne : ws ≠ []) (hws : Denotes 10 ws w) : IsMantissa ws w
  /-- digits, a point and the digits of a fraction, of which there may be none -/
  | pointed {w f : ℕ} {ws fs : List Char} (hne : ws ≠ []) (hws : Denotes 10 ws w)
      (hfs : Denotes 10 fs f) : IsMantissa (ws ++ '.' :: fs) (w + f / 10 ^ fs.length)
  /-- a point and the digits of a fraction -/
  | fraction {f : ℕ} {fs : List Char} (hne : fs ≠ []) (hfs : Denotes 10 fs f) :
      IsMantissa ('.' :: fs) (f / 10 ^ fs.length)

/-- The text is a decimal numeral and denotes the number. -/
inductive IsDecimal : List Char → ℚ → Prop
  /-- a mantissa scaled by a power of ten -/
  | intro {m : ℚ} {k : ℤ} {ms es : List Char} (hms : IsMantissa ms m) (hes : IsExponent es k) :
      IsDecimal (ms ++ es) (m * 10 ^ k)

/-! ## Integers and exponents -/

section Exponent

variable {k : ℤ} {cs rest : List Char}

/-- A text is read as a natural number if it consists of digits. -/
theorem natural?_eq_some_iff :
    Decimal.readInteger?.natural? cs = some k ↔ cs ≠ [] ∧ ∃ n : ℕ, Denotes 10 cs n ∧ k = n := by
  refine ⟨?_, ?_⟩
  · intro h
    rw [Decimal.readInteger?.natural?] at h
    split at h
    · cases h
    · next fs hne hspan =>
      obtain ⟨ds, hcs, hds, -⟩ := exists_of_spanDigits hspan
      rw [List.append_nil] at hcs
      subst hcs
      refine ⟨?_, ofDigits fs, denotes_iff.mpr ⟨fs, hds, rfl⟩, (Option.some.inj h).symm⟩
      rintro rfl
      cases hds
      exact hne rfl
    · cases h
  · rintro ⟨hne, n, hcs, rfl⟩
    obtain ⟨fs, hfs, rfl⟩ := denotes_iff.mp hcs
    rw [Decimal.readInteger?.natural?, spanDigits_of_digits? hfs]
    cases fs with
    | nil => exact absurd (List.eq_nil_of_length_eq_zero (length_of_digits? hfs).symm) hne
    | cons f fs => rfl

/-- A text that begins with a sign is no natural number. -/
theorem natural?_cons_eq_none {c : Char} (h : digit? 10 c = none) :
    Decimal.readInteger?.natural? (c :: cs) = none := by
  rw [Decimal.readInteger?.natural?, spanDigits, h]

theorem readInteger?_eq_some_iff : Decimal.readInteger? cs = some k ↔ IsInteger cs k := by
  refine ⟨?_, ?_⟩
  · intro h
    unfold Decimal.readInteger? at h
    split at h
    · obtain ⟨hne, n, hcs, rfl⟩ := natural?_eq_some_iff.mp h
      exact .plus hne hcs
    · obtain ⟨j, hj, rfl⟩ := Option.map_eq_some_iff.mp h
      obtain ⟨hne, n, hcs, rfl⟩ := natural?_eq_some_iff.mp hj
      exact .minus hne hcs
    · obtain ⟨hne, n, hcs, rfl⟩ := natural?_eq_some_iff.mp h
      exact .unsigned hne hcs
  · intro h
    cases h with
    | @unsigned n cs hne hcs =>
      -- a text of digits begins with no sign
      have hn := natural?_eq_some_iff.mpr ⟨hne, n, hcs, rfl⟩
      unfold Decimal.readInteger?
      split
      · rw [natural?_cons_eq_none (by decide)] at hn
        cases hn
      · rw [natural?_cons_eq_none (by decide)] at hn
        cases hn
      · exact hn
    | plus hne hcs => exact natural?_eq_some_iff.mpr ⟨hne, _, hcs, rfl⟩
    | minus hne hcs =>
      rw [Decimal.readInteger?, natural?_eq_some_iff.mpr ⟨hne, _, hcs, rfl⟩, Option.map_some]

theorem readExponent?_eq_some_iff : Decimal.readExponent? cs = some k ↔ IsExponent cs k := by
  refine ⟨?_, ?_⟩
  · intro h
    cases cs with
    | nil =>
      cases h
      exact .absent
    | cons c cs =>
      rw [Decimal.readExponent?] at h
      split at h
      · next hc => exact .present hc (readInteger?_eq_some_iff.mp h)
      · cases h
  · intro h
    cases h with
    | absent => rfl
    | present hc hcs => rw [Decimal.readExponent?, if_pos hc, readInteger?_eq_some_iff.mpr hcs]

end Exponent

/-! ## Decimal numerals -/

section Decimal

variable {m v : ℚ} {k : ℤ} {cs ms es rest tail : List Char} {whole fraction : List (Fin 10)}

/-- The text can follow a mantissa: it begins with no digit and no point. -/
def Follows (rest : List Char) : Prop := NoDigit rest ∧ rest.head? ≠ some '.'

theorem follows_cons {c : Char} (hdigit : digit? 10 c = none) (hpoint : c ≠ '.') :
    Follows (c :: rest) :=
  ⟨noDigit_cons hdigit, fun h => hpoint (Option.some.inj h)⟩

theorem IsExponent.follows (h : IsExponent es k) : Follows es := by
  cases h with
  | absent => exact ⟨noDigit_nil, by decide⟩
  | present hc _ =>
    obtain rfl | rfl := hc
    · exact follows_cons (by decide) (by decide)
    · exact follows_cons (by decide) (by decide)

/-- Where no point stands, there is no fraction. -/
theorem spanFraction_of_follows (h : rest.head? ≠ some '.') :
    Decimal.spanFraction rest = ([], rest) := by
  unfold Decimal.spanFraction
  split
  · exact absurd rfl h
  · rfl

/-- The digits before and after the point make up the mantissa, once the point has moved. -/
theorem cast_ofDigits_append (whole fraction : List (Fin 10)) :
    (ofDigits (whole ++ fraction) : ℚ) =
      (ofDigits whole + ofDigits fraction / 10 ^ fraction.length) * 10 ^ fraction.length := by
  have hpow : (10 : ℚ) ^ fraction.length ≠ 0 := pow_ne_zero _ (by norm_num)
  rw [ofDigits_append, add_mul, div_mul_cancel₀ _ hpow]
  push_cast
  rfl

/-- The digits that are read of a mantissa: those before the point and those after it. -/
theorem spans_of_isMantissa (h : IsMantissa ms m) (hrest : Follows rest) :
    ∃ whole fraction tail, spanDigits (ms ++ rest) = (whole, tail) ∧
      Decimal.spanFraction tail = (fraction, rest) ∧ (whole ≠ [] ∨ fraction ≠ []) ∧
      (ofDigits (whole ++ fraction) : ℚ) = m * 10 ^ fraction.length := by
  obtain ⟨hdigit, hpoint⟩ := hrest
  cases h with
  | whole hne hws =>
    obtain ⟨whole, hwhole, rfl⟩ := denotes_iff.mp hws
    refine ⟨whole, [], rest, spanDigits_append hwhole hdigit, spanFraction_of_follows hpoint,
      .inl (ne_nil_of_digits? hwhole hne), ?_⟩
    rw [List.append_nil, List.length_nil, pow_zero, mul_one]
  | @pointed _ _ ws fs hne hws hfs =>
    obtain ⟨whole, hwhole, rfl⟩ := denotes_iff.mp hws
    obtain ⟨fraction, hfraction, rfl⟩ := denotes_iff.mp hfs
    refine ⟨whole, fraction, '.' :: (fs ++ rest), ?_, spanDigits_append hfraction hdigit,
      .inl (ne_nil_of_digits? hwhole hne), ?_⟩
    · rw [List.append_assoc, List.cons_append]
      exact spanDigits_append hwhole (noDigit_cons (by decide))
    · rw [cast_ofDigits_append, length_of_digits? hfraction]
  | @fraction _ fs hne hfs =>
    obtain ⟨fraction, hfraction, rfl⟩ := denotes_iff.mp hfs
    refine ⟨[], fraction, '.' :: (fs ++ rest), ?_, spanDigits_append hfraction hdigit,
      .inr (ne_nil_of_digits? hfraction hne), ?_⟩
    · exact spanDigits_append (show digits? 10 [] = some [] from rfl) (noDigit_cons (by decide))
    · rw [cast_ofDigits_append, length_of_digits? hfraction, ofDigits_nil, Nat.cast_zero, zero_add]

/-- What was read as digits with a point among or beside them is a mantissa. -/
theorem isMantissa_of_spans (hwhole : spanDigits cs = (whole, tail))
    (hfraction : Decimal.spanFraction tail = (fraction, rest))
    (hne : whole ≠ [] ∨ fraction ≠ []) :
    ∃ ms m, cs = ms ++ rest ∧ IsMantissa ms m ∧
      (ofDigits (whole ++ fraction) : ℚ) = m * 10 ^ fraction.length := by
  obtain ⟨ws, rfl, hws, -⟩ := exists_of_spanDigits hwhole
  have hw := denotes_iff.mpr ⟨whole, hws, rfl⟩
  unfold Decimal.spanFraction at hfraction
  split at hfraction
  · obtain ⟨fs, rfl, hfs, -⟩ := exists_of_spanDigits hfraction
    have hf := denotes_iff.mpr ⟨fraction, hfs, rfl⟩
    rw [cast_ofDigits_append, length_of_digits? hfs]
    -- digits on one side of the point are enough
    by_cases hnil : ws = []
    · subst hnil
      cases hws
      refine ⟨'.' :: fs, _, rfl, .fraction ?_ hf, ?_⟩
      · rintro rfl
        cases hfs
        exact absurd rfl (hne.resolve_left (not_not.mpr rfl))
      · rw [ofDigits_nil, Nat.cast_zero, zero_add]
    · refine ⟨ws ++ '.' :: fs, _, ?_, .pointed hnil hw hf, rfl⟩
      rw [List.append_assoc, List.cons_append]
  · cases hfraction
    refine ⟨ws, _, rfl, .whole ?_ hw, ?_⟩
    · rintro rfl
      cases hws
      exact absurd rfl (hne.resolve_right (not_not.mpr rfl))
    · rw [List.append_nil, List.length_nil, pow_zero, mul_one]

/-- Reading a text whose digits before and after the point are known. -/
theorem read?_of_spans (hwhole : spanDigits cs = (whole, tail))
    (hfraction : Decimal.spanFraction tail = (fraction, rest)) :
    Decimal.read? cs =
      if whole = [] ∧ fraction = [] then none
      else (Decimal.readExponent? rest).map fun e =>
        ⟨ofDigits (whole ++ fraction), e - fraction.length⟩ := by
  simp only [Decimal.read?, hwhole, hfraction, Bool.and_eq_true, List.isEmpty_iff]

/-- Moving the point back is what the exponent is lowered for. -/
theorem value_of_shift {c : ℕ} {len : ℕ} (h : (c : ℚ) = m * 10 ^ len) (k : ℤ) :
    Decimal.value ⟨c, k - len⟩ = m * 10 ^ k := by
  rw [Decimal.value, h, mul_assoc, ← zpow_natCast, ← zpow_add₀ (by norm_num), add_sub_cancel]

/-- **Decimal numerals.** The texts that are read are the decimal numerals, and what is read of
one stands for the number it denotes. -/
theorem isDecimal_iff : IsDecimal cs v ↔ ∃ d, Decimal.read? cs = some d ∧ d.value = v := by
  refine ⟨?_, ?_⟩
  · rintro ⟨hms, hes⟩
    obtain ⟨whole, fraction, tail, hwhole, hfraction, hne, hvalue⟩ :=
      spans_of_isMantissa hms hes.follows
    refine ⟨_, ?_, value_of_shift hvalue _⟩
    rw [read?_of_spans hwhole hfraction, if_neg (not_and_or.mpr hne),
      readExponent?_eq_some_iff.mpr hes, Option.map_some]
  · rintro ⟨d, hd, rfl⟩
    cases hwhole : spanDigits cs with
    | mk whole tail =>
      cases hfraction : Decimal.spanFraction tail with
      | mk fraction rest =>
        rw [read?_of_spans hwhole hfraction] at hd
        split at hd
        · cases hd
        · next hne =>
          obtain ⟨k, hk, rfl⟩ := Option.map_eq_some_iff.mp hd
          obtain ⟨ms, m, rfl, hms, hvalue⟩ :=
            isMantissa_of_spans hwhole hfraction (not_and_or.mp hne)
          rw [value_of_shift hvalue]
          exact .intro hms (readExponent?_eq_some_iff.mp hk)

end Decimal

/-! ## Natural numbers in other bases -/

section Prefixed

variable {base n : ℕ} {c : Char} {cs ds : List Char} {r : Radix}

/-- The letters that tell a base are those of the table. -/
theorem mem_radixMarks_iff :
    (c, base) ∈ radixMarks ↔ ∃ r, Radix.ofMark? c = some r ∧ r.base = base := by
  refine ⟨?_, ?_⟩
  · have hall : ∀ p ∈ radixMarks, (Radix.ofMark? p.1).map Radix.base = some p.2 := by decide
    exact fun h => Option.map_eq_some_iff.mp (hall (c, base) h)
  · rintro ⟨r, hr, rfl⟩
    unfold Radix.ofMark? at hr
    split at hr
    · next hc =>
      cases hr
      obtain rfl | rfl := hc <;> decide
    · split at hr
      · next hc =>
        cases hr
        obtain rfl | rfl := hc <;> decide
      · split at hr
        · next hc =>
          cases hr
          obtain rfl | rfl := hc <;> decide
        · cases hr

theorem readNatural?_eq_some_iff :
    readNatural? base cs = some n ↔ cs ≠ [] ∧ Denotes base cs n := by
  rw [readNatural?, denotes_iff]
  by_cases hcs : cs = []
  · simp [hcs]
  · rw [if_neg (mt List.isEmpty_iff.mp hcs), Option.map_eq_some_iff, and_iff_right hcs]

theorem splitRadix?_eq_some_iff :
    splitRadix? cs = some (r, ds) ↔ ∃ c, cs = '0' :: c :: ds ∧ Radix.ofMark? c = some r := by
  refine ⟨?_, ?_⟩
  · intro h
    unfold splitRadix? at h
    split at h
    · next c cs =>
      obtain ⟨r', hr, heq⟩ := Option.map_eq_some_iff.mp h
      cases heq
      exact ⟨c, rfl, hr⟩
    · cases h
  · rintro ⟨c, rfl, hr⟩
    rw [splitRadix?, hr, Option.map_some]

/-- **Natural numbers in other bases.** The texts that are split at a mark and read as a natural
number are those with at least one digit of the base after the mark. -/
theorem isPrefixed_iff :
    IsPrefixed cs n ↔ ∃ r ds, splitRadix? cs = some (r, ds) ∧ readNatural? r.base ds = some n := by
  refine ⟨?_, ?_⟩
  · rintro ⟨hc, hne, hds⟩
    obtain ⟨r, hr, rfl⟩ := mem_radixMarks_iff.mp hc
    exact ⟨r, _, splitRadix?_eq_some_iff.mpr ⟨_, rfl, hr⟩,
      readNatural?_eq_some_iff.mpr ⟨hne, hds⟩⟩
  · rintro ⟨r, ds, hsplit, hread⟩
    obtain ⟨c, rfl, hr⟩ := splitRadix?_eq_some_iff.mp hsplit
    obtain ⟨hne, hds⟩ := readNatural?_eq_some_iff.mp hread
    exact .intro (mem_radixMarks_iff.mpr ⟨r, hr, rfl⟩) hne hds

/-- A text with the mark of a base is no decimal numeral. -/
theorem Decimal.read?_of_mark (h : Radix.ofMark? c = some r) : read? ('0' :: c :: cs) = none := by
  have hmark : ∀ p ∈ radixMarks, digit? 10 p.1 = none ∧ p.1 ≠ '.' ∧ p.1 ≠ 'e' ∧ p.1 ≠ 'E' := by
    decide
  obtain ⟨hdigit, hpoint, he, hE⟩ := hmark (c, r.base) (mem_radixMarks_iff.mpr ⟨r, h, rfl⟩)
  -- the zero is read as a mantissa, and the mark begins no exponent
  have hspan : spanDigits ('0' :: c :: cs) = ([0], c :: cs) :=
    spanDigits_append (show digits? 10 ['0'] = some [0] by decide) (noDigit_cons hdigit)
  rw [read?_of_spans hspan (spanFraction_of_follows (follows_cons hdigit hpoint).2), readExponent?,
    if_neg (not_or.mpr ⟨he, hE⟩), Option.map_none, ite_self]

theorem splitRadix?_of_read? {d : Decimal} (h : Decimal.read? cs = some d) :
    splitRadix? cs = none := by
  cases hsplit : splitRadix? cs with
  | none => rfl
  | some p =>
    obtain ⟨c, rfl, hr⟩ := splitRadix?_eq_some_iff.mp hsplit
    rw [Decimal.read?_of_mark hr] at h
    cases h

end Prefixed

/-! ## Numerals -/

/-- The text is a numeral of either kind and denotes the number. -/
inductive IsNumeral : List Char → ℚ → Prop
  /-- a decimal numeral -/
  | decimal {cs : List Char} {v : ℚ} (h : IsDecimal cs v) : IsNumeral cs v
  /-- a natural number in another base -/
  | natural {cs : List Char} {n : ℕ} (h : IsPrefixed cs n) : IsNumeral cs n

section Numeral

variable {v : ℚ} {x : Binary64} {cs : List Char}

/-- A numeral has no sign. -/
theorem IsNumeral.nonneg (h : IsNumeral cs v) : 0 ≤ v := by
  cases h with
  | decimal h =>
    obtain ⟨d, -, rfl⟩ := isDecimal_iff.mp h
    exact d.value_nonneg
  | natural h => exact Nat.cast_nonneg _

/-- A numeral has a value, the double nearest to the number it denotes. -/
theorem IsNumeral.exists_value (h : IsNumeral cs v) :
    ∃ x, numeralValue? cs = some x ∧ Binary64.IsNearest v x := by
  cases h with
  | decimal h =>
    obtain ⟨d, hd, rfl⟩ := isDecimal_iff.mp h
    refine ⟨.ofDecimal d, ?_, Binary64.isNearest_ofDecimal d⟩
    rw [numeralValue?, splitRadix?_of_read? hd, hd, Option.map_some]
  | @natural n h =>
    obtain ⟨r, ds, hsplit, hread⟩ := isPrefixed_iff.mp h
    refine ⟨.ofNat n, ?_, Binary64.isNearest_ofNat n⟩
    simp only [numeralValue?, hsplit, hread, Option.map_some]

/-- **The value of a numeral.** The texts with a value are the numerals, and the value is the
double nearest to the number denoted. -/
theorem numeralValue?_eq_some_iff :
    numeralValue? cs = some x ↔ ∃ v, IsNumeral cs v ∧ Binary64.IsNearest v x := by
  refine ⟨?_, ?_⟩
  · intro h
    unfold numeralValue? at h
    split at h
    · next r ds hsplit =>
      obtain ⟨n, hread, rfl⟩ := Option.map_eq_some_iff.mp h
      exact ⟨n, .natural (isPrefixed_iff.mpr ⟨r, ds, hsplit, hread⟩), Binary64.isNearest_ofNat n⟩
    · obtain ⟨d, hd, rfl⟩ := Option.map_eq_some_iff.mp h
      exact ⟨d.value, .decimal (isDecimal_iff.mpr ⟨d, hd, rfl⟩), Binary64.isNearest_ofDecimal d⟩
  · rintro ⟨v, hv, hx⟩
    -- the reader finds some nearest double, and there is only one
    obtain ⟨y, hy, hnear⟩ := hv.exists_value
    rw [hy, hx.unique hnear]

end Numeral

end ScriptLiteral
