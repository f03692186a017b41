import ScriptLiteral.Literal.Value
import ScriptLiteral.Proofs.NumberText
import ScriptLiteral.Proofs.NumeralLanguage

/-!
# Numbers in JSON

A finite double is written to JSON as a sign and a numeral, and `Binary64.jsonParts` are the parts of
that numeral. They are strict (`Binary64.isStrict_jsonParts`), so the text is one of the language of
JSON numbers, and one of them tells that the number is no integer by type: there is always a fraction
or an exponent (`Binary64.marked_jsonParts`).

Scripts write the same digits in a layout of their own. A layout moves the point and fills in zeros,
neither of which changes the number, so both texts denote the same rational
(`Binary64.isSigned_json`, `Binary64.isSigned_text`); and the numeral in JSON rounds back to the
double, sign and all.
-/

namespace ScriptLiteral

open Computability

/-! ## The language of JSON numbers -/

namespace Json

/-- Digits before the point: a zero alone, or digits of which the first is no zero. -/
def integers : Language Char :=
  oneOf ['0'] + oneOf ['1', '2', '3', '4', '5', '6', '7', '8', '9'] * anyDigits 10

/-- A point and at least one digit. -/
def fractions : Language Char := oneOf ['.'] * someDigits 10

/-- The numbers of JSON. -/
def numbers : Language Char :=
  (1 + oneOf ['-']) * (integers * ((1 + fractions) * (1 + exponents)))

end Json

/-! ## Numerals in parts -/

namespace NumeralParts

variable {p : NumeralParts} {ds : List (Fin 10)}

theorem map_digitChar_mem_anyDigits (ds : List (Fin 10)) : ds.map digitChar ∈ anyDigits 10 :=
  mem_anyDigits_iff.mpr ⟨_, denotes_map_digitChar ds⟩

theorem map_digitChar_mem_someDigits (hds : ds ≠ []) : ds.map digitChar ∈ someDigits 10 :=
  mem_someDigits_iff.mpr ⟨mt List.map_eq_nil_iff.mp hds, _, denotes_map_digitChar ds⟩

/-- The digits before the point of a strict numeral. -/
theorem IsStrict.whole_mem (hp : p.IsStrict) : p.whole.map digitChar ∈ Json.integers := by
  obtain ⟨d, ds, hds⟩ := List.exists_cons_of_ne_nil hp.ne_nil
  by_cases hd : d = 0
  · have hzero := hp.head_ne (by rw [hds, hd]; rfl)
    rw [hzero]
    exact .inl ⟨'0', List.mem_singleton_self _, rfl⟩
  · have hall : ∀ d : Fin 10, d ≠ 0 →
        digitChar d ∈ ['1', '2', '3', '4', '5', '6', '7', '8', '9'] := by decide
    rw [hds, List.map_cons]
    exact .inr (cons_mem_oneOf_mul.mpr ⟨hall d hd, map_digitChar_mem_anyDigits ds⟩)

theorem fractionText_mem (p : NumeralParts) : p.fractionText ∈ 1 + Json.fractions := by
  unfold fractionText
  split
  · exact .inl rfl
  · next hne =>
    exact .inr (cons_mem_oneOf_mul.mpr ⟨by simp, map_digitChar_mem_someDigits hne⟩)

/-- **Strict numerals** are numbers of JSON, with a minus sign or without. -/
theorem IsStrict.mem_numbers (hp : p.IsStrict) :
    p.text ∈ Json.numbers ∧ '-' :: p.text ∈ Json.numbers := by
  have hexponent : p.exponentText ∈ 1 + exponents :=
    mem_exponents_iff.mpr ⟨_, p.isExponent_exponentText⟩
  have htext : p.text ∈ Json.integers * ((1 + Json.fractions) * (1 + exponents)) :=
    Language.append_mem_mul hp.whole_mem (Language.append_mem_mul p.fractionText_mem hexponent)
  refine ⟨?_, ?_⟩
  · exact Language.append_mem_mul (a := []) (.inl rfl) htext
  · exact Language.append_mem_mul (a := ['-']) (.inr ⟨'-', by simp, rfl⟩) htext

/-- A fraction is told by its point and an exponent by its letter. -/
theorem mem_text_of_marked (h : p.fraction ≠ [] ∨ p.exponent ≠ none) :
    '.' ∈ p.text ∨ 'e' ∈ p.text := by
  rcases h with hne | hne
  · left
    simp [text, fractionText, hne]
  · obtain ⟨e, he⟩ := Option.ne_none_iff_exists'.mp hne
    right
    simp [text, exponentText, he, Significand.exponentPart]

/-- The value of a numeral in parts is the double nearest to its decimal. -/
theorem numeralValue?_text (hne : p.whole ≠ []) :
    numeralValue? p.text = some (.ofDecimal p.decimal) := by
  have hread := read?_text hne
  rw [numeralValue?, splitRadix?_of_read? hread, hread]
  rfl

end NumeralParts

/-- In JSON a significand is written with a fraction or an exponent. -/
theorem Significand.marked_parts {s : Significand} (hs : s.digits ≠ []) :
    (s.parts .json).fraction ≠ [] ∨ (s.parts .json).exponent ≠ none := by
  unfold Significand.parts
  split
  · left
    split
    · simp [hs]
    · split
      · simp [Layout.json]
      · next hamong => simpa using hamong
  · right
    simp

/-! ## Signed numerals -/

/-- The text is a decimal numeral, with a minus sign in front if need be, and denotes the number. -/
inductive IsSigned : List Char → ℚ → Prop
  /-- a numeral alone -/
  | unsigned {cs : List Char} {v : ℚ} (h : IsDecimal cs v) : IsSigned cs v
  /-- a numeral after a minus sign -/
  | minus {cs : List Char} {v : ℚ} (h : IsDecimal cs v) : IsSigned ('-' :: cs) (-v)

section Signed

variable {cs : List Char} {v w : ℚ}

theorem IsDecimal.unique (hv : IsDecimal cs v) (hw : IsDecimal cs w) : v = w := by
  obtain ⟨d, hd, rfl⟩ := isDecimal_iff.mp hv
  obtain ⟨e, he, rfl⟩ := isDecimal_iff.mp hw
  rw [hd] at he
  rw [Option.some.inj he]

/-- No numeral begins with a minus sign. -/
theorem not_isDecimal_minus : ¬ IsDecimal ('-' :: cs) v := by
  intro h
  obtain ⟨x, hx, -⟩ := (IsNumeral.decimal h).exists_value
  rw [Binary64.numeralValue?_minus] at hx
  cases hx

/-- A text denotes one number at most. -/
theorem IsSigned.unique (hv : IsSigned cs v) (hw : IsSigned cs w) : v = w := by
  cases hv with
  | unsigned hv =>
    cases hw with
    | unsigned hw => exact hv.unique hw
    | minus hw => exact absurd hv not_isDecimal_minus
  | minus hv =>
    cases hw with
    | unsigned hw => exact absurd hw not_isDecimal_minus
    | minus hw => rw [hv.unique hw]

theorem IsSigned.iff_eq (hv : IsSigned cs v) : IsSigned cs w ↔ w = v :=
  ⟨fun hw => hw.unique hv, fun h => h ▸ hv⟩

end Signed

/-- A text without the minus sign in front of it, if there is one. -/
def withoutMinus : List Char → List Char
  | '-' :: cs => cs
  | cs => cs

/-! ## Numbers -/

namespace Binary64

variable {x : Binary64}

/-- The number without its sign. -/
def unsigned (x : Binary64) : Binary64 := ⟨false, x.magnitude, x.magnitude_lt⟩

/-- A rational with the sign of the number. -/
def signed (x : Binary64) (v : ℚ) : ℚ := if x.negative then -v else v

/-- The parts of the numeral that a finite number is in JSON, its sign apart. -/
def jsonParts (x : Binary64) : NumeralParts :=
  if x.isZero then ⟨[0], [0], none⟩ else (significand x.magnitude).parts .json

theorem jsonParts_of_isZero (h : x.isZero = true) : x.jsonParts = ⟨[0], [0], none⟩ := if_pos h

theorem jsonParts_of_ne_zero (h : x.isZero = false) :
    x.jsonParts = (significand x.magnitude).parts .json :=
  if_neg (by simp [h])

/-- **A finite number in JSON** is its sign and its parts. -/
theorem json_eq (h : x.isFinite = true) : x.json = x.withSign x.jsonParts.text := by
  rw [json, if_pos h]
  cases h0 : x.isZero with
  | true =>
    rw [jsonParts_of_isZero h0]
    rfl
  | false =>
    have hnormal := isNormal_significand (magnitude_lt_of_isFinite h).le (magnitude_ne_zero h0)
    rw [jsonParts_of_ne_zero h0, if_neg Bool.false_ne_true,
      Significand.write_eq_text .json hnormal.ne_nil]

/-- The parts are strict. -/
theorem isStrict_jsonParts (h : x.isFinite = true) : x.jsonParts.IsStrict := by
  cases h0 : x.isZero with
  | true =>
    rw [jsonParts_of_isZero h0]
    exact .mk (by decide) (by decide)
  | false =>
    rw [jsonParts_of_ne_zero h0]
    exact (isNormal_significand (magnitude_lt_of_isFinite h).le
      (magnitude_ne_zero h0)).isStrict_parts .json

/-- They have a fraction or an exponent. -/
theorem marked_jsonParts (h : x.isFinite = true) :
    x.jsonParts.fraction ≠ [] ∨ x.jsonParts.exponent ≠ none := by
  cases h0 : x.isZero with
  | true =>
    rw [jsonParts_of_isZero h0]
    exact .inl (by simp)
  | false =>
    rw [jsonParts_of_ne_zero h0]
    exact Significand.marked_parts (isNormal_significand (magnitude_lt_of_isFinite h).le
      (magnitude_ne_zero h0)).ne_nil

/-- They round back to the number without its sign. -/
theorem ofDecimal_jsonParts (h : x.isFinite = true) :
    ofDecimal x.jsonParts.decimal = ofMagnitude x.magnitude := by
  cases h0 : x.isZero with
  | true =>
    rw [jsonParts_of_isZero h0, magnitude_of_isZero h0]
    decide
  | false =>
    rw [jsonParts_of_ne_zero h0]
    exact ofDecimal_parts (magnitude_lt_of_isFinite h).le (magnitude_ne_zero h0) .json

/-- A numeral after the sign of a number denotes the rational with that sign. -/
theorem isSigned_withSign {cs : List Char} {v : ℚ} (h : IsDecimal cs v) :
    IsSigned (x.withSign cs).toList (x.signed v) := by
  rw [withSign, String.toList_ofList, signed]
  cases x.negative
  · exact .unsigned h
  · exact .minus h

/-- **What the text in JSON denotes.** -/
theorem isSigned_json (h : x.isFinite = true) :
    IsSigned x.json.toList (x.signed x.jsonParts.decimal.value) := by
  rw [json_eq h]
  exact isSigned_withSign (NumeralParts.isDecimal_text (isStrict_jsonParts h).ne_nil)

/-- **The text of a script** denotes the same, in its own layout and without the sign of zero. -/
theorem isSigned_text (h : x.isFinite = true) :
    IsSigned x.text.toList (x.signed x.jsonParts.decimal.value) := by
  cases h0 : x.isZero with
  | true =>
    have hdigits : ofDigits ([0, 0] : List (Fin 10)) = 0 := by decide
    have hzero : x.signed x.jsonParts.decimal.value = 0 := by
      simp [jsonParts_of_isZero h0, signed, NumeralParts.decimal, Decimal.value, hdigits]
    rw [text_of_isZero h0, hzero]
    exact .unsigned (isDecimal_iff.mpr ⟨⟨0, 0⟩, by decide, by norm_num [Decimal.value]⟩)
  | false =>
    have hnormal := isNormal_significand (magnitude_lt_of_isFinite h).le (magnitude_ne_zero h0)
    rw [text_of_isFinite h h0, jsonParts_of_ne_zero h0,
      Significand.value_parts .json hnormal.ne_nil]
    exact isSigned_withSign (hnormal.isDecimal_write .script)

/-- The sign in front of a numeral is taken off again. -/
theorem withoutMinus_withSign {p : NumeralParts} (hne : p.whole ≠ []) :
    withoutMinus (x.withSign p.text).toList = p.text ∧
      ((x.withSign p.text).toList.head? = some '-' ↔ x.negative = true) := by
  obtain ⟨d, cs, hcs⟩ := NumeralParts.exists_head_text hne
  have hall : ∀ d, digitChar d ≠ '-' := by decide
  rw [withSign, String.toList_ofList, hcs]
  cases x.negative
  · refine ⟨?_, by simpa using hall d⟩
    unfold withoutMinus
    split
    · next h => exact absurd (List.cons.inj h).1 (hall d)
    · rfl
  · exact ⟨rfl, by simp⟩

end Binary64

/-! ## Values -/

/-- **Numbers in JSON are exact.** The text of a finite number is a number of JSON with a fraction or
an exponent. It denotes one rational, the one that the text for scripts denotes. Without the minus
sign, which stands there just if the sign bit is set, even for zero, the text is a literal for the
number without its sign, bit by bit. -/
theorem json_number_exact (x : Binary64) (h : x.isFinite = true) :
    let t := (Value.number x).json.toList
    t ∈ Json.numbers ∧ ('.' ∈ t ∨ 'e' ∈ t) ∧
      (∃ v, (∀ w, IsSigned t w ↔ w = v) ∧ ∀ w, IsSigned x.text.toList w ↔ w = v) ∧
      (t.head? = some '-' ↔ x.negative = true) ∧
      numberValue (String.ofList (withoutMinus t)) = pure x.unsigned := by
  intro t
  have ht : t = (x.withSign x.jsonParts.text).toList := congrArg String.toList (Binary64.json_eq h)
  have hstrict := Binary64.isStrict_jsonParts h
  obtain ⟨hrest, hsign⟩ := Binary64.withoutMinus_withSign (x := x) hstrict.ne_nil
  refine ⟨?_, ?_, ⟨_, fun w => (Binary64.isSigned_json h).iff_eq,
    fun w => (Binary64.isSigned_text h).iff_eq⟩, ht ▸ hsign, ?_⟩
  · obtain ⟨hplain, hminus⟩ := hstrict.mem_numbers
    rw [ht, Binary64.withSign, String.toList_ofList]
    cases x.negative
    · exact hplain
    · exact hminus
  · have hmarked := NumeralParts.mem_text_of_marked (Binary64.marked_jsonParts h)
    rw [ht, Binary64.withSign, String.toList_ofList]
    cases x.negative
    · exact hmarked
    · exact hmarked.imp (List.mem_cons_of_mem _) (List.mem_cons_of_mem _)
  · have hunsigned : Binary64.ofMagnitude x.magnitude = x.unsigned :=
      Binary64.ofMagnitude_magnitude (x := x.unsigned) rfl (Binary64.magnitude_lt_of_isFinite h).le
    rw [ht, hrest, ← hunsigned, ← Binary64.ofDecimal_jsonParts h]
    exact numberValue_ofList (fun c => NumeralParts.mem_numeralChars)
      (NumeralParts.numeralValue?_text hstrict.ne_nil)

/-- The least power of ten that JSON and scripts write differently, with a sign. -/
theorem json_number_exact_large :
    let x := Binary64.ofBits 0xC341C37937E08000
    x.isFinite = true ∧ (Value.number x).json = "-1e+16" ∧ x.text = "-10000000000000000" ∧
      (∃ v, (∀ w, IsSigned "-1e+16".toList w ↔ w = v) ∧
        ∀ w, IsSigned "-10000000000000000".toList w ↔ w = v) ∧
      numberValue "1e+16" = pure (Binary64.ofBits 0x4341C37937E08000) := by
  intro x
  have h : x.isFinite = true := by decide
  have hjson : (Value.number x).json = "-1e+16" := by decide +kernel
  have htext : x.text = "-10000000000000000" := by decide +kernel
  obtain ⟨-, -, hdenotes, -, hvalue⟩ := json_number_exact x h
  rw [hjson, htext] at hdenotes
  rw [hjson] at hvalue
  exact ⟨h, hjson, htext, hdenotes, hvalue⟩

end ScriptLiteral
