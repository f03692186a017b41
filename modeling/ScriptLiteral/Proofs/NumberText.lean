import ScriptLiteral.Proofs.NumberValue
import ScriptLiteral.Proofs.PrintedDigits
import ScriptLiteral.Proofs.ShortestDecimal

/-!
# Numbers as text and back

A finite double other than zero is printed as a numeral, in any layout, whose digits round back to
it: reading what was printed gives the same double (`numeralValue?_write`). The text has a sign in
front where the double has one, and the numbers that are not finite have names, which are no
numerals. So a reader of names, signs and numerals, `readText?`, finds in a text all that printing
keeps of a double (`readText?_text`); and printing drops no more than the sign of zero and the bits
by which the values that are no numbers differ.
-/

namespace ScriptLiteral

/-- A text of nothing but the characters of written numerals is read with no separator left out. -/
theorem numberValue_ofList {cs : List Char} {x : Binary64} (hcs : ∀ c ∈ cs, c ∈ numeralChars)
    (hx : numeralValue? cs = some x) : numberValue (String.ofList cs) = pure x := by
  have hfilter : withoutSeparators (String.ofList cs) = cs := by
    rw [withoutSeparators, String.toList_ofList, List.filter_eq_self]
    intro c hc
    have hseparator : '_' ∉ numeralChars := by decide
    exact decide_eq_true fun h => hseparator (h ▸ hcs c hc)
  rw [numberValue, hfilter, hx]

namespace Binary64

variable {x y : Binary64} {m : ℕ}

/-! ## Kinds of numbers -/

theorem magnitude_of_isZero (h : x.isZero = true) : x.magnitude = 0 := of_decide_eq_true h

theorem magnitude_ne_zero (h : x.isZero = false) : x.magnitude ≠ 0 := of_decide_eq_false h

theorem magnitude_of_isInfinite (h : x.isInfinite = true) : x.magnitude = infiniteMagnitude :=
  of_decide_eq_true h

theorem magnitude_lt_of_isFinite (h : x.isFinite = true) : x.magnitude < infiniteMagnitude :=
  of_decide_eq_true h

theorem isNaN_of_isZero (h : x.isZero = true) : x.isNaN = false := by
  rw [isNaN, magnitude_of_isZero h]
  decide

theorem isZero_of_isNaN (h : x.isNaN = true) : x.isZero = false :=
  decide_eq_false (Nat.ne_zero_of_lt (of_decide_eq_true h : infiniteMagnitude < x.magnitude))

theorem isNaN_of_isInfinite (h : x.isInfinite = true) : x.isNaN = false := by
  rw [isNaN, magnitude_of_isInfinite h]
  decide

theorem isZero_of_isInfinite (h : x.isInfinite = true) : x.isZero = false := by
  rw [isZero, magnitude_of_isInfinite h]
  decide

theorem isNaN_of_isFinite (h : x.isFinite = true) : x.isNaN = false :=
  decide_eq_false (magnitude_lt_of_isFinite h).not_gt

theorem isInfinite_of_isFinite (h : x.isFinite = true) : x.isInfinite = false :=
  decide_eq_false (magnitude_lt_of_isFinite h).ne

/-- A number that is not finite is infinite. -/
theorem isInfinite_of_not_isFinite (h : x.isFinite = false) (hnan : x.isNaN = false) :
    x.isInfinite = true := by
  simp only [isFinite, isNaN, isInfinite, decide_eq_false_iff_not, decide_eq_true_eq]
    at h hnan ⊢
  omega

/-- A double is no number, a zero, infinite, or finite and not zero. -/
theorem kinds (x : Binary64) :
    x.isNaN = true ∨ x.isZero = true ∨ x.isInfinite = true ∨
      x.isFinite = true ∧ x.isZero = false := by
  simp only [isNaN, isZero, isInfinite, isFinite, decide_eq_true_eq, decide_eq_false_iff_not]
  omega

/-! ## Signs -/

/-- The number of the other sign. -/
def opposite (x : Binary64) : Binary64 := ⟨!x.negative, x.magnitude, x.magnitude_lt⟩

/-- A positive number is that of its magnitude. -/
theorem ofMagnitude_magnitude (hneg : x.negative = false) (hx : x.magnitude ≤ infiniteMagnitude) :
    ofMagnitude x.magnitude = x :=
  Binary64.ext hneg.symm (magnitude_ofMagnitude hx)

/-- A negative number is the opposite of it. -/
theorem opposite_ofMagnitude (hneg : x.negative = true) (hx : x.magnitude ≤ infiniteMagnitude) :
    (ofMagnitude x.magnitude).opposite = x :=
  Binary64.ext hneg.symm (magnitude_ofMagnitude hx)

/-! ## Numerals -/

/-- **Digits in any layout round back** to the double for which they are written. -/
theorem ofDecimal_parts (hm : m ≤ infiniteMagnitude) (h0 : m ≠ 0) (l : Layout) :
    ofDecimal ((significand m).parts l).decimal = ofMagnitude m := by
  have hnear := isNearest_ofDecimal ((significand m).parts l).decimal
  rw [Significand.value_parts l (isNormal_significand hm h0).ne_nil] at hnear
  exact hnear.unique (isNearest_significand hm)

/-- The value of a printed numeral is the double that was printed. -/
theorem numeralValue?_write (hm : m ≤ infiniteMagnitude) (h0 : m ≠ 0) (l : Layout) :
    numeralValue? ((significand m).write l) = some (ofMagnitude m) :=
  numeralValue?_eq_some_iff.mpr
    ⟨_, .decimal ((isNormal_significand hm h0).isDecimal_write l), isNearest_significand hm⟩

/-- The characters of a printed numeral. -/
theorem mem_numeralChars_of_write (hm : m ≤ infiniteMagnitude) (h0 : m ≠ 0) {l : Layout} {c : Char}
    (hc : c ∈ (significand m).write l) : c ∈ numeralChars := by
  rw [Significand.write_eq_text l (isNormal_significand hm h0).ne_nil] at hc
  exact NumeralParts.mem_numeralChars hc

/-! ## What a text says -/

/-- The names of the numbers that are not finite. -/
def names : List (String × Binary64) :=
  [("NaN", nan), ("Infinity", ofMagnitude infiniteMagnitude),
    ("-Infinity", (ofMagnitude infiniteMagnitude).opposite)]

/-- The number of a name. -/
def ofName? (text : String) : Option Binary64 := names.lookup text

/-- The value of a numeral with a minus sign in front if need be. -/
def signedValue? : List Char → Option Binary64
  | '-' :: cs => (numeralValue? cs).map opposite
  | cs => numeralValue? cs

/-- The number that a printed text says. -/
def readText? (text : String) : Option Binary64 :=
  (ofName? text).or (signedValue? text.toList)

/-- Every name has a letter that no numeral has. -/
theorem ofName?_ofList {cs : List Char} (hcs : ∀ c ∈ cs, c ∈ numeralChars) :
    ofName? (String.ofList cs) = none := by
  have hall : ∀ p ∈ names, p.1.toList.any (· ∉ numeralChars) = true := by decide
  rw [ofName?, List.lookup_eq_none_iff]
  intro p hp
  obtain ⟨c, hc, hletter⟩ := List.any_eq_true.mp (hall p hp)
  rw [bne_iff_ne]
  intro h
  rw [← h, String.toList_ofList] at hc
  exact of_decide_eq_true hletter (hcs c hc)

/-- No numeral begins with a minus sign. -/
theorem numeralValue?_minus (cs : List Char) : numeralValue? ('-' :: cs) = none := by
  have hdigit : digit? 10 '-' = none := by decide
  simp [numeralValue?, splitRadix?, Decimal.read?, spanDigits, hdigit, Decimal.spanFraction]

theorem signedValue?_of_numeral {cs : List Char} (h : numeralValue? cs = some x) :
    signedValue? cs = some x := by
  unfold signedValue?
  split
  · rw [numeralValue?_minus] at h
    cases h
  · exact h

/-! ## The texts of the four kinds -/

theorem text_of_isNaN (h : x.isNaN = true) : x.text = "NaN" := if_pos h

theorem text_of_isZero (h : x.isZero = true) : x.text = "0" := by
  rw [text, isNaN_of_isZero h, h]
  rfl

theorem text_of_isInfinite (h : x.isInfinite = true) :
    x.text = if x.negative then "-Infinity" else "Infinity" := by
  rw [text, isNaN_of_isInfinite h, isZero_of_isInfinite h, h, withSign]
  cases x.negative <;> rfl

/-- The digits that are taken for a script are those of the shortest decimal. -/
theorem ofPrinted_significand (hm : m < infiniteMagnitude) (h0 : m ≠ 0) :
    Significand.ofPrinted (significand m).plain = significand m := by
  obtain ⟨hlow, hhigh⟩ := point_significand_bounds hm h0
  exact (isNormal_significand hm.le h0).ofPrinted_plain (by omega) (by omega)

theorem text_of_isFinite (h : x.isFinite = true) (h0 : x.isZero = false) :
    x.text = x.withSign ((significand x.magnitude).write .script) := by
  rw [text, isNaN_of_isFinite h, h0, isInfinite_of_isFinite h,
    ofPrinted_significand (magnitude_lt_of_isFinite h) (magnitude_ne_zero h0)]
  rfl

/-! ## What printing keeps -/

/-- What printing keeps of a number: one of those that are no number, and one of the zeros. -/
def printed (x : Binary64) : Binary64 :=
  if x.isNaN then nan else if x.isZero then ofMagnitude 0 else x

theorem printed_of_isNaN (h : x.isNaN = true) : x.printed = nan := if_pos h

theorem printed_of_isZero (h : x.isZero = true) : x.printed = ofMagnitude 0 := by
  rw [printed, isNaN_of_isZero h, h]
  rfl

theorem printed_eq_self (hnan : x.isNaN = false) (h0 : x.isZero = false) : x.printed = x := by
  rw [printed, hnan, h0]
  rfl

/-- What is kept of the three sorts of doubles. -/
theorem printed_cases (x : Binary64) :
    x.isNaN = true ∧ x.printed = nan ∨ x.isZero = true ∧ x.printed = ofMagnitude 0 ∨
      x.isNaN = false ∧ x.isZero = false ∧ x.printed = x := by
  cases hnan : x.isNaN with
  | true => exact .inl ⟨rfl, printed_of_isNaN hnan⟩
  | false =>
    cases h0 : x.isZero with
    | true => exact .inr (.inl ⟨rfl, printed_of_isZero h0⟩)
    | false => exact .inr (.inr ⟨rfl, rfl, printed_eq_self hnan h0⟩)

/-- The text depends on what is kept alone. -/
theorem text_printed (x : Binary64) : x.printed.text = x.text := by
  rcases x.printed_cases with ⟨h, hx⟩ | ⟨h, hx⟩ | ⟨-, -, hx⟩
  · rw [hx, text_of_isNaN h]
    rfl
  · rw [hx, text_of_isZero h]
    rfl
  · rw [hx]

theorem isNaN_printed (x : Binary64) : x.printed.isNaN = x.isNaN := by
  rcases x.printed_cases with ⟨h, hx⟩ | ⟨h, hx⟩ | ⟨-, -, hx⟩
  · rw [hx, h]
    decide
  · rw [hx, isNaN_of_isZero h]
    decide
  · rw [hx]

theorem isZero_printed (x : Binary64) : x.printed.isZero = x.isZero := by
  rcases x.printed_cases with ⟨h, hx⟩ | ⟨h, hx⟩ | ⟨-, -, hx⟩
  · rw [hx, isZero_of_isNaN h]
    decide
  · rw [hx, h]
    decide
  · rw [hx]

/-- What is kept of two doubles is equal just if they are the same value or both zeros. -/
theorem printed_eq_iff :
    x.printed = y.printed ↔ x.same y = true ∨ x.isZero = true ∧ y.isZero = true := by
  refine ⟨fun h => ?_, ?_⟩
  · have hnan : y.isNaN = x.isNaN := by rw [← isNaN_printed, ← h, isNaN_printed]
    have hzero : y.isZero = x.isZero := by rw [← isZero_printed, ← h, isZero_printed]
    rcases x.printed_cases with ⟨hx, -⟩ | ⟨hx, -⟩ | ⟨hx, h0, hkept⟩
    · exact .inl (by simp [same, hnan, hx])
    · exact .inr ⟨hx, hzero.trans hx⟩
    · rw [hkept, printed_eq_self (hnan.trans hx) (hzero.trans h0)] at h
      exact .inl (by simp [same, h])
  · rintro (h | ⟨hx, hy⟩)
    · rw [same, Bool.or_eq_true, Bool.and_eq_true, beq_iff_eq] at h
      rcases h with ⟨hx, hy⟩ | rfl
      · rw [printed_of_isNaN hx, printed_of_isNaN hy]
      · rfl
    · rw [printed_of_isZero hx, printed_of_isZero hy]

/-! ## Reading what was printed -/

/-- A printed numeral is read back, with the sign in front of it. -/
theorem readText?_withSign (h : x.isFinite = true) (h0 : x.isZero = false) (l : Layout) :
    readText? (x.withSign ((significand x.magnitude).write l)) = some x := by
  have hm := (magnitude_lt_of_isFinite h).le
  have hne := magnitude_ne_zero h0
  have hvalue := numeralValue?_write hm hne l
  have hchars : ∀ c ∈ (significand x.magnitude).write l, c ∈ numeralChars :=
    fun c hc => mem_numeralChars_of_write hm hne hc
  have hsigned : ∀ c ∈ '-' :: (significand x.magnitude).write l, c ∈ numeralChars :=
    List.forall_mem_cons.mpr ⟨by decide, hchars⟩
  rw [readText?, withSign]
  cases hneg : x.negative with
  | false =>
    rw [if_neg Bool.false_ne_true, ofName?_ofList hchars, String.toList_ofList, Option.none_or,
      signedValue?_of_numeral hvalue, ofMagnitude_magnitude hneg hm]
  | true =>
    rw [if_pos rfl, ofName?_ofList hsigned, String.toList_ofList, Option.none_or, signedValue?,
      hvalue, Option.map_some, opposite_ofMagnitude hneg hm]

/-- The name of an infinity is read back. -/
theorem ofName?_of_isInfinite (h : x.isInfinite = true) : ofName? x.text = some x := by
  have hm := magnitude_of_isInfinite h
  rw [text_of_isInfinite h]
  cases hneg : x.negative with
  | false =>
    rw [← ofMagnitude_magnitude hneg hm.le, hm]
    rfl
  | true =>
    rw [← opposite_ofMagnitude hneg hm.le, hm]
    rfl

theorem ofName?_of_isNaN (h : x.isNaN = true) : ofName? x.text = some nan := by
  rw [text_of_isNaN h]
  rfl

/-- **Reading what was printed** gives all that printing keeps. -/
theorem readText?_text (x : Binary64) : readText? x.text = some x.printed := by
  rcases x.kinds with h | h | h | ⟨h, h0⟩
  · rw [readText?, ofName?_of_isNaN h, printed_of_isNaN h]
    rfl
  · rw [text_of_isZero h, printed_of_isZero h]
    decide
  · rw [readText?, ofName?_of_isInfinite h,
      printed_eq_self (isNaN_of_isInfinite h) (isZero_of_isInfinite h)]
    rfl
  · rw [text_of_isFinite h h0, readText?_withSign h h0, printed_eq_self (isNaN_of_isFinite h) h0]

/-- Two doubles are printed alike just if the same is kept of them. -/
theorem text_eq_iff : x.text = y.text ↔ x.printed = y.printed := by
  refine ⟨fun h => ?_, fun h => ?_⟩
  · have hx := readText?_text x
    rw [h, readText?_text y] at hx
    exact (Option.some.inj hx).symm
  · rw [← text_printed x, h, text_printed y]

end Binary64

/-! ## The round trip -/

section RoundTrip

open Binary64

variable {x : Binary64}

/-- A printed numeral without its sign is a literal for the number without its sign. -/
theorem numberValue_write (h : x.isFinite = true) (h0 : x.isZero = false) :
    numberValue (String.ofList ((significand x.magnitude).write .script)) =
      pure (ofMagnitude x.magnitude) := by
  have hm := (magnitude_lt_of_isFinite h).le
  have hne := magnitude_ne_zero h0
  exact numberValue_ofList (fun c hc => mem_numeralChars_of_write hm hne hc)
    (numeralValue?_write hm hne .script)

/-- **Printing and reading are inverse.** The text of a finite number without a sign is a literal
for it, bit by bit; that of one with a sign is a minus sign and a literal for its opposite, except
that the sign of zero is not printed. Two doubles are printed alike if they are the same value or
both zeros, and not otherwise. -/
theorem text_round_trip (x y : Binary64) :
    (x.isFinite = true → x.negative = false → numberValue x.text = pure x) ∧
      (x.isFinite = true → x.negative = true → x.isZero = false →
        ∃ t, x.text = "-" ++ t ∧ numberValue t = pure x.opposite) ∧
      (x.isZero = true → x.opposite.text = x.text) ∧
      (x.text = y.text ↔ x.same y = true ∨ x.isZero = true ∧ y.isZero = true) := by
  refine ⟨fun h hneg => ?_, fun h hneg h0 => ?_, fun h => ?_, text_eq_iff.trans printed_eq_iff⟩
  · have hx := ofMagnitude_magnitude hneg (magnitude_lt_of_isFinite h).le
    cases h0 : x.isZero with
    | true =>
      rw [text_of_isZero h0, ← hx, magnitude_of_isZero h0]
      exact numberValue_ofList (List.forall_mem_singleton.mpr (by decide)) (by decide)
    | false =>
      rw [text_of_isFinite h h0, withSign, hneg, if_neg Bool.false_ne_true, numberValue_write h h0,
        hx]
  · have hx : ofMagnitude x.magnitude = x.opposite :=
      ofMagnitude_magnitude (x := x.opposite) (by simp [opposite, hneg])
        (magnitude_lt_of_isFinite h).le
    refine ⟨String.ofList ((significand x.magnitude).write .script), ?_, ?_⟩
    · rw [text_of_isFinite h h0, withSign, hneg, if_pos rfl]
      exact String.toList_injective (by simp)
    · rw [numberValue_write h h0, hx]
  · rw [text_of_isZero h, text_of_isZero (x := x.opposite) h]

end RoundTrip

end ScriptLiteral
