import ScriptLiteral.Proofs.RecordLines
import ScriptLiteral.Proofs.Surrogates

/-!
# Values with one JSON text

Two values can have the same JSON text without being the same. JSON has no unpaired surrogates and
no numbers but the finite ones, so a string is written as the text it is read as, and a number that
is not finite as its name. `Value.told` makes these two losses and no others: the text of a value is
that of what is told of it, and from the text all that is told is read back, so that two texts are
equal just if the same is told of both values (`Value.json_eq_iff_told_eq`).

The main result, `Value.json_collisions`, spells this out in terms of the two values.
-/

namespace ScriptLiteral

open Json (Datum Writes)

/-- A text is written for one value only. -/
theorem Json.Writes.unique {text : List Char} {d e : Datum} (hd : Writes text d)
    (he : Writes text e) : d = e := by
  have hend : Json.EndsNumeral [] := nofun
  have hread := (hd [] hend).symm.trans (he [] hend)
  exact congrArg Prod.fst (Option.some.inj hread)

/-! ## Numbers -/

namespace Binary64

variable {x y : Binary64} {name : String}

/-- The number itself, or the one that stands for all that are none. -/
def sole (x : Binary64) : Binary64 := if x.isNaN then nan else x

theorem isNaN_sole (x : Binary64) : x.sole.isNaN = x.isNaN := by
  rw [sole]
  split
  · next h => exact h.symm
  · rfl

/-- Two numbers are the same value just if they have the same sole number. -/
theorem same_iff_sole_eq : x.same y = true ↔ x.sole = y.sole := by
  rw [same, Bool.or_eq_true, Bool.and_eq_true, beq_iff_eq]
  refine ⟨?_, fun h => ?_⟩
  · rintro (⟨hx, hy⟩ | rfl)
    · rw [sole, sole, if_pos hx, if_pos hy]
    · rfl
  · have hnan : x.isNaN = y.isNaN := by rw [← isNaN_sole x, h, isNaN_sole y]
    cases hx : x.isNaN with
    | true => exact .inl ⟨rfl, hnan.symm.trans hx⟩
    | false =>
      rw [sole, sole, ← hnan, hx] at h
      exact .inr h

/-- The names of the numbers that are not finite. -/
inductive HasName (x : Binary64) : String → Prop
  /-- of any that is none -/
  | nan (h : x.isNaN = true) : HasName x "NaN"
  /-- of the one above all others -/
  | infinity (h : x.isInfinite = true) (hneg : x.negative = false) : HasName x "Infinity"
  /-- of the one below all others -/
  | minusInfinity (h : x.isInfinite = true) (hneg : x.negative = true) : HasName x "-Infinity"

/-- A number that is not finite is printed as its name. -/
theorem hasName_iff : x.HasName name ↔ x.isFinite = false ∧ x.text = name := by
  have hnot : ∀ {y : Binary64}, y.isNaN = true ∨ y.isInfinite = true → y.isFinite = false := by
    simp only [isNaN, isInfinite, isFinite, decide_eq_true_eq, decide_eq_false_iff_not]
    omega
  refine ⟨fun h => ?_, ?_⟩
  · cases h with
    | nan h => exact ⟨hnot (.inl h), text_of_isNaN h⟩
    | infinity h hneg => exact ⟨hnot (.inr h), by rw [text_of_isInfinite h, hneg]; rfl⟩
    | minusInfinity h hneg => exact ⟨hnot (.inr h), by rw [text_of_isInfinite h, hneg]; rfl⟩
  · rintro ⟨h, rfl⟩
    cases hnan : x.isNaN with
    | true =>
      rw [text_of_isNaN hnan]
      exact .nan hnan
    | false =>
      have hinf := isInfinite_of_not_isFinite h hnan
      rw [text_of_isInfinite hinf]
      cases hneg : x.negative with
      | false => exact .infinity hinf hneg
      | true => exact .minusInfinity hinf hneg

/-- Numbers that are not finite have the same text just if they are the same value. -/
theorem text_eq_iff_same (hx : x.isFinite = false) : x.text = y.text ↔ x.same y = true := by
  rw [text_eq_iff, printed_eq_iff, or_iff_left]
  rintro ⟨h, -⟩
  rw [isFinite, magnitude_of_isZero h] at hx
  exact absurd hx (by decide)

end Binary64

/-! ## Values -/

namespace Value

variable {v w : Value}

/-- The value with a number's sole number in its place. -/
def sole : Value → Value
  | number x => number x.sole
  | v => v

theorem same_iff_sole_eq : v.same w = true ↔ v.sole = w.sole := by
  cases v <;> cases w <;> simp [same, sole, Binary64.same_iff_sole_eq]

/-- Sameness of values is an equivalence. -/
theorem equivalence_same : Equivalence fun v w : Value => v.same w = true := by
  simp only [same_iff_sole_eq]
  exact ⟨fun _ => rfl, Eq.symm, Eq.trans⟩

/-- Values that are the same are equal, but for the bits of numbers that are none. -/
theorem same_cases (h : v.same w = true) :
    v = w ∨ ∃ x y, v = number x ∧ w = number y ∧ x.same y = true := by
  cases v with
  | null =>
    cases w with
    | null => exact .inl rfl
    | number | string => cases h
  | number x =>
    cases w with
    | number y => exact .inr ⟨x, y, rfl, rfl, h⟩
    | null | string => cases h
  | string s =>
    cases w with
    | string t => exact .inl (congrArg string (eq_of_beq h))
    | null | number => cases h

/-- The same value is displayed in one way. -/
theorem display_eq_of_same (h : v.same w = true) : v.display = w.display := by
  rcases same_cases h with rfl | ⟨x, y, rfl, rfl, hxy⟩
  · rfl
  · exact Binary64.text_eq_iff.mpr (Binary64.printed_eq_iff.mpr (.inl hxy))

/-! ## What JSON tells -/

/-- What JSON tells of a value: of a number that is not finite its name, and of a string the text it
is read as. -/
def told : Value → Value
  | null => null
  | number x => if x.isFinite then number x else string (.ofText x.text)
  | string s => string (.ofText s.lossy)

/-- The value that is told by a value in JSON. -/
def ofDatum : Datum → Value
  | .null => null
  | .number negative d =>
    number (if negative then (Binary64.ofDecimal d).opposite else Binary64.ofDecimal d)
  | .string s => string (.ofText s)

theorem told_of_isFinite {x : Binary64} (h : x.isFinite = true) : (number x).told = number x :=
  if_pos h

theorem told_of_not_isFinite {x : Binary64} (h : x.isFinite = false) :
    (number x).told = string (.ofText x.text) :=
  if_neg (by simp [h])

/-- What is told of a value is read back. -/
theorem exists_datum_told (v : Value) : ∃ d, Writes v.json.toList d ∧ ofDatum d = v.told := by
  cases v with
  | null => exact ⟨.null, Json.writes_null, rfl⟩
  | string s => exact ⟨.string s.lossy, Json.writes_quote s.lossy, rfl⟩
  | number x =>
    cases h : x.isFinite with
    | true =>
      obtain ⟨d, hd, hvalue⟩ := Binary64.exists_number_json h
      refine ⟨.number x.negative d, hd, ?_⟩
      rw [told_of_isFinite h]
      exact congrArg number (Option.some.inj hvalue)
    | false =>
      refine ⟨.string x.text, ?_, (told_of_not_isFinite h).symm⟩
      rw [json, Binary64.json_of_not_isFinite h]
      exact Json.writes_quote x.text

/-- Nothing else has a part in the text. -/
theorem json_told (v : Value) : v.told.json = v.json := by
  cases v with
  | null => rfl
  | string s =>
    rw [told, json, json, UnitString.lossy_ofText]
  | number x =>
    cases h : x.isFinite with
    | true => rw [told_of_isFinite h]
    | false =>
      rw [told_of_not_isFinite h, json, json, UnitString.lossy_ofText,
        Binary64.json_of_not_isFinite h]

/-- **Texts tell values apart** as far as something different is told of them. -/
theorem json_eq_iff_told_eq : v.json = w.json ↔ v.told = w.told := by
  refine ⟨fun h => ?_, fun h => ?_⟩
  · obtain ⟨d, hd, hv⟩ := v.exists_datum_told
    obtain ⟨e, he, hw⟩ := w.exists_datum_told
    rw [h] at hd
    rw [← hv, ← hw, hd.unique he]
  · rw [← json_told v, h, json_told w]

/-! ## Collisions -/

/-- Two values that have one JSON text for want of another. -/
inductive Collide : Value → Value → Prop
  /-- strings that are read as the same text -/
  | strings {s t : UnitString} (h : s.lossy = t.lossy) : Collide (string s) (string t)
  /-- a number that is not finite, and a string that is read as its name -/
  | numberString {x : Binary64} {s : UnitString} (h : x.HasName s.lossy) :
    Collide (number x) (string s)
  /-- the other way round -/
  | stringNumber {x : Binary64} {s : UnitString} (h : x.HasName s.lossy) :
    Collide (string s) (number x)

theorem ofText_inj {a b : String} : string (.ofText a) = string (.ofText b) ↔ a = b := by
  refine ⟨fun h => ?_, fun h => by rw [h]⟩
  rw [← UnitString.lossy_ofText a, string.inj h, UnitString.lossy_ofText]

/-- Of a number and a string the same is told just if the string is read as the name of the
number. -/
theorem told_number_eq_string_iff {x : Binary64} {s : UnitString} :
    (number x).told = (string s).told ↔ x.HasName s.lossy := by
  rw [Binary64.hasName_iff]
  cases h : x.isFinite with
  | true =>
    rw [told_of_isFinite h]
    exact ⟨nofun, fun hnot => absurd hnot.1 (by decide)⟩
  | false =>
    rw [told_of_not_isFinite h, and_iff_right rfl]
    exact ofText_inj

/-- Of two numbers the same is told just if they are the same value. -/
theorem told_number_eq_number_iff {x y : Binary64} :
    (number x).told = (number y).told ↔ x.same y = true := by
  refine ⟨fun h => ?_, fun h => ?_⟩
  · cases hx : x.isFinite with
    | false =>
      cases hy : y.isFinite with
      | false =>
        rw [told_of_not_isFinite hx, told_of_not_isFinite hy, ofText_inj] at h
        exact (Binary64.text_eq_iff_same hx).mp h
      | true =>
        rw [told_of_not_isFinite hx, told_of_isFinite hy] at h
        cases h
    | true =>
      cases hy : y.isFinite with
      | false =>
        rw [told_of_isFinite hx, told_of_not_isFinite hy] at h
        cases h
      | true =>
        rw [told_of_isFinite hx, told_of_isFinite hy] at h
        cases h
        exact Binary64.same_iff_sole_eq.mpr rfl
  · rw [Binary64.same, Bool.or_eq_true, Bool.and_eq_true, beq_iff_eq] at h
    rcases h with ⟨hx, hy⟩ | rfl
    · obtain ⟨hxfinite, hxtext⟩ := Binary64.hasName_iff.mp (.nan hx)
      obtain ⟨hyfinite, hytext⟩ := Binary64.hasName_iff.mp (.nan hy)
      rw [told_of_not_isFinite hxfinite, told_of_not_isFinite hyfinite, hxtext, hytext]
    · rfl

/-- Nothing else is told like the absent value. -/
theorem eq_null_of_told_eq (h : v.told = null.told) : v = null := by
  cases v with
  | null => rfl
  | string s => cases h
  | number x =>
    cases hx : x.isFinite with
    | true =>
      rw [told_of_isFinite hx] at h
      cases h
    | false =>
      rw [told_of_not_isFinite hx] at h
      cases h

/-- **The same is told** of two values just if they are the same or collide. -/
theorem told_eq_iff : v.told = w.told ↔ v.same w = true ∨ Collide v w := by
  refine ⟨fun h => ?_, ?_⟩
  · cases v with
    | null =>
      obtain rfl := eq_null_of_told_eq h.symm
      exact .inl rfl
    | number x =>
      cases w with
      | null => cases eq_null_of_told_eq h
      | number y => exact .inl (told_number_eq_number_iff.mp h)
      | string t => exact .inr (.numberString (told_number_eq_string_iff.mp h))
    | string s =>
      cases w with
      | null => cases eq_null_of_told_eq h
      | number y => exact .inr (.stringNumber (told_number_eq_string_iff.mp h.symm))
      | string t => exact .inr (.strings (ofText_inj.mp h))
  · rintro (h | ⟨h⟩ | ⟨h⟩ | ⟨h⟩)
    · rcases same_cases h with rfl | ⟨x, y, rfl, rfl, hxy⟩
      · rfl
      · exact told_number_eq_number_iff.mpr hxy
    · exact ofText_inj.mpr h
    · exact told_number_eq_string_iff.mpr h
    · exact (told_number_eq_string_iff.mpr h).symm

/-- The text of a finite number is that of no other value. -/
theorem json_eq_number_iff {x : Binary64} (h : x.isFinite = true) :
    v.json = (number x).json ↔ v = number x := by
  rw [json_eq_iff_told_eq, told_of_isFinite h]
  refine ⟨fun hv => ?_, fun hv => by rw [hv, told_of_isFinite h]⟩
  cases v with
  | null | string => cases hv
  | number y =>
    cases hy : y.isFinite with
    | true => rw [← hv, told_of_isFinite hy]
    | false =>
      rw [told_of_not_isFinite hy] at hv
      cases hv

/-- **Collisions in JSON.** Two values have the same JSON text just if they are the same value, or both
are strings that are read as one text, or one is a number that is not finite and the other a string
that is read as its name. So the texts of the absent value and of a finite number are those of no
other values, and the two zeros have different ones. Sameness is an equivalence, and values that are
the same are displayed alike. -/
theorem json_collisions (v w : Value) :
    (v.json = w.json ↔ v.same w = true ∨ Collide v w) ∧
      (v.json = null.json ↔ v = null) ∧
      (∀ x : Binary64, x.isFinite = true → (v.json = (number x).json ↔ v = number x)) ∧
      (∀ x : Binary64, x.isZero = true → (number x.opposite).json ≠ (number x).json) ∧
      Equivalence (fun v w : Value => v.same w = true) ∧
      (v.same w = true → v.display = w.display) := by
  refine ⟨json_eq_iff_told_eq.trans told_eq_iff, ?_, fun x => json_eq_number_iff, fun x h0 h => ?_,
    equivalence_same, display_eq_of_same⟩
  · rw [json_eq_iff_told_eq]
    exact ⟨eq_null_of_told_eq, congrArg told⟩
  · have hfinite : x.isFinite = true := by
      rw [Binary64.isFinite, Binary64.magnitude_of_isZero h0]
      decide
    have hopposite := number.inj ((json_eq_number_iff hfinite).mp h)
    have hsign : (!x.negative) = x.negative := congrArg Binary64.negative hopposite
    exact Bool.not_ne_self x.negative hsign

/-- A string of three letters has the text of a number that is none. -/
example : (string (.ofText "NaN")).json = (number .nan).json := by decide

end Value

end ScriptLiteral
