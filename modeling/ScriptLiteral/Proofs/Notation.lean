import ScriptLiteral.Decimal.Notation
import ScriptLiteral.Proofs.NumeralGrammar
import ScriptLiteral.Proofs.Significand

/-!
# Written numerals

Whatever its layout, a written number has the same anatomy: digits, perhaps a point and more digits,
perhaps an exponent. `NumeralParts` holds these parts, and `Significand.parts` says which ones a
layout gives to a significand, so that the four shapes of `Significand.write` become one
(`Significand.write_eq_text`).

A numeral in parts is read as the decimal of its digits with the point moved behind the last one
(`NumeralParts.read?_text`), and a layout only moves the point and fills in zeros: the decimal that
is read has the value of the significand that was written (`Significand.value_parts`).
-/

namespace ScriptLiteral

/-! ## The parts of a numeral -/

/-- The parts of a numeral without a sign. -/
structure NumeralParts where
  /-- the digits before the point -/
  whole : List (Fin 10)
  /-- the digits after the point, which is written if there are any -/
  fraction : List (Fin 10)
  /-- the power of ten, if it is written -/
  exponent : Option Int

namespace NumeralParts

/-- The point and the digits after it. -/
def fractionText (p : NumeralParts) : List Char :=
  if p.fraction = [] then [] else '.' :: p.fraction.map digitChar

/-- The power of ten as it stands at the end. -/
def exponentText (p : NumeralParts) : List Char :=
  (p.exponent.map Significand.exponentPart).getD []

/-- The numeral. -/
def text (p : NumeralParts) : List Char :=
  p.whole.map digitChar ++ (p.fractionText ++ p.exponentText)

/-- The number, its digits taken as one natural number. -/
def decimal (p : NumeralParts) : Decimal :=
  ⟨ofDigits (p.whole ++ p.fraction), p.exponent.getD 0 - p.fraction.length⟩

/-- There are digits before the point, and a zero does not come first unless it is alone. -/
structure IsStrict (p : NumeralParts) : Prop where
  /-- there is a digit before the point -/
  ne_nil : p.whole ≠ []
  /-- no idle zero comes first -/
  head_ne : p.whole.head? = some 0 → p.whole = [0]

theorem IsStrict.of_head {p : NumeralParts} (hne : p.whole ≠ []) (hhead : p.whole.head? ≠ some 0) :
    p.IsStrict :=
  ⟨hne, fun h => absurd h hhead⟩

end NumeralParts

/-! ## Reading the parts -/

/-- A written power of ten is one. -/
theorem isExponent_exponentPart (e : Int) : IsExponent (Significand.exponentPart e) e := by
  have hne : (toDigits e.natAbs).map digitChar ≠ [] :=
    mt List.map_eq_nil_iff.mp (toDigits_ne_nil _)
  have hdigits := denotes_map_digitChar (toDigits e.natAbs)
  rw [ofDigits_toDigits] at hdigits
  refine .present (.inl rfl) ?_
  split
  · have hneg := IsInteger.minus hne hdigits
    rwa [show -(e.natAbs : ℤ) = e by omega] at hneg
  · have hpos := IsInteger.plus hne hdigits
    rwa [show (e.natAbs : ℤ) = e by omega] at hpos

/-- The characters of decimal numerals. -/
def numeralChars : List Char := "0123456789.eE+-".toList

theorem digitChar_mem_numeralChars (d : Fin 10) : digitChar d ∈ numeralChars := by
  revert d
  decide

namespace NumeralParts

variable (p : NumeralParts)

theorem isExponent_exponentText : IsExponent p.exponentText (p.exponent.getD 0) := by
  unfold exponentText
  cases p.exponent with
  | none => exact .absent
  | some e => exact isExponent_exponentPart e

/-- What follows the digits before the point begins with no digit. -/
theorem noDigit_fractionText : NoDigit (p.fractionText ++ p.exponentText) := by
  unfold fractionText
  split
  · exact p.isExponent_exponentText.follows.1
  · exact noDigit_cons (by decide)

/-- The digits before the point are read up to it. -/
theorem spanDigits_text :
    spanDigits p.text = (p.whole, p.fractionText ++ p.exponentText) :=
  spanDigits_append (digits?_map_digitChar p.whole) p.noDigit_fractionText

/-- The digits after the point are read up to the exponent. -/
theorem spanFraction_text :
    Decimal.spanFraction (p.fractionText ++ p.exponentText) = (p.fraction, p.exponentText) := by
  have hfollows := p.isExponent_exponentText.follows
  unfold fractionText
  split
  · next h =>
    rw [h]
    exact spanFraction_of_follows hfollows.2
  · exact spanDigits_append (digits?_map_digitChar p.fraction) hfollows.1

variable {p}

/-- **Reading a numeral in parts.** -/
theorem read?_text (hne : p.whole ≠ []) : Decimal.read? p.text = some p.decimal := by
  rw [read?_of_spans p.spanDigits_text p.spanFraction_text, if_neg (fun h => hne h.1),
    readExponent?_eq_some_iff.mpr p.isExponent_exponentText]
  rfl

/-- A numeral in parts denotes what it is read as. -/
theorem isDecimal_text (hne : p.whole ≠ []) : IsDecimal p.text p.decimal.value :=
  isDecimal_iff.mpr ⟨p.decimal, read?_text hne, rfl⟩

/-- Numerals hold nothing but digits, a point, the letter `e` and signs. -/
theorem mem_numeralChars {c : Char} (hc : c ∈ p.text) : c ∈ numeralChars := by
  have hdigits : ∀ ds : List (Fin 10), ∀ d ∈ ds.map digitChar, d ∈ numeralChars := by
    intro ds d hd
    obtain ⟨e, -, rfl⟩ := List.mem_map.mp hd
    exact digitChar_mem_numeralChars e
  rw [text, List.mem_append, List.mem_append] at hc
  rcases hc with hc | hc | hc
  · exact hdigits _ c hc
  · unfold fractionText at hc
    split at hc
    · exact absurd hc List.not_mem_nil
    · obtain rfl | hc := List.mem_cons.mp hc
      · decide
      · exact hdigits _ c hc
  · unfold exponentText at hc
    cases he : p.exponent with
    | none => simp [he] at hc
    | some e =>
      simp only [he, Option.map_some, Option.getD_some, Significand.exponentPart,
        List.mem_cons] at hc
      rcases hc with rfl | rfl | hc
      · decide
      · split <;> decide
      · exact hdigits _ c hc

/-- A numeral begins with a digit. -/
theorem exists_head_text (hne : p.whole ≠ []) : ∃ d cs, p.text = digitChar d :: cs := by
  obtain ⟨d, ds, hds⟩ := List.exists_cons_of_ne_nil hne
  exact ⟨d, _, by rw [text, hds, List.map_cons, List.cons_append]⟩

/-- A natural number has digits before the point alone. -/
def ofNat (n : ℕ) : NumeralParts := ⟨toDigits n, [], none⟩

theorem text_ofNat (n : ℕ) : (ofNat n).text = (toString n).toList := by
  rw [toList_toString]
  exact List.append_nil _

theorem decimal_ofNat (n : ℕ) : (ofNat n).decimal = ⟨n, 0⟩ := by
  simp [decimal, ofNat, ofDigits_toDigits]

theorem isStrict_ofNat (n : ℕ) : (ofNat n).IsStrict := by
  refine ⟨toDigits_ne_nil n, fun h => ?_⟩
  by_cases h0 : n = 0
  · rw [h0]
    exact toDigits_of_lt (by decide)
  · exact absurd h (head?_toDigits h0)

end NumeralParts

/-! ## The parts of a significand -/

namespace Significand

/-- The parts of a significand in a layout. -/
def parts (l : Layout) (s : Significand) : NumeralParts :=
  if l.leastPoint ≤ s.point ∧ s.point ≤ l.greatestPoint then
    if s.point ≤ 0 then ⟨[0], List.replicate s.point.natAbs 0 ++ s.digits, none⟩
    else if s.digits.length ≤ s.point.toNat then
      ⟨s.digits ++ List.replicate (s.point.toNat - s.digits.length) 0,
        List.replicate l.keepsFraction.toNat 0, none⟩
    else ⟨s.digits.take s.point.toNat, s.digits.drop s.point.toNat, none⟩
  else ⟨s.digits.take 1, s.digits.drop 1, some (s.point - 1)⟩

variable {s : Significand}

theorem zeros_eq_map (n : ℕ) : zeros n = (List.replicate n 0).map digitChar := by
  rw [List.map_replicate]
  rfl

/-- **The shapes of numerals.** Whatever the layout, the parts are written one after the other. -/
theorem write_eq_text (l : Layout) (hs : s.digits ≠ []) : s.write l = (s.parts l).text := by
  unfold write parts
  split
  · simp only [positional, List.length_map]
    split
    · -- the point before the digits
      simp [NumeralParts.text, NumeralParts.fractionText, NumeralParts.exponentText, hs,
        zeros_eq_map]
      decide
    · split
      · -- the point behind them
        cases l.keepsFraction <;>
          simp [NumeralParts.text, NumeralParts.fractionText, NumeralParts.exponentText,
            zeros_eq_map]
        decide
      · -- the point among them
        next h =>
        simp [NumeralParts.text, NumeralParts.fractionText, NumeralParts.exponentText,
          List.map_take, List.map_drop]
        omega
  · -- the point after the first digit, and a power of ten
    obtain ⟨d, ds, hds⟩ := List.exists_cons_of_ne_nil hs
    cases ds <;>
      simp [scientific, hds, NumeralParts.text, NumeralParts.fractionText,
        NumeralParts.exponentText]

/-- Moving the point between the digits and the power of ten leaves the value as it is. -/
theorem value_of_coefficient {c k : ℕ} {e : ℤ} (hc : c = ofDigits s.digits * 10 ^ k)
    (he : e + k = s.point - s.digits.length) : Decimal.value ⟨c, e⟩ = s.value := by
  rw [Decimal.value, value, hc, ← he, Nat.cast_mul, mul_assoc, add_comm, zpow_add₀ (by norm_num),
    zpow_natCast]
  push_cast
  rfl

/-- **A layout keeps the value.** -/
theorem value_parts (l : Layout) (hs : s.digits ≠ []) :
    (s.parts l).decimal.value = s.value := by
  have hlength := List.length_pos_of_ne_nil hs
  unfold parts
  split
  · split
    · refine value_of_coefficient (k := 0) ?_ ?_
      · rw [List.cons_append, List.nil_append, ofDigits_cons, ofDigits_append,
          ofDigits_replicate_zero]
        simp
      · rw [List.length_append, List.length_replicate, Option.getD_none]
        omega
    · split
      · refine value_of_coefficient
          (k := s.point.toNat - s.digits.length + l.keepsFraction.toNat) ?_ ?_
        · rw [List.append_assoc, List.replicate_append_replicate, ofDigits_append_zeros]
        · rw [List.length_replicate, Option.getD_none]
          omega
      · refine value_of_coefficient (k := 0) ?_ ?_
        · rw [List.take_append_drop, pow_zero, mul_one]
        · rw [List.length_drop, Option.getD_none]
          omega
  · refine value_of_coefficient (k := 0) ?_ ?_
    · rw [List.take_append_drop, pow_zero, mul_one]
    · rw [List.length_drop, Option.getD_some]
      omega

/-- The parts of a normal significand make up a strict numeral. -/
theorem IsNormal.isStrict_parts (hs : s.IsNormal) (l : Layout) : (s.parts l).IsStrict := by
  obtain ⟨d, ds, hds⟩ := List.exists_cons_of_ne_nil hs.ne_nil
  have hd : d ≠ 0 := by simpa [hds] using hs.head_ne
  unfold parts
  split
  · split
    · exact ⟨List.cons_ne_nil _ _, fun _ => rfl⟩
    · split
      · exact .of_head (by simp [hds]) (by simpa [hds] using hd)
      · obtain ⟨n, hn⟩ : ∃ n, s.point.toNat = n + 1 := ⟨s.point.toNat - 1, by omega⟩
        exact .of_head (by simp [hds, hn]) (by simpa [hds, hn] using hd)
  · exact .of_head (by simp [hds]) (by simpa [hds] using hd)

/-- **Written numbers are numerals** for the number that was written. -/
theorem IsNormal.isDecimal_write (hs : s.IsNormal) (l : Layout) :
    IsDecimal (s.write l) s.value := by
  rw [write_eq_text l hs.ne_nil, ← value_parts l hs.ne_nil]
  exact NumeralParts.isDecimal_text (hs.isStrict_parts l).ne_nil

end Significand

end ScriptLiteral
