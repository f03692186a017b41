import ScriptLiteral.Proofs.NumberValue
import Mathlib.Computability.Language

/-!
# The language of numerals

Which texts are numerals, as a language over characters: `numerals` is put together from single
characters by choice, sequence and repetition alone, and says nothing of the number that a text
denotes. It has the same texts as the grammar that does (`mem_numerals_iff`), one part of a numeral
after the other.

The main result, `number_iff_mem_numerals`, is about every text. Its value is a number just if the
text is a numeral once the separators are left out; otherwise the value is one and the same NaN, and
a warning quotes the text as it was given. Signs, words that other readers of numbers take, a mark
without digits and a point alone are none of the language, so they need no mention.
-/

namespace ScriptLiteral

open Computability

/-! ## The language -/

/-- The texts of one character, which is one of those given. -/
def oneOf (cs : List Char) : Language Char := {t | ∃ c ∈ cs, t = [c]}

/-- The digits of a base. -/
def digitsOf (base : ℕ) : List Char := (hexDigits.filter (·.2 < base)).map Prod.fst

/-- Rows of digits of a base, the empty row among them. -/
def anyDigits (base : ℕ) : Language Char := (oneOf (digitsOf base))∗

/-- Rows of at least one digit of a base. -/
def someDigits (base : ℕ) : Language Char := oneOf (digitsOf base) * anyDigits base

/-- Digits, with at most one point among or beside them. -/
def mantissas : Language Char :=
  someDigits 10 + someDigits 10 * (oneOf ['.'] * anyDigits 10) + oneOf ['.'] * someDigits 10

/-- The letter of an exponent and an integer, with a sign if need be. -/
def exponents : Language Char :=
  oneOf ['e', 'E'] * (someDigits 10 + oneOf ['+', '-'] * someDigits 10)

/-- Numerals in base ten. -/
def decimalNumerals : Language Char := mantissas * (1 + exponents)

/-- Numerals in the other bases, each behind its mark. -/
def prefixedNumerals : Language Char :=
  oneOf ['0'] * (oneOf ['x', 'X'] * someDigits 16 + oneOf ['o', 'O'] * someDigits 8 +
    oneOf ['b', 'B'] * someDigits 2)

/-- All numerals. -/
def numerals : Language Char := prefixedNumerals + decimalNumerals

/-! ## Its texts -/

section Membership

variable {base : ℕ} {c : Char} {cs ds t : List Char} {l : Language Char}

/-- A character in front is one of those given. -/
theorem mem_oneOf_mul : t ∈ oneOf cs * l ↔ ∃ c ∈ cs, ∃ r ∈ l, t = c :: r := by
  rw [Language.mem_mul]
  refine ⟨?_, ?_⟩
  · rintro ⟨-, ⟨c, hc, rfl⟩, r, hr, rfl⟩
    exact ⟨c, hc, r, hr, rfl⟩
  · rintro ⟨c, hc, r, hr, rfl⟩
    exact ⟨[c], ⟨c, hc, rfl⟩, r, hr, rfl⟩

theorem cons_mem_oneOf_mul : c :: t ∈ oneOf cs * l ↔ c ∈ cs ∧ t ∈ l := by
  rw [mem_oneOf_mul]
  refine ⟨?_, fun ⟨hc, ht⟩ => ⟨c, hc, t, ht, rfl⟩⟩
  rintro ⟨d, hd, r, hr, heq⟩
  obtain ⟨rfl, rfl⟩ := List.cons.inj heq
  exact ⟨hd, hr⟩

/-- A digit of a base has a value below it. -/
theorem mem_digitsOf_iff : c ∈ digitsOf base ↔ ∃ v < base, (c, v) ∈ hexDigits := by
  simp only [digitsOf, List.mem_map, List.mem_filter, decide_eq_true_eq]
  refine ⟨?_, ?_⟩
  · rintro ⟨⟨c, v⟩, ⟨hmem, hv⟩, rfl⟩
    exact ⟨v, hv, hmem⟩
  · rintro ⟨v, hv, hmem⟩
    exact ⟨(c, v), ⟨hmem, hv⟩, rfl⟩

theorem mem_anyDigits_cons : c :: cs ∈ anyDigits base ↔ c ∈ digitsOf base ∧ cs ∈ anyDigits base := by
  rw [← cons_mem_oneOf_mul (l := anyDigits base)]
  conv_lhs => rw [anyDigits, ← Language.one_add_self_mul_kstar_eq_kstar, Language.mem_add]
  rw [Language.mem_one, or_iff_right (List.cons_ne_nil c cs), anyDigits]

/-- Rows of digits are those that denote a number. -/
theorem mem_anyDigits_iff : cs ∈ anyDigits base ↔ ∃ n, Denotes base cs n := by
  induction cs with
  | nil => exact ⟨fun _ => ⟨0, .nil⟩, fun _ => Language.nil_mem_kstar _⟩
  | cons c cs ih =>
    rw [mem_anyDigits_cons, ih, mem_digitsOf_iff]
    refine ⟨?_, ?_⟩
    · rintro ⟨⟨v, hv, hc⟩, n, hn⟩
      exact ⟨_, .cons hc hv hn⟩
    · rintro ⟨_, hcs⟩
      cases hcs with
      | @cons _ v n _ hc hv hn => exact ⟨⟨v, hv, hc⟩, n, hn⟩

theorem mem_someDigits_iff : cs ∈ someDigits base ↔ cs ≠ [] ∧ ∃ n, Denotes base cs n := by
  rw [← mem_anyDigits_iff]
  cases cs with
  | nil =>
    rw [someDigits, mem_oneOf_mul]
    simp
  | cons c cs =>
    rw [someDigits, cons_mem_oneOf_mul, mem_anyDigits_cons, and_iff_right (List.cons_ne_nil c cs)]

/-- The mantissas of the language are those of the grammar. -/
theorem mem_mantissas_iff : t ∈ mantissas ↔ ∃ m, IsMantissa t m := by
  simp only [mantissas, Language.mem_add]
  refine ⟨?_, ?_⟩
  · rintro ((h | h) | h)
    · obtain ⟨hne, w, hw⟩ := mem_someDigits_iff.mp h
      exact ⟨_, .whole hne hw⟩
    · obtain ⟨ws, hws, rest, hrest, rfl⟩ := Language.mem_mul.mp h
      obtain ⟨hne, w, hw⟩ := mem_someDigits_iff.mp hws
      obtain ⟨c, hc, fs, hfs, rfl⟩ := mem_oneOf_mul.mp hrest
      obtain ⟨f, hf⟩ := mem_anyDigits_iff.mp hfs
      obtain rfl := List.mem_singleton.mp hc
      exact ⟨_, .pointed hne hw hf⟩
    · obtain ⟨c, hc, fs, hfs, rfl⟩ := mem_oneOf_mul.mp h
      obtain ⟨hne, f, hf⟩ := mem_someDigits_iff.mp hfs
      obtain rfl := List.mem_singleton.mp hc
      exact ⟨_, .fraction hne hf⟩
  · rintro ⟨m, hm⟩
    cases hm with
    | whole hne hw => exact .inl (.inl (mem_someDigits_iff.mpr ⟨hne, _, hw⟩))
    | pointed hne hw hf =>
      refine .inl (.inr (Language.append_mem_mul (mem_someDigits_iff.mpr ⟨hne, _, hw⟩) ?_))
      exact cons_mem_oneOf_mul.mpr ⟨List.mem_singleton_self _, mem_anyDigits_iff.mpr ⟨_, hf⟩⟩
    | fraction hne hf =>
      refine .inr (cons_mem_oneOf_mul.mpr ⟨List.mem_singleton_self _, ?_⟩)
      exact mem_someDigits_iff.mpr ⟨hne, _, hf⟩

/-- An exponent of the grammar is one of the language or none at all. -/
theorem mem_exponents_iff : t ∈ 1 + exponents ↔ ∃ k, IsExponent t k := by
  rw [Language.mem_add, Language.mem_one, exponents, mem_oneOf_mul]
  refine ⟨?_, ?_⟩
  · rintro (rfl | ⟨c, hc, r, hr, rfl⟩)
    · exact ⟨0, .absent⟩
    · have hletter : c = 'e' ∨ c = 'E' := by simpa using hc
      obtain h | h := hr
      · obtain ⟨hne, n, hn⟩ := mem_someDigits_iff.mp h
        exact ⟨_, .present hletter (.unsigned hne hn)⟩
      · obtain ⟨sign, hsign, ds, hds, rfl⟩ := mem_oneOf_mul.mp h
        obtain ⟨hne, n, hn⟩ := mem_someDigits_iff.mp hds
        obtain rfl | rfl : sign = '+' ∨ sign = '-' := by simpa using hsign
        · exact ⟨_, .present hletter (.plus hne hn)⟩
        · exact ⟨_, .present hletter (.minus hne hn)⟩
  · rintro ⟨k, hk⟩
    cases hk with
    | absent => exact .inl rfl
    | @present c k ds hc hds =>
      refine .inr ⟨c, by simpa using hc, ds, ?_, rfl⟩
      cases hds with
      | unsigned hne hn => exact .inl (mem_someDigits_iff.mpr ⟨hne, _, hn⟩)
      | plus hne hn =>
        exact .inr (cons_mem_oneOf_mul.mpr ⟨by simp, mem_someDigits_iff.mpr ⟨hne, _, hn⟩⟩)
      | minus hne hn =>
        exact .inr (cons_mem_oneOf_mul.mpr ⟨by simp, mem_someDigits_iff.mpr ⟨hne, _, hn⟩⟩)

theorem mem_decimalNumerals_iff : t ∈ decimalNumerals ↔ ∃ v, IsDecimal t v := by
  rw [decimalNumerals, Language.mem_mul]
  refine ⟨?_, ?_⟩
  · rintro ⟨ms, hms, es, hes, rfl⟩
    obtain ⟨m, hm⟩ := mem_mantissas_iff.mp hms
    obtain ⟨k, hk⟩ := mem_exponents_iff.mp hes
    exact ⟨_, .intro hm hk⟩
  · rintro ⟨_, hms, hes⟩
    exact ⟨_, mem_mantissas_iff.mpr ⟨_, hms⟩, _, mem_exponents_iff.mpr ⟨_, hes⟩, rfl⟩

/-- A mark from a list and digits of one base are a numeral if the table has these marks. -/
theorem exists_isPrefixed {marks : List Char} (hmarks : ∀ c ∈ marks, (c, base) ∈ radixMarks)
    (h : t ∈ oneOf marks * someDigits base) : ∃ n, IsPrefixed ('0' :: t) n := by
  obtain ⟨c, hc, ds, hds, rfl⟩ := mem_oneOf_mul.mp h
  obtain ⟨hne, n, hn⟩ := mem_someDigits_iff.mp hds
  exact ⟨n, .intro (hmarks c hc) hne hn⟩

theorem mem_prefixedNumerals_iff : t ∈ prefixedNumerals ↔ ∃ n, IsPrefixed t n := by
  rw [prefixedNumerals, mem_oneOf_mul]
  refine ⟨?_, ?_⟩
  · rintro ⟨zero, hzero, r, hr, rfl⟩
    obtain rfl := List.mem_singleton.mp hzero
    obtain (h | h) | h := hr
    · exact exists_isPrefixed (by simp [radixMarks]) h
    · exact exists_isPrefixed (by simp [radixMarks]) h
    · exact exists_isPrefixed (by simp [radixMarks]) h
  · rintro ⟨n, @⟨c, base, _, ds, hc, hne, hds⟩⟩
    refine ⟨'0', List.mem_singleton_self _, c :: ds, ?_, rfl⟩
    have hdigits := mem_someDigits_iff.mpr ⟨hne, n, hds⟩
    simp only [radixMarks, List.mem_cons, List.not_mem_nil, or_false, Prod.mk.injEq] at hc
    simp only [Language.mem_add, cons_mem_oneOf_mul, List.mem_cons, List.not_mem_nil, or_false]
    rcases hc with ⟨hc, rfl⟩ | ⟨hc, rfl⟩ | ⟨hc, rfl⟩ | ⟨hc, rfl⟩ | ⟨hc, rfl⟩ | ⟨hc, rfl⟩ <;>
      simp [hc, hdigits]

/-- **The texts of the language** are the numerals that denote a number. -/
theorem mem_numerals_iff : t ∈ numerals ↔ ∃ v, IsNumeral t v := by
  rw [numerals, Language.mem_add, mem_prefixedNumerals_iff, mem_decimalNumerals_iff]
  refine ⟨?_, ?_⟩
  · rintro (⟨n, hn⟩ | ⟨v, hv⟩)
    · exact ⟨_, .natural hn⟩
    · exact ⟨_, .decimal hv⟩
  · rintro ⟨v, hv⟩
    cases hv with
    | decimal hv => exact .inr ⟨_, hv⟩
    | natural hn => exact .inl ⟨_, hn⟩

end Membership

/-! ## Literals -/

section Literal

variable {text : String}

/-- A text that is no numeral has the value that is not a number, and a warning is given. -/
theorem numberValue_of_not_mem (h : withoutSeparators text ∉ numerals) :
    numberValue text = ⟨.nan, [.notANumber text]⟩ := by
  cases hx : numeralValue? (withoutSeparators text) with
  | none =>
    rw [numberValue, hx]
    rfl
  | some x =>
    obtain ⟨v, hv, -⟩ := numeralValue?_eq_some_iff.mp hx
    exact absurd (mem_numerals_iff.mpr ⟨v, hv⟩) h

/-- **Which literals are numbers.** The value of a text is a number just if the text without its
separators is a numeral, and then no event is told of. The value of any other text is the NaN with
just the first fraction bit set, and there is one warning, which quotes the text with its
separators. No value has its sign bit set, and none depends on the separators. -/
theorem number_iff_mem_numerals (text : String) :
    let t := text.toList.filter (· ≠ '_')
    let x := (numberValue text).value
    (x.isNaN = false ↔ t ∈ numerals) ∧
      (x.toBits = 0x7FF8000000000000 ↔ t ∉ numerals) ∧
      x.negative = false ∧
      ((numberValue text).events.map fun e => (e.level, e.message)) =
        (if x.isNaN then
          [(.warn, "numeric literal " ++ visible text ++ " does not convert to a number")]
        else []) ∧
      (numberValue (String.ofList t)).value = x := by
  intro t x
  have hrest : (numberValue (String.ofList t)).value = x := by
    have hfilter : withoutSeparators (String.ofList t) = withoutSeparators text := by
      simp [withoutSeparators, t]
    simp only [x, numberValue, hfilter]
    cases numeralValue? (withoutSeparators text) <;> rfl
  by_cases ht : t ∈ numerals
  · obtain ⟨v, hv⟩ := mem_numerals_iff.mp ht
    obtain ⟨y, hy, hnear⟩ := IsNumeral.numberValue hv
    obtain rfl : y = x := (congrArg Logged.value hy).symm
    have hnum : x.isNaN = false := hnear.isNaN_eq_false
    have hbits : x.toBits ≠ 0x7FF8000000000000 := by
      intro h
      rw [← Binary64.ofBits_toBits x, h] at hnum
      exact absurd hnum (by decide)
    refine ⟨iff_of_true hnum ht, iff_of_false hbits (not_not.mpr ht), hnear.positive, ?_, hrest⟩
    rw [hy, hnum]
    rfl
  · have hx := numberValue_of_not_mem ht
    have hnan : x = .nan := congrArg Logged.value hx
    rw [hnan, hx]
    exact ⟨iff_of_false (by decide) ht, iff_of_true (by decide) ht, rfl, rfl, by rw [hrest, hnan]⟩

/-- A mark without digits, a point alone and a word are no numerals. -/
example : (numberValue "0x_").value = .nan ∧ (numberValue "_.").value = .nan ∧
    (numberValue "inf").value = .nan := by
  decide

end Literal

end ScriptLiteral
