import ScriptLiteral.Listing.Basic
import ScriptLiteral.Proofs.NumeralLanguage
import ScriptLiteral.Proofs.StringGrammar

/-!
# The guess at the kind of a lexeme

A lexeme is taken for a literal of some kind by its first character, before anything is known of the
rest. The guess may be wrong about a lexeme that has no value, but never about one that has: a
string literal opens with a quote (`Kind.guess_of_quotedBy`), and a numeral with a digit, a point or
a separator, which open no other kind (`Kind.guess_of_numeral`). So where the guess comes to
nothing, every other choice of string or number comes to nothing as well.
-/

namespace ScriptLiteral

/-! ## What numerals begin with -/

section Openers

variable {base n : ℕ} {c : Char} {k : ℤ} {v : ℚ} {cs : List Char}

/-- The characters that a numeral may begin with, separators apart. -/
def numeralOpeners : List Char := '.' :: digitsOf 10

/-- Digits in base ten begin with one. -/
theorem Denotes.exists_opener (h : Denotes 10 cs n) (hne : cs ≠ []) (rest : List Char) :
    ∃ c ∈ numeralOpeners, (cs ++ rest).head? = some c := by
  cases h with
  | nil => exact absurd rfl hne
  | cons hc hv _ => exact ⟨_, List.mem_cons_of_mem _ (mem_digitsOf_iff.mpr ⟨_, hv, hc⟩), rfl⟩

/-- A decimal numeral begins with a digit or with a point. -/
theorem IsDecimal.exists_opener (h : IsDecimal cs v) : ∃ c ∈ numeralOpeners, cs.head? = some c := by
  obtain ⟨hms, -⟩ := h
  cases hms with
  | whole hne hws => exact hws.exists_opener hne _
  | pointed hne hws _ =>
    rw [List.append_assoc]
    exact hws.exists_opener hne _
  | fraction => exact ⟨'.', List.mem_cons_self .., rfl⟩

/-- So does every numeral, as those in other bases begin with a zero. -/
theorem IsNumeral.exists_opener (h : IsNumeral cs v) : ∃ c ∈ numeralOpeners, cs.head? = some c := by
  cases h with
  | decimal h => exact h.exists_opener
  | natural h =>
    obtain ⟨-, -, -⟩ := h
    exact ⟨'0', by decide, rfl⟩

end Openers

/-! ## The guess -/

namespace Kind

variable {q c : Char} {inner cs : List Char} {lexeme : String}

/-- What is in quotes is taken for a string. -/
theorem guess_of_quotedBy (h : QuotedBy q inner lexeme) : guess lexeme = .string := by
  obtain ⟨hq, hcs⟩ := h
  rw [guess, hcs]
  exact if_pos (isQuote_iff.mpr hq)

/-- What begins as a numeral may, or with a separator, is taken for a number. -/
theorem guess_of_opener (h : lexeme.toList.head? = some c) (hc : c ∈ '_' :: numeralOpeners) :
    guess lexeme = .number := by
  have hothers : ('_' :: numeralOpeners).all
      (fun c => ¬ isQuote c = true ∧ c ≠ '/' ∧ c ≠ '\x60' ∧ c ≠ 'n') = true := by
    decide
  have hother := List.all_eq_true.mp hothers c hc
  obtain ⟨hquote, hslash, hback, hn⟩ := of_decide_eq_true hother
  obtain ⟨cs, hcs⟩ := List.head?_eq_some_iff.mp h
  have hnull : c :: cs ≠ ['n', 'u', 'l', 'l'] := fun h => hn (List.cons.inj h).1
  rw [guess, hcs]
  simp only
  rw [if_neg hquote, if_neg hslash, if_neg hback, if_neg hnull]

/-- The first character of a text is that of the text without separators, or it is one. -/
theorem head?_of_withoutSeparators (h : (withoutSeparators lexeme).head? = some c) :
    lexeme.toList.head? = some c ∨ lexeme.toList.head? = some '_' := by
  unfold withoutSeparators at h
  cases hcs : lexeme.toList with
  | nil =>
    rw [hcs] at h
    cases h
  | cons d ds =>
    rw [hcs, List.filter_cons] at h
    split at h
    · exact .inl h
    · next hd => exact .inr (by simpa using hd)

/-- **A numeral is taken for a number**, wherever it has separators. -/
theorem guess_of_numeral (h : withoutSeparators lexeme ∈ numerals) : guess lexeme = .number := by
  obtain ⟨v, hv⟩ := mem_numerals_iff.mp h
  obtain ⟨c, hc, hhead⟩ := hv.exists_opener
  obtain h | h := head?_of_withoutSeparators hhead
  · exact guess_of_opener h (List.mem_cons_of_mem _ hc)
  · exact guess_of_opener h (List.mem_cons_self ..)

/-- One text is taken for the literal of the absent value. -/
theorem guess_eq_null_iff : guess lexeme = .null ↔ lexeme = "null" := by
  refine ⟨fun h => ?_, ?_⟩
  · unfold guess at h
    split at h
    · cases h
    · next c cs hcs =>
      split at h
      · cases h
      · split at h
        · cases h
        · split at h
          · cases h
          · split at h
            · next hnull => exact String.toList_inj.mp (hcs.trans hnull)
            · cases h
  · rintro rfl
    decide

end Kind

/-! ## Values -/

section Values

variable {lexeme : String} {s : UnitString}

/-- A lexeme that has a value as a string literal is in quotes. -/
theorem guess_of_stringValue (h : (stringValue lexeme).value = .ok s) :
    Kind.guess lexeme = .string := by
  obtain ⟨q, inner, -, hq, -⟩ := exists_splits_of_ok h
  exact Kind.guess_of_quotedBy hq

/-- A lexeme whose value as a numeric literal is a number is a numeral. -/
theorem guess_of_numberValue (h : (numberValue lexeme).value.isNaN = false) :
    Kind.guess lexeme = .number := by
  refine Kind.guess_of_numeral ?_
  by_contra hno
  rw [numberValue_of_not_mem hno] at h
  cases h

end Values

/-- There is no value, or it is not a number in spite of its kind. -/
def Resolution.IsVain (r : Resolution) : Prop :=
  (∃ f, r = .error f) ∨ ∃ x, r = .ok (.number x) ∧ x.isNaN = true

/-- **The guess misdirects no lexeme that has a value.** A lexeme with a value as a string literal
is taken for a string, one whose value as a numeric literal is a number is taken for a number, and
null alone is taken for null. So if a lexeme that is listed by its look has no value, or one that is
not a number, then it has no value if every lexeme is to be a string, and one that is not a number
if every lexeme is to be a number. -/
theorem guess_misdirects_none (lexeme : String) :
    (∀ s, (stringValue lexeme).value = .ok s → Kind.guess lexeme = .string) ∧
    ((numberValue lexeme).value.isNaN = false → Kind.guess lexeme = .number) ∧
    (Kind.guess lexeme = .null ↔ lexeme = "null") ∧
    ∀ form before,
      let resolve (kind : Option Kind) :=
        ((Listing.mk kind form).literal before lexeme).resolve.value
      (resolve none).IsVain →
        (∃ f, resolve (some .string) = .error f) ∧
        ∃ x, resolve (some .number) = .ok (.number x) ∧ x.isNaN = true := by
  refine ⟨fun _ => guess_of_stringValue, guess_of_numberValue, Kind.guess_eq_null_iff, ?_⟩
  intro form before resolve hvain
  have hstring : resolve (some .string) = (stringValue lexeme).value.map .string := rfl
  have hnumber : resolve (some .number) = .ok (.number (numberValue lexeme).value) := rfl
  have hguess : resolve none = resolve (some (Kind.guess lexeme)) := rfl
  refine ⟨?_, _, hnumber, ?_⟩
  · cases hs : (stringValue lexeme).value with
    | error f => exact ⟨f, by rw [hstring, hs]; rfl⟩
    | ok s =>
      -- a value as a string would have been found by the guess
      rw [hguess, guess_of_stringValue hs, hstring, hs] at hvain
      obtain ⟨f, hf⟩ | ⟨x, hx, -⟩ := hvain
      · cases hf
      · cases hx
  · by_contra hnum
    rw [Bool.not_eq_true] at hnum
    rw [hguess, guess_of_numberValue hnum, hnumber] at hvain
    obtain ⟨f, hf⟩ | ⟨x, hx, hnan⟩ := hvain
    · cases hf
    · cases hx
      rw [hnum] at hnan
      cases hnan

/-- A separator in front of a numeral, and a quote alone. -/
example : Kind.guess "_1" = .number ∧ (numberValue "_1").value.isNaN = false ∧
    Kind.guess "'" = .string ∧ (stringValue "'").value = .error (.unquoted "'") := by
  decide +kernel

end ScriptLiteral
