import ScriptLiteral.Listing.Entry
import ScriptLiteral.Proofs.JsonReader
import ScriptLiteral.Proofs.StringGrammar
import ScriptLiteral.Proofs.Surrogates

/-!
# Rendered strings are literals

A string value is shown in quotes with its quotes, backslashes and control characters escaped. The
escapes come from the tables of JSON and not from those of string literals, but each of them is an
element of the grammar of literals too, and contributes the character it stands for
(`spells_escapeChar`). So the text between the quotes splits into one element for each character
(`splits_escaped`), and what is shown of a string is itself a literal for the text shown
(`stringValue_quote`).

The main result, `rendered_string`, is about what a listing shows: its string cells can be taken for
lexemes again, and they have the value from which they came, unless that value had an unpaired
surrogate.
-/

namespace ScriptLiteral

/-! ## Escapes of characters -/

/-- An escaped character is one element of a string literal, in front of any text, and contributes
the units of the character. -/
theorem spells_escapeChar (c : Char) (rest : List Char) :
    Spells rest (Json.escapeChar c) (charUnits c) := by
  rcases Json.escapeChar_cases c with ⟨l, hl, hc⟩ | ⟨hlt, hc⟩ | ⟨-, -, hne, hc⟩
  · -- a short escape is that of a control character, or its letter stands for itself
    have hall : ∀ p ∈ Json.shortEscapes,
        (∃ q ∈ controlUnits, q.1 = p.1 ∧ charUnits p.2 = [q.2]) ∨ p.1 = p.2 ∧ p.1 ∉ reserved := by
      decide
    rw [hc]
    rcases hall (l, c) hl with ⟨q, hq, rfl, hunits⟩ | ⟨heq, hreserved⟩
    · exact hunits ▸ .control hq
    · obtain rfl : l = c := heq
      exact .identity hreserved (encodes_charUnits l)
  · -- the other control characters have the escape of their number
    rw [hc, charUnits, if_pos (by omega)]
    refine .unit (Json.hexChar_mem_hexDigits (n := 0) (by omega))
      (Json.hexChar_mem_hexDigits (n := 0) (by omega)) (Json.hexChar_mem_hexDigits (by omega))
      (Json.hexChar_mem_hexDigits (by omega)) ?_
    rw [toNat_toUInt16 (by omega)]
    omega
  · rw [hc]
    exact .raw hne (encodes_charUnits c)

/-- An escaped text splits into the elements of its characters. -/
theorem splits_escaped (cs : List Char) :
    Splits (cs.flatMap Json.escapeChar) (cs.map fun c => ⟨Json.escapeChar c, charUnits c⟩) := by
  induction cs with
  | nil => exact .nil
  | cons c cs ih => exact .cons (p := ⟨Json.escapeChar c, charUnits c⟩) (spells_escapeChar c _) ih

/-! ## Texts in quotes -/

/-- A quoted text is a text in quotes. -/
theorem quotedBy_quote (t : String) :
    QuotedBy '"' (t.toList.flatMap Json.escapeChar) (Json.quote t) :=
  ⟨.inr rfl, by simp [Json.quote, Json.quoteChars]⟩

/-- By its look, a text in quotes is a string literal. -/
theorem guess_of_quotedBy {q : Char} {inner : List Char} {lexeme : String}
    (h : QuotedBy q inner lexeme) : Kind.guess lexeme = .string := by
  obtain ⟨hq, hlexeme⟩ := h
  rw [Kind.guess, hlexeme]
  exact if_pos (isQuote_iff.mpr hq)

/-- **A quoted text is a literal** for the text. -/
theorem stringValue_quote (t : String) :
    (stringValue (Json.quote t)).value = .ok (.ofText t) := by
  obtain ⟨es, hes, hparts⟩ := scan_of_splits (splits_escaped t.toList) 1
  rw [value_stringValue (quotedBy_quote t), hes]
  refine congrArg Except.ok (UnitString.ext ?_)
  have hunits : es.flatMap Element.units = (es.map Element.part).flatMap Part.units := by
    rw [List.flatMap_map]
    rfl
  rw [unitsOf, hunits, hparts, List.flatMap_map]
  rfl

/-! ## String cells of a listing -/

/-- **Rendered strings are literals.** What a listing shows of a string, in its columns as in its
records, looks like a string literal and is one for the text that the string is read as. It is a
literal for the string itself just if the surrogates of the string are paired. Resolving it gives a
value that is shown in the same way. -/
theorem rendered_string (s : UnitString) :
    let r := Entry.valueText (.string s)
    Value.json (.string s) = r ∧ Kind.guess r = .string ∧
      (stringValue r).value = .ok (.ofText s.lossy) ∧
      ((stringValue r).value = .ok s ↔ IsPaired s.units) ∧
      ∀ span, ∃ v, (Literal.resolve ⟨Kind.guess r, r, span⟩).value = .ok v ∧
        Entry.valueText v = r ∧ (v = .string s ↔ IsPaired s.units) := by
  intro r
  have hguess : Kind.guess r = .string := guess_of_quotedBy (quotedBy_quote s.lossy)
  have hvalue : (stringValue r).value = .ok (.ofText s.lossy) := stringValue_quote s.lossy
  refine ⟨rfl, hguess, hvalue, ?_, fun span => ⟨.string (.ofText s.lossy), ?_, ?_, ?_⟩⟩
  · rw [hvalue, Except.ok.injEq, UnitString.ofText_lossy_eq_iff]
  · simp only [Literal.resolve, hguess, Logged.value_bind, Logged.value_pure, hvalue]
    rfl
  · rw [Entry.valueText, UnitString.lossy_ofText]
    rfl
  · rw [Value.string.injEq, UnitString.ofText_lossy_eq_iff]

end ScriptLiteral
