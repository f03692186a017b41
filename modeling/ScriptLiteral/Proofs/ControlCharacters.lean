import ScriptLiteral.Proofs.ListingOutput
import ScriptLiteral.Proofs.RenderedString
import ScriptLiteral.Proofs.Replacement

/-!
# Control characters in listings

A string value is listed in quotes so that its control characters do not reach the terminal. But it
is quoted as in JSON, where only those below U+0020 have escapes: U+007F and the ones after it, up to
U+009F, are written as they are.

What quoting leaves over is looked at character by character (`filter_escapeChar`), and each of these
control characters is a single unit of the value, which no replacement of surrogates adds or takes
away (`filter_lossyChars`). So the control characters of a cell are just those of the value that come
late in the code (`controls_of_string_cell`), by whichever element of the lexeme they came into it.
-/

namespace ScriptLiteral

/-! ## Control characters -/

/-- The general category Cc. -/
def controlRanges : Ranges := [(0x0, 0x1F), (0x7F, 0x9F)]

/-- Whether a character is a control character. -/
def isControl (c : Char) : Bool := controlRanges.has c

/-- Whether it is one that comes after the printable characters of ASCII. -/
def isLateControl (c : Char) : Bool := Ranges.has [(0x7F, 0x9F)] c

/-- Whether a unit is such a character. -/
def isLateControlUnit (u : UInt16) : Bool := 0x7F ≤ u && u ≤ 0x9F

section Characters

variable {c : Char}

theorem isControl_iff : isControl c = true ↔ c.toNat < 0x20 ∨ 0x7F ≤ c.toNat ∧ c.toNat ≤ 0x9F := by
  simp [isControl, controlRanges, Ranges.has, Nat.lt_succ_iff]

theorem isLateControl_iff : isLateControl c = true ↔ 0x7F ≤ c.toNat ∧ c.toNat ≤ 0x9F := by
  simp [isLateControl, Ranges.has]

theorem isLateControlUnit_iff {u : UInt16} :
    isLateControlUnit u = true ↔ 0x7F ≤ u.toNat ∧ u.toNat ≤ 0x9F := by
  simp [isLateControlUnit, UInt16.le_iff_toNat_le]

/-- From U+0020 on, the control characters are the late ones. -/
theorem isControl_of_le (h : 0x20 ≤ c.toNat) : isControl c = isLateControl c := by
  rw [Bool.eq_iff_iff, isControl_iff, isLateControl_iff]
  omega

end Characters

/-! ## Quoting -/

/-- An escape holds no control character, and a character that has none stays what it is. -/
theorem filter_escapeChar (c : Char) :
    (Json.escapeChar c).filter isControl = [c].filter isLateControl := by
  rcases Json.escapeChar_cases c with ⟨l, hl, hc⟩ | ⟨hlt, hc⟩ | ⟨hle, -, -, hc⟩
  · have hall : ∀ p ∈ Json.shortEscapes,
        ['\\', p.1].filter isControl = [p.2].filter isLateControl := by decide
    rw [hc]
    exact hall (l, c) hl
  · have hdigits : ∀ n < 16, isControl (Json.hexChar n) = false := by decide
    have hlate : isLateControl c = false := by
      rw [← Bool.not_eq_true, isLateControl_iff]
      omega
    have hprefix : ['\\', 'u', '0', '0'].filter isControl = [] := by decide
    have hhigh := hdigits (c.toNat / 16) (by omega)
    have hlow := hdigits (c.toNat % 16) (by omega)
    have hsplit : Json.escapeChar c =
        ['\\', 'u', '0', '0'] ++ [Json.hexChar (c.toNat / 16), Json.hexChar (c.toNat % 16)] := hc
    rw [hsplit, List.filter_append, hprefix]
    simp [hhigh, hlow, hlate]
  · rw [hc, List.filter_singleton, List.filter_singleton, isControl_of_le hle]

/-- **Quoting** leaves the late control characters over, and no others. -/
theorem filter_quote (s : String) :
    (Json.quote s).toList.filter isControl = s.toList.filter isLateControl := by
  have hquote : isControl '"' = false := by decide
  have htext : ∀ cs : List Char,
      (cs.flatMap Json.escapeChar).filter isControl = cs.filter isLateControl := by
    intro cs
    induction cs with
    | nil => rfl
    | cons c cs ih =>
      rw [List.flatMap_cons, List.filter_append, filter_escapeChar, ih, ← List.filter_append,
        List.singleton_append]
  rw [Json.quote, Json.quoteChars, String.toList_ofList, List.filter_append, List.filter_cons,
    hquote, if_neg Bool.false_ne_true, htext, List.filter_singleton, hquote]
  exact List.append_nil _

/-! ## Units -/

/-- A late control character is one unit, which is one too. -/
theorem Encodes.filter_eq {c : Char} {us : List UInt16} (h : Encodes c us) :
    [c].filter isLateControl = (us.filter isLateControlUnit).map unitChar := by
  cases h with
  | @unit u h =>
    have hsame : isLateControlUnit u = isLateControl c := by
      rw [Bool.eq_iff_iff, isLateControlUnit_iff, isLateControl_iff, h]
    have hchar : unitChar u = c := by rw [unitChar, ← h, Char.ofNat_toNat]
    rw [List.filter_singleton, List.filter_singleton, hsame]
    cases isLateControl c with
    | true => exact congrArg (fun d => [d]) hchar.symm
    | false => rfl
  | @pair high low hhigh hlow h =>
    have hc : isLateControl c = false := by
      rw [← Bool.not_eq_true, isLateControl_iff]
      omega
    have hus : ∀ u ∈ [high, low], isLateControlUnit u = false := by
      simp only [List.forall_mem_cons, ← Bool.not_eq_true, isLateControlUnit_iff]
      exact ⟨by omega, by omega, List.forall_mem_nil _⟩
    have hnone : [high, low].filter isLateControlUnit = [] :=
      List.filter_eq_nil_iff.mpr fun u hu => Bool.not_eq_true _ ▸ hus u hu
    rw [List.filter_singleton, hc, hnone]
    rfl

namespace UnitString

/-- **Reading a string** shows its late control characters, and adds none. -/
theorem filter_lossyChars (us : List UInt16) :
    (lossyChars us).filter isLateControl = (us.filter isLateControlUnit).map unitChar := by
  induction us using pairInduction with
  | nil => rfl
  | unit u us hp ih =>
    have hshown : Encodes (shownUnit u) [if isSurrogate u then 0xFFFD else u] :=
      encodes_iff.mpr (charUnits_shownUnit u).symm
    have hreplaced : [if isSurrogate u then 0xFFFD else u].filter isLateControlUnit =
        [u].filter isLateControlUnit := by
      split
      · next hu =>
        rw [isSurrogate, Bool.or_eq_true, isHighSurrogate_iff, isLowSurrogate_iff] at hu
        have hlate : isLateControlUnit u = false := by
          rw [← Bool.not_eq_true, isLateControlUnit_iff]
          omega
        rw [List.filter_singleton, List.filter_singleton, hlate]
        rfl
      · rfl
    rw [lossyChars_cons hp, ← List.singleton_append, List.filter_append, hshown.filter_eq,
      hreplaced, ih, ← List.map_append, ← List.filter_append, List.singleton_append]
  | pair u v us hu hv ih =>
    have hpair : Encodes (pairChar u v) [u, v] := encodes_iff.mpr (charUnits_pairChar hu hv).symm
    rw [lossyChars_cons_pair hu hv, ← List.singleton_append, List.filter_append, hpair.filter_eq,
      ih, ← List.map_append, ← List.filter_append]
    rfl

end UnitString

/-! ## Cells -/

/-- **The control characters of a cell.** Where a lexeme is taken for a string and has a value, the
control characters that its cell shows are those of the value from U+007F to U+009F, as often and in
the same order. So there are none just if the value has none of these. -/
theorem controls_of_string_cell {l : Listing} {before : Nat} {lexeme : String}
    (hkind : (l.entry before lexeme).value.kind = .string)
    (hvalue : (l.entry before lexeme).value.hasValue = true) :
    ∃ s, (stringValue lexeme).value = .ok s ∧
      (l.entry before lexeme).value.resultText.toList.filter isControl =
        (s.units.filter isLateControlUnit).map unitChar ∧
      ((∀ c ∈ (l.entry before lexeme).value.resultText.toList, isControl c = false) ↔
        ∀ u ∈ s.units, isLateControlUnit u = false) := by
  have hresolve : (l.literal before lexeme).resolve.value =
      (stringValue lexeme).value.map .string := by
    rw [Listing.kind_entry] at hkind
    rw [Literal.resolve, hkind]
    rfl
  cases hs : (stringValue lexeme).value with
  | error f =>
    rw [Entry.hasValue, Listing.result_entry, hresolve, hs] at hvalue
    cases hvalue
  | ok s =>
    have hcell : (l.entry before lexeme).value.resultText = Json.quote s.lossy := by
      rw [Entry.resultText, Listing.result_entry, hresolve, hs]
      rfl
    have hfilter : (l.entry before lexeme).value.resultText.toList.filter isControl =
        (s.units.filter isLateControlUnit).map unitChar := by
      rw [hcell, filter_quote, UnitString.lossy, String.toList_ofList, UnitString.filter_lossyChars]
    refine ⟨s, rfl, hfilter, ?_⟩
    have hnone := congrArg (· = []) hfilter
    simpa [List.filter_eq_nil_iff] using hnone

/-- One of the two control characters of this value is escaped, and the other one is shown. -/
theorem controls_of_string_cell_mixed :
    let e := ((⟨none, .rows⟩ : Listing).entry 0 "'\\x07\\x7f'").value
    e.kind = .string ∧ e.hasValue = true ∧ ∃ s, (stringValue "'\\x07\\x7f'").value = .ok s ∧
      e.resultText.toList.filter isControl = (s.units.filter isLateControlUnit).map unitChar := by
  intro e
  have hkind : e.kind = .string := by decide +kernel
  have hvalue : e.hasValue = true := by decide +kernel
  obtain ⟨s, hs, hfilter, -⟩ := controls_of_string_cell hkind hvalue
  exact ⟨hkind, hvalue, s, hs, hfilter⟩

/-- A control character reaches the cell by an escape as well as by itself. -/
theorem shown_controls :
    let l : Listing := ⟨none, .rows⟩
    let escaped := (l.entry 0 "'\\x7f'").value
    let raw := (l.entry 0 "'\u0085'").value
    (escaped.kind = .string ∧ escaped.hasValue = true ∧
        escaped.resultText.toList.any isControl = true) ∧
      raw.kind = .string ∧ raw.hasValue = true ∧ raw.resultText.toList.any isControl = true := by
  decide +kernel

end ScriptLiteral
