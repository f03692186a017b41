import ScriptLiteral.Proofs.Replacement
import ScriptLiteral.Proofs.StringGrammar

/-!
# Where unpaired surrogates come from

Whether a surrogate is paired depends on its neighbours, and in the value of a string literal these
may come from other elements: from an escape, from a character written as it is, or from beyond a
line break that was removed. A character is a fixed point in this. It does not begin in the middle of
a pair nor end there, so the units before it and those after it are paired each by themselves
(`piecesOf_append_char`), and none of its own units is left over (`not_isUnpaired_char`).

Every element contributes a character or nothing at all, except an escape by four digits that denote
a surrogate (`Spells.units_cases`). So an unpaired surrogate leads back to such an escape, and a
literal without one has a text.
-/

namespace ScriptLiteral

/-! ## Characters among units -/

section Characters

variable {u : UInt16} {us vs : List UInt16} {c : Char} {i : Nat}

open UnitString

/-- A unit that begins no pair begins none with the character that comes next. -/
theorem beginsWithPair_append_char (hp : beginsWithPair (u :: us) = false) (c : Char)
    (vs : List UInt16) : beginsWithPair (u :: (us ++ (charUnits c ++ vs))) = false := by
  cases us with
  | nil =>
    rcases charUnits_cases c with ⟨v, hc, -, hl, -⟩ | ⟨v, w, hc, hv, -, -⟩
    · simp [hc, beginsWithPair, hl]
    · simp [hc, beginsWithPair, isLowSurrogate_of_isHighSurrogate hv]
  | cons v us => exact hp

/-- A unit that is no high surrogate begins no pair. -/
theorem beginsWithPair_of_not_high (hu : isHighSurrogate u = false) (us : List UInt16) :
    beginsWithPair (u :: us) = false := by
  cases us with
  | nil => rfl
  | cons v us => rw [beginsWithPair, hu, Bool.false_and]

/-- **A character keeps its units together**, whatever stands before and after it. -/
theorem piecesOf_append_char (us : List UInt16) (c : Char) (vs : List UInt16) :
    piecesOf (us ++ (charUnits c ++ vs)) = piecesOf us ++ .char c :: piecesOf vs := by
  induction us using pairInduction with
  | nil =>
    rcases charUnits_cases c with ⟨u, hc, hh, hl, rfl⟩ | ⟨u, v, hc, hu, hv, rfl⟩
    · simp [hc, piecesOf_cons (beginsWithPair_of_not_high hh vs), unitPiece, isSurrogate, hh, hl,
        piecesOf]
    · simp [hc, piecesOf_cons_pair hu hv, piecesOf]
  | unit u us hp ih =>
    rw [List.cons_append, piecesOf_cons (beginsWithPair_append_char hp c vs), ih, piecesOf_cons hp,
      List.cons_append]
  | pair u v us hu hv ih =>
    rw [List.cons_append, List.cons_append, piecesOf_cons_pair hu hv, ih, piecesOf_cons_pair hu hv,
      List.cons_append]

/-- None of its units is left over. -/
theorem not_isUnpaired_char (us : List UInt16) (c : Char) (vs : List UInt16) {k : Nat}
    (hk : k < (charUnits c).length) :
    ¬ IsUnpaired (us ++ (charUnits c ++ vs)) (us.length + k) := by
  induction us using pairInduction with
  | nil =>
    rw [List.nil_append, List.length_nil, Nat.zero_add]
    rcases charUnits_cases c with ⟨u, hc, hh, hl, -⟩ | ⟨u, v, hc, hu, hv, -⟩
    · rw [hc] at hk ⊢
      obtain rfl : k = 0 := by simpa using hk
      rw [List.singleton_append, isUnpaired_cons_zero (beginsWithPair_of_not_high hh vs)]
      simp [isSurrogate, hh, hl]
    · rw [hc] at hk ⊢
      exact not_isUnpaired_of_lt (beginsWithPair_iff.mpr ⟨hu, hv⟩) hk
  | unit u us hp ih =>
    rw [List.cons_append, List.length_cons, Nat.add_right_comm,
      isUnpaired_cons_succ (beginsWithPair_append_char hp c vs)]
    exact ih
  | pair u v us hu hv ih =>
    rw [List.cons_append, List.cons_append, List.length_cons, List.length_cons,
      Nat.add_right_comm _ 1, Nat.add_right_comm _ 1,
      isUnpaired_pair_add_two (beginsWithPair_iff.mpr ⟨hu, hv⟩)]
    exact ih

/-- Units of which none is left over are paired. -/
theorem isPaired_of_forall_not_isUnpaired (h : ∀ i, ¬ IsUnpaired us i) : IsPaired us := by
  induction us using pairInduction with
  | nil => exact isPaired_nil
  | unit u us hp ih =>
    have hu : isSurrogate u = false := by
      rw [← Bool.not_eq_true, ← isUnpaired_cons_zero hp]
      exact h 0
    rw [isSurrogate, Bool.or_eq_false_iff] at hu
    rw [isPaired_cons_unit hu.1 hu.2]
    exact ih fun i hi => h (i + 1) ((isUnpaired_cons_succ hp).mpr hi)
  | pair u v us hu hv ih =>
    rw [isPaired_cons_pair hu hv]
    exact ih fun i hi => h (i + 2) ((isUnpaired_pair_add_two (beginsWithPair_iff.mpr ⟨hu, hv⟩)).mpr hi)

end Characters

/-! ## What elements contribute -/

/-- The part is an escape by four hexadecimal digits that denote the number of a surrogate. -/
def Part.IsSurrogateEscape (p : Part) (n : Nat) : Prop :=
  ∃ ds, p.source = '\\' :: 'u' :: ds ∧ ds.length = 4 ∧ Denotes 16 ds n ∧ 0xD800 ≤ n ∧ n ≤ 0xDFFF

section Elements

variable {rest : List Char} {p : Part} {u : UInt16}

/-- A unit that is no surrogate is the character of its number. -/
theorem exists_charUnits_eq (hu : u.toNat < 0xD800 ∨ 0xDFFF < u.toNat) : ∃ c, charUnits c = [u] := by
  refine ⟨unitChar u, charUnits_unitChar ?_ ?_⟩
  · rw [← Bool.not_eq_true, isHighSurrogate_iff]
    omega
  · rw [← Bool.not_eq_true, isLowSurrogate_iff]
    omega

/-- **What an element contributes**: a character, nothing, or the surrogate that an escape denotes. -/
theorem Spells.units_cases (h : Spells rest p.source p.units) :
    (∃ c, charUnits c = p.units) ∨ p.units = [] ∨
      ∃ n, p.IsSurrogateEscape n ∧ p.units = [UInt16.ofNat n] := by
  obtain ⟨source, us⟩ := p
  cases h with
  | raw hc hus => exact .inl ⟨_, (encodes_iff.mp hus).symm⟩
  | identity hc hus => exact .inl ⟨_, (encodes_iff.mp hus).symm⟩
  | lineBreak hc => exact .inr (.inl rfl)
  | crlf => exact .inr (.inl rfl)
  | cr hrest => exact .inr (.inl rfl)
  | @control c u hc =>
    have hall : ∀ p ∈ controlUnits, p.2.toNat < 0xD800 := by decide
    exact .inl (exists_charUnits_eq (.inl (hall (c, u) hc)))
  | @byte a b x y u ha hb hu =>
    have hx := lt_of_mem_hexDigits ha
    have hy := lt_of_mem_hexDigits hb
    exact .inl (exists_charUnits_eq (.inl (by omega)))
  | @unit a b c d x y z w u ha hb hc hd hu =>
    by_cases hsur : u.toNat < 0xD800 ∨ 0xDFFF < u.toNat
    · exact .inl (exists_charUnits_eq hsur)
    · have hdenotes : Denotes 16 [a, b, c, d] u.toNat := by
        have hcons := Denotes.cons ha (lt_of_mem_hexDigits ha) (.cons hb (lt_of_mem_hexDigits hb)
          (.cons hc (lt_of_mem_hexDigits hc) (.cons hd (lt_of_mem_hexDigits hd) .nil)))
        simp only [List.length_cons, List.length_nil] at hcons
        rwa [show u.toNat = x * 16 ^ 3 + (y * 16 ^ 2 + (z * 16 ^ 1 + (w * 16 ^ 0 + 0))) by omega]
      refine .inr (.inr ⟨u.toNat, ⟨_, rfl, rfl, hdenotes, by omega, by omega⟩, ?_⟩)
      rw [UInt16.ofNat_toNat]

/-- A character that is written as it is or after a backslash contributes its units. -/
theorem Spells.units_of_char {c : Char} (h : Spells rest p.source p.units)
    (hp : p.source = [c] ∨ p.source = ['\\', c] ∧ c ∉ reserved) : p.units = charUnits c := by
  obtain ⟨source, us⟩ := p
  have hcontrol : ∀ p ∈ controlUnits, p.1 ∈ reserved := by decide
  rcases hp with rfl | ⟨rfl, hc⟩
  · cases h with
    | raw _ hus => exact encodes_iff.mp hus
  · cases h with
    | lineBreak hbreak =>
      refine absurd ?_ hc
      simp only [List.mem_cons, List.not_mem_nil, or_false] at hbreak
      rcases hbreak with rfl | rfl | rfl <;> decide
    | cr => exact absurd (by decide) hc
    | control hletter => exact absurd (hcontrol _ hletter) hc
    | identity _ hus => exact encodes_iff.mp hus

/-- Every part is an element of the grammar. -/
theorem Splits.spells {cs : List Char} {ps : List Part} (h : Splits cs ps) (hp : p ∈ ps) :
    ∃ rest, Spells rest p.source p.units := by
  induction h with
  | nil => cases hp
  | @cons q rest qs hq _ ih =>
    rcases List.mem_cons.mp hp with rfl | hp
    · exact ⟨rest, hq⟩
    · exact ih hp

/-- Every unit was contributed by one of the parts. -/
theorem Part.exists_of_lt {ps : List Part} {i : Nat} (hi : i < (ps.flatMap Part.units).length) :
    ∃ before p after k, ps = before ++ p :: after ∧ k < p.units.length ∧
      i = (before.flatMap Part.units).length + k := by
  induction ps generalizing i with
  | nil => simp at hi
  | cons q qs ih =>
    rw [List.flatMap_cons, List.length_append] at hi
    by_cases hq : i < q.units.length
    · exact ⟨[], q, qs, i, rfl, hq, by simp⟩
    · obtain ⟨before, p, after, k, rfl, hk, hsum⟩ := ih (i := i - q.units.length) (by omega)
      refine ⟨q :: before, p, after, k, rfl, hk, ?_⟩
      rw [List.flatMap_cons, List.length_append]
      omega

end Elements

/-! ## The value of a literal -/

section Literal

variable {lexeme : String} {s : UnitString} {cs : List Char} {ps : List Part}

/-- The units of parts, one of them in its place. -/
theorem flatMap_units_append (before : List Part) (p : Part) (after : List Part) :
    (before ++ p :: after).flatMap Part.units =
      before.flatMap Part.units ++ (p.units ++ after.flatMap Part.units) := by
  rw [List.flatMap_append, List.flatMap_cons]

/-- An unpaired surrogate leads back to an escape that denotes one. -/
theorem Splits.exists_surrogateEscape (h : Splits cs ps) {i : Nat}
    (hi : IsUnpaired (ps.flatMap Part.units) i) :
    ∃ before p after n, ps = before ++ p :: after ∧ (before.flatMap Part.units).length = i ∧
      p.IsSurrogateEscape n ∧ p.units = [UInt16.ofNat n] := by
  obtain ⟨before, p, after, k, rfl, hk, rfl⟩ := Part.exists_of_lt hi.lt_length
  obtain ⟨rest, hp⟩ := h.spells (List.mem_append_right before (List.mem_cons_self ..))
  rcases hp.units_cases with ⟨c, hc⟩ | hnil | ⟨n, hn, hunits⟩
  · rw [flatMap_units_append, ← hc] at hi
    rw [← hc] at hk
    exact absurd hi (not_isUnpaired_char _ c _ hk)
  · rw [hnil] at hk
    exact absurd hk (Nat.not_lt_zero k)
  · rw [hunits] at hk
    obtain rfl : k = 0 := by simpa using hk
    exact ⟨before, p, after, n, rfl, rfl, hn, hunits⟩

/-- **Unpaired surrogates come from escapes of four digits.** Where the value of a literal holds an
unpaired surrogate, it was contributed by an escape whose four digits denote one. A character that
is written as it is or after a backslash is a piece of the value, its units paired with each other,
and the pieces before and after it are those of the elements before and after it. Without an escape
that denotes a surrogate, the value has a text. -/
theorem unpaired_from_escapes (h : (stringValue lexeme).value = .ok s) :
    ∃ q inner ps, QuotedBy q inner lexeme ∧ Splits inner ps ∧ s.units = ps.flatMap Part.units ∧
      (∀ i, IsUnpaired s.units i → ∃ before p after n, ps = before ++ p :: after ∧
        (before.flatMap Part.units).length = i ∧ p.IsSurrogateEscape n ∧
        p.units = [UInt16.ofNat n]) ∧
      (∀ before p after c, ps = before ++ p :: after →
        (p.source = [c] ∨ p.source = ['\\', c] ∧ c ∉ reserved) →
        p.units = charUnits c ∧
        s.pieces = (UnitString.mk (before.flatMap Part.units)).pieces ++
          .char c :: (UnitString.mk (after.flatMap Part.units)).pieces) ∧
      ((∀ p ∈ ps, ∀ n, ¬ p.IsSurrogateEscape n) → s.text?.isSome = true) := by
  obtain ⟨q, inner, ps, hq, hps, hunits⟩ := exists_splits_of_ok h
  have hunpaired : ∀ i, IsUnpaired s.units i → ∃ before p after n, ps = before ++ p :: after ∧
      (before.flatMap Part.units).length = i ∧ p.IsSurrogateEscape n ∧
      p.units = [UInt16.ofNat n] := by
    rw [hunits]
    exact fun i hi => hps.exists_surrogateEscape hi
  refine ⟨q, inner, ps, hq, hps, hunits, hunpaired, ?_, ?_⟩
  · rintro before p after c rfl hp
    obtain ⟨rest, hspells⟩ := hps.spells (List.mem_append_right before (List.mem_cons_self ..))
    have hchar := hspells.units_of_char hp
    refine ⟨hchar, ?_⟩
    rw [UnitString.pieces, hunits, flatMap_units_append, hchar]
    exact piecesOf_append_char _ c _
  · intro hno
    refine UnitString.isSome_text?_iff.mpr (isPaired_of_forall_not_isUnpaired fun i hi => ?_)
    obtain ⟨before, p, after, n, rfl, -, hn, -⟩ := hunpaired i hi
    exact hno p (List.mem_append_right before (List.mem_cons_self ..)) n hn

/-- A character between the halves of another pair, which it keeps apart. -/
theorem unpaired_from_escapes_apart :
    (stringValue "'\\uD83D\\😀\\\n\\uDE00'").value = .ok ⟨[0xD83D, 0xD83D, 0xDE00, 0xDE00]⟩ ∧
      IsUnpaired [0xD83D, 0xD83D, 0xDE00, 0xDE00] 3 ∧
      ∃ q inner before p after n, QuotedBy q inner "'\\uD83D\\😀\\\n\\uDE00'" ∧
        Splits inner (before ++ p :: after) ∧ (before.flatMap Part.units).length = 3 ∧
        p.IsSurrogateEscape n ∧ p.units = [UInt16.ofNat n] := by
  have h : (stringValue "'\\uD83D\\😀\\\n\\uDE00'").value =
      .ok ⟨[0xD83D, 0xD83D, 0xDE00, 0xDE00]⟩ := by decide +kernel
  have hunpaired : IsUnpaired [0xD83D, 0xD83D, 0xDE00, 0xDE00] 3 := by decide
  obtain ⟨q, inner, ps, hq, hps, -, hescape, -⟩ := unpaired_from_escapes h
  obtain ⟨before, p, after, n, rfl, hplace, hn, hunits⟩ := hescape 3 hunpaired
  exact ⟨h, hunpaired, q, inner, before, p, after, n, hq, hps, hplace, hn, hunits⟩

end Literal

end ScriptLiteral
