import Mathlib.Algebra.Order.Monoid.Unbundled.Basic
import ScriptLiteral.Proofs.FaultyEscape
import ScriptLiteral.Proofs.StepwiseDecoding
import ScriptLiteral.Proofs.UnpairedUnits

/-!
# The length of a string value

A literal is measured in bytes of UTF-8 and its value in code units, and no element of a literal
contributes more units than it has bytes (`Spells.length_le`). A character has as many units as
bytes if it is an ASCII character, and fewer if not; an escape always has fewer, as nothing is
contributed for its backslash. So the value is never longer than the text between the quotes, and it
is as long only if that text is plain (`length_units_eq_iff`).

Room for as many units as there are bytes is therefore enough at every point of decoding: the units
so far leave room for as many more as there are bytes to come.
-/

namespace ScriptLiteral

/-! ## Characters -/

section Characters

variable {c : Char}

theorem length_charUnits (c : Char) :
    (charUnits c).length = if c.toNat < 0x10000 then 1 else 2 := by
  unfold charUnits
  split <;> rfl

/-- The number of bytes of a character, by its number. -/
theorem utf8Size_eq (c : Char) :
    c.utf8Size =
      if c.toNat < 0x80 then 1 else if c.toNat < 0x800 then 2
      else if c.toNat < 0x10000 then 3 else 4 := by
  have hnat : c.val.toNat = c.toNat := rfl
  simp only [Char.utf8Size, UInt32.le_iff_toNat_le, hnat, UInt32.toNat_ofNatLT]
  repeat' split
  all_goals omega

/-- A character has no more units than bytes. -/
theorem length_charUnits_le (c : Char) : (charUnits c).length ≤ c.utf8Size := by
  rw [length_charUnits, utf8Size_eq]
  repeat' split
  all_goals omega

/-- It has as many just if it is an ASCII character. -/
theorem length_charUnits_eq_iff : (charUnits c).length = c.utf8Size ↔ c.toNat < 0x80 := by
  rw [length_charUnits, utf8Size_eq]
  repeat' split
  all_goals omega

end Characters

/-! ## Elements -/

/-- The text consists of ASCII characters that stand for themselves. -/
def IsPlain (cs : List Char) : Prop := ∀ c ∈ cs, c.toNat < 0x80 ∧ c ≠ '\\'

section Elements

variable {cs ds rest source : List Char} {us : List UInt16} {ps : List Part}

theorem isPlain_append : IsPlain (cs ++ ds) ↔ IsPlain cs ∧ IsPlain ds := List.forall_mem_append

theorem isPlain_iff : IsPlain cs ↔ (∀ c ∈ cs, c.toNat < 0x80) ∧ '\\' ∉ cs := by
  rw [IsPlain, forall₂_and]
  refine and_congr_right fun _ => ⟨fun h hmem => h _ hmem rfl, ?_⟩
  rintro h c hc rfl
  exact h hc

/-- An escape has fewer units than bytes. -/
theorem Spells.length_lt (h : Spells rest ('\\' :: source) us) :
    us.length < byteLength ('\\' :: source) := by
  have hbackslash : '\\'.utf8Size = 1 := rfl
  rw [byteLength_cons, hbackslash]
  -- what stands after the backslash has bytes enough for the units
  cases h with
  | raw hc => exact absurd rfl hc
  | lineBreak | crlf | cr => exact Nat.lt_add_right _ Nat.one_pos
  | @control c =>
    have hc := c.utf8Size_pos
    rw [byteLength_cons, List.length_singleton]
    omega
  | byte | unit =>
    have hmark : 'x'.utf8Size = 1 ∧ 'u'.utf8Size = 1 := ⟨rfl, rfl⟩
    rw [byteLength_cons, List.length_singleton]
    omega
  | @identity c _ hc hus =>
    have hle := length_charUnits_le c
    rw [encodes_iff.mp hus, byteLength_cons]
    omega

/-- **An element has no more units than bytes**, and as many just if it is plain. -/
theorem Spells.length_le (h : Spells rest source us) :
    us.length ≤ byteLength source ∧ (us.length = byteLength source ↔ IsPlain source) := by
  by_cases hescape : source.head? = some '\\'
  · obtain ⟨tail, rfl⟩ := List.head?_eq_some_iff.mp hescape
    have hlt := h.length_lt
    exact ⟨hlt.le, iff_of_false hlt.ne fun hplain => (hplain _ (List.mem_cons_self ..)).2 rfl⟩
  · -- a character that stands for itself: every other element begins with a backslash
    cases h with
    | @raw c _ hc hus =>
      have hbytes : byteLength [c] = c.utf8Size := byteLength_cons c []
      rw [encodes_iff.mp hus, hbytes, length_charUnits_eq_iff]
      exact ⟨length_charUnits_le c, by simp [IsPlain, hc]⟩
    | _ => exact absurd rfl hescape

/-! ## Rows of elements -/

/-- Elements one after the other have no more units than bytes. -/
theorem length_units_le (h : ∀ p ∈ ps, ∃ rest, Spells rest p.source p.units) :
    (ps.flatMap Part.units).length ≤ byteLength (ps.flatMap Part.source) := by
  induction ps with
  | nil => exact Nat.le_refl 0
  | cons p ps ih =>
    obtain ⟨⟨rest, hp⟩, hps⟩ := List.forall_mem_cons.mp h
    rw [List.flatMap_cons, List.flatMap_cons, List.length_append, byteLength_append]
    exact Nat.add_le_add hp.length_le.1 (ih hps)

/-- **They have as many units as bytes** just if all of them are plain. -/
theorem length_units_eq_iff (h : ∀ p ∈ ps, ∃ rest, Spells rest p.source p.units) :
    (ps.flatMap Part.units).length = byteLength (ps.flatMap Part.source) ↔
      IsPlain (ps.flatMap Part.source) := by
  induction ps with
  | nil => exact iff_of_true rfl fun _ hc => absurd hc List.not_mem_nil
  | cons p ps ih =>
    obtain ⟨⟨rest, hp⟩, hps⟩ := List.forall_mem_cons.mp h
    -- neither summand can make up for what the other one lacks
    rw [List.flatMap_cons, List.flatMap_cons, List.length_append, byteLength_append,
      add_eq_add_iff_eq_and_eq hp.length_le.1 (length_units_le hps), hp.length_le.2, ih hps,
      isPlain_append]

/-- The parts of a text make it up. -/
theorem Splits.eq_flatMap (h : Splits cs ps) : cs = ps.flatMap Part.source := by
  induction h with
  | nil => rfl
  | cons _ _ ih => rw [List.flatMap_cons, ← ih]

end Elements

/-! ## Values -/

section Value

variable {lexeme : String} {s : UnitString}

/-- **A string value does not outgrow its source.** The value of a literal has no more code units
than the text between the quotes has bytes, and as many just if that text is ASCII without a
backslash. So decoding with room for a unit for every byte never lacks room: after each element
there is room left for a unit for every byte to come. -/
theorem length_value_le (h : (stringValue lexeme).value = .ok s) :
    ∃ q inner ps, QuotedBy q inner lexeme ∧ Splits inner ps ∧ s.units = ps.flatMap Part.units ∧
      let room := (String.ofList inner).utf8ByteSize
      decodeFrom (.withCapacity room) 1 inner = .ok s ∧
      s.length ≤ room ∧
      (s.length = room ↔ (∀ c ∈ inner, c.toNat < 0x80) ∧ '\\' ∉ inner) ∧
      ∀ before after, ps = before ++ after →
        (before.flatMap Part.units).length + byteLength (after.flatMap Part.source) ≤ room := by
  obtain ⟨q, inner, ps, hq, hps, hunits⟩ := exists_splits_of_ok h
  have hspells : ∀ p ∈ ps, ∃ rest, Spells rest p.source p.units := fun p hp => hps.spells hp
  have hinner := hps.eq_flatMap
  refine ⟨q, inner, ps, hq, hps, hunits, ?_⟩
  rw [← byteLength_eq_utf8ByteSize, UnitString.length, hunits, ← isPlain_iff]
  refine ⟨?_, ?_, ?_, ?_⟩
  · rw [decodeFrom_of_units_eq_nil (UnitString.units_withCapacity _), ← value_stringValue hq, h]
  · rw [hinner]
    exact length_units_le hspells
  · rw [hinner]
    exact length_units_eq_iff hspells
  · rintro before after rfl
    rw [hinner, List.flatMap_append, byteLength_append]
    exact Nat.add_le_add_right
      (length_units_le fun p hp => hspells p (List.mem_append_left after hp)) _

/-- Characters of one unit and three bytes and of two units and four, an escape among them, and a
line break of two characters: four units from twelve bytes. -/
theorem length_value_le_mixed :
    (stringValue "'€\\😀\\\r\na'").value = .ok ⟨[0x20AC, 0xD83D, 0xDE00, 0x61]⟩ ∧
      ∃ q inner, QuotedBy q inner "'€\\😀\\\r\na'" ∧ (String.ofList inner).utf8ByteSize = 12 ∧
        4 ≤ (String.ofList inner).utf8ByteSize := by
  have h : (stringValue "'€\\😀\\\r\na'").value = .ok ⟨[0x20AC, 0xD83D, 0xDE00, 0x61]⟩ := by
    decide +kernel
  obtain ⟨q, inner, -, hq, -, -, -, hle, -, -⟩ := length_value_le h
  refine ⟨h, q, inner, hq, ?_, hle⟩
  rw [← byteLength_eq_utf8ByteSize]
  exact Nat.add_right_cancel hq.utf8ByteSize_eq.symm

end Value

end ScriptLiteral
