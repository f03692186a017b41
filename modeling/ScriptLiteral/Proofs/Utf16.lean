import ScriptLiteral.Text.UnitString

/-!
# Code units, read backwards

`charUnits` computes the code units of a character. `Encodes` says which units those are by what
they stand for: a single unit of the number of the character, or a high surrogate and a low one
whose ten bits each make up the number above `0x10000`. No unit is computed there, so
`encodes_iff` is a statement about the arithmetic of `charUnits` and not a way to repeat it.
-/

namespace ScriptLiteral

/-- The code units that stand for a character. -/
inductive Encodes (c : Char) : List UInt16 → Prop
  /-- one unit, whose number is that of the character -/
  | unit {u : UInt16} (h : c.toNat = u.toNat) : Encodes c [u]
  /-- a high and a low surrogate, which share the number of the character above `0x10000` -/
  | pair {high low : UInt16} (hhigh : 0xD800 ≤ high.toNat ∧ high.toNat ≤ 0xDBFF)
      (hlow : 0xDC00 ≤ low.toNat ∧ low.toNat ≤ 0xDFFF)
      (h : c.toNat = 0x10000 + (high.toNat - 0xD800) * 0x400 + (low.toNat - 0xDC00)) :
      Encodes c [high, low]

/-- No character lies above U+10FFFF. -/
theorem toNat_char_lt (c : Char) : c.toNat < 0x110000 := by
  have h : c.toNat < 0xD800 ∨ 0xDFFF < c.toNat ∧ c.toNat < 0x110000 := c.valid
  omega

/-- A number below `2 ^ 16` is kept by the step to a unit. -/
theorem toNat_toUInt16 {n : Nat} (h : n < 0x10000) : n.toUInt16.toNat = n :=
  UInt16.toNat_ofNat_of_lt' h

/-- The units of a character stand for it. -/
theorem encodes_charUnits (c : Char) : Encodes c (charUnits c) := by
  have hc := toNat_char_lt c
  unfold charUnits
  split
  · next h => exact .unit (toNat_toUInt16 h).symm
  · next h =>
    have hhigh := toNat_toUInt16 (n := 0xD800 + (c.toNat - 0x10000) / 0x400) (by omega)
    have hlow := toNat_toUInt16 (n := 0xDC00 + (c.toNat - 0x10000) % 0x400) (by omega)
    refine .pair ?_ ?_ ?_
    · rw [hhigh]
      omega
    · rw [hlow]
      omega
    · rw [hhigh, hlow]
      omega

/-- A character has its own units and no others. -/
theorem encodes_iff {c : Char} {us : List UInt16} : Encodes c us ↔ us = charUnits c := by
  refine ⟨?_, ?_⟩
  · intro h
    have hc := toNat_char_lt c
    cases h with
    | unit h =>
      rename_i u
      have hlt : c.toNat < 0x10000 := h ▸ u.toNat_lt
      rw [charUnits, if_pos hlt, List.cons.injEq]
      exact ⟨UInt16.toNat_inj.mp (by rw [toNat_toUInt16 hlt, h]), rfl⟩
    | pair hhigh hlow h =>
      rw [charUnits, if_neg (by omega), List.cons.injEq, List.cons.injEq]
      refine ⟨UInt16.toNat_inj.mp ?_, UInt16.toNat_inj.mp ?_, rfl⟩
      · rw [toNat_toUInt16 (by omega)]
        omega
      · rw [toNat_toUInt16 (by omega)]
        omega
  · rintro rfl
    exact encodes_charUnits c

end ScriptLiteral
