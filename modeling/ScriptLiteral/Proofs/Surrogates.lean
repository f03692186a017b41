import ScriptLiteral.Proofs.Utf16

/-!
# Paired surrogates

A list of units is the encoding of a text just if its surrogates stand in pairs. `IsPaired` says so
position by position: after every high surrogate there is a low one, and before every low one a high
one. A unit that is no surrogate, or a pair, can be taken off the front of such a list without
loss (`isPaired_cons_unit`, `isPaired_cons_pair`), and those are the steps in which a list is read.

Reading with replacement gives back the characters that were encoded (`lossyChars_flatMap`), and
encoding what was read gives back the units just if they are paired (`ofText_lossy_eq_iff`).
-/

namespace ScriptLiteral

/-! ## Surrogates by their numbers -/

section Units

variable {u v : UInt16}

theorem isHighSurrogate_iff :
    isHighSurrogate u = true ↔ 0xD800 ≤ u.toNat ∧ u.toNat ≤ 0xDBFF := by
  simp only [isHighSurrogate, Bool.and_eq_true, decide_eq_true_eq, UInt16.le_iff_toNat_le,
    UInt16.lt_iff_toNat_lt]
  exact ⟨fun h => ⟨h.1, Nat.le_of_lt_succ h.2⟩, fun h => ⟨h.1, Nat.lt_succ_of_le h.2⟩⟩

theorem isLowSurrogate_iff :
    isLowSurrogate u = true ↔ 0xDC00 ≤ u.toNat ∧ u.toNat ≤ 0xDFFF := by
  simp only [isLowSurrogate, Bool.and_eq_true, decide_eq_true_eq, UInt16.le_iff_toNat_le,
    UInt16.lt_iff_toNat_lt]
  exact ⟨fun h => ⟨h.1, Nat.le_of_lt_succ h.2⟩, fun h => ⟨h.1, Nat.lt_succ_of_le h.2⟩⟩

/-- No unit is both halves of a pair. -/
theorem isHighSurrogate_of_isLowSurrogate (h : isLowSurrogate u = true) :
    isHighSurrogate u = false := by
  rw [isLowSurrogate_iff] at h
  rw [← Bool.not_eq_true, isHighSurrogate_iff]
  omega

theorem isLowSurrogate_of_isHighSurrogate (h : isHighSurrogate u = true) :
    isLowSurrogate u = false := by
  rw [← Bool.not_eq_true]
  intro hl
  rw [isHighSurrogate_of_isLowSurrogate hl] at h
  cases h

/-- The number of a character that is given by its number. -/
theorem toNat_ofNat_of_valid {n : Nat} (h : n.isValidChar) : (Char.ofNat n).toNat = n := by
  rw [Char.ofNat, dif_pos h]
  rfl

/-- A unit that is no surrogate is the encoding of the character of its number. -/
theorem charUnits_unitChar (hh : isHighSurrogate u = false) (hl : isLowSurrogate u = false) :
    charUnits (unitChar u) = [u] := by
  rw [← Bool.not_eq_true, isHighSurrogate_iff] at hh
  rw [← Bool.not_eq_true, isLowSurrogate_iff] at hl
  have hu := u.toNat_lt
  have hvalid : u.toNat.isValidChar := by
    unfold Nat.isValidChar
    omega
  exact (encodes_iff.mp (.unit (toNat_ofNat_of_valid hvalid))).symm

/-- A pair of surrogates is the encoding of the character it stands for. -/
theorem charUnits_pairChar (hu : isHighSurrogate u = true) (hv : isLowSurrogate v = true) :
    charUnits (pairChar u v) = [u, v] := by
  rw [isHighSurrogate_iff] at hu
  rw [isLowSurrogate_iff] at hv
  refine (encodes_iff.mp (.pair hu hv (toNat_ofNat_of_valid ?_))).symm
  unfold Nat.isValidChar
  omega

/-- A character has one unit, which is no surrogate and stands for it, or a pair that does. -/
theorem charUnits_cases (c : Char) :
    (∃ u, charUnits c = [u] ∧ isHighSurrogate u = false ∧ isLowSurrogate u = false ∧
      unitChar u = c) ∨
    ∃ u v, charUnits c = [u, v] ∧ isHighSurrogate u = true ∧ isLowSurrogate v = true ∧
      pairChar u v = c := by
  have hvalid : c.toNat < 0xD800 ∨ 0xDFFF < c.toNat ∧ c.toNat < 0x110000 := c.valid
  rcases hc : charUnits c with _ | ⟨u, _ | ⟨v, us⟩⟩
  · cases encodes_iff.mpr hc.symm
  · cases encodes_iff.mpr hc.symm with
    | unit h =>
      refine .inl ⟨u, rfl, ?_, ?_, ?_⟩
      · rw [← Bool.not_eq_true, isHighSurrogate_iff]
        omega
      · rw [← Bool.not_eq_true, isLowSurrogate_iff]
        omega
      · rw [unitChar, ← h, Char.ofNat_toNat]
  · cases encodes_iff.mpr hc.symm with
    | pair hu hv h =>
      refine .inr ⟨u, v, rfl, isHighSurrogate_iff.mpr hu, isLowSurrogate_iff.mpr hv, ?_⟩
      rw [pairChar, ← h, Char.ofNat_toNat]

end Units

/-! ## Lists of paired units -/

/-- The surrogates among the units stand in pairs. -/
structure IsPaired (us : List UInt16) : Prop where
  /-- a low surrogate stands right after every high one -/
  low_after : ∀ i u, us[i]? = some u → isHighSurrogate u = true →
    ∃ v, us[i + 1]? = some v ∧ isLowSurrogate v = true
  /-- a high surrogate stands right before every low one -/
  high_before : ∀ i u, us[i]? = some u → isLowSurrogate u = true →
    ∃ j v, i = j + 1 ∧ us[j]? = some v ∧ isHighSurrogate v = true

section Paired

variable {u v : UInt16} {us : List UInt16}

theorem isPaired_nil : IsPaired [] where
  low_after i u h := by simp at h
  high_before i u h := by simp at h

/-- No low surrogate comes first. -/
theorem IsPaired.head (h : IsPaired (u :: us)) : isLowSurrogate u = false := by
  rw [← Bool.not_eq_true]
  intro hu
  obtain ⟨j, v, hj, -⟩ := h.high_before 0 u rfl hu
  omega

/-- Where no high surrogate comes first, the units after the first one are paired among each
other. -/
theorem IsPaired.tail (hu : isHighSurrogate u = false) (h : IsPaired (u :: us)) :
    IsPaired us := by
  refine ⟨fun i w hw hhigh => h.low_after (i + 1) w hw hhigh, fun i w hw hlow => ?_⟩
  obtain ⟨j, x, hj, hx, hhigh⟩ := h.high_before (i + 1) w hw hlow
  cases j with
  | zero =>
    cases hx
    rw [hu] at hhigh
    cases hhigh
  | succ j => exact ⟨j, x, by omega, hx, hhigh⟩

/-- A unit that is no surrogate says nothing about those after it. -/
theorem isPaired_cons_unit (hh : isHighSurrogate u = false) (hl : isLowSurrogate u = false) :
    IsPaired (u :: us) ↔ IsPaired us := by
  refine ⟨fun h => h.tail hh, fun h => ⟨?_, ?_⟩⟩
  · intro i w hw hhigh
    cases i with
    | zero =>
      cases hw
      rw [hh] at hhigh
      cases hhigh
    | succ i => exact h.low_after i w hw hhigh
  · intro i w hw hlow
    cases i with
    | zero =>
      cases hw
      rw [hl] at hlow
      cases hlow
    | succ i =>
      obtain ⟨j, x, rfl, hx, hhigh⟩ := h.high_before i w hw hlow
      exact ⟨j + 1, x, rfl, hx, hhigh⟩

/-- Nor does a pair. -/
theorem isPaired_cons_pair (hu : isHighSurrogate u = true) (hv : isLowSurrogate v = true) :
    IsPaired (u :: v :: us) ↔ IsPaired us := by
  have hvh := isHighSurrogate_of_isLowSurrogate hv
  refine ⟨fun h => ?_, fun h => ⟨?_, ?_⟩⟩
  · refine ⟨fun i w hw hhigh => h.low_after (i + 2) w hw hhigh, fun i w hw hlow => ?_⟩
    obtain ⟨j, x, hj, hx, hhigh⟩ := h.high_before (i + 2) w hw hlow
    -- the unit before the first one is the low half of the pair
    obtain rfl | ⟨j, rfl⟩ : j = 1 ∨ ∃ k, j = k + 2 := by
      cases i with
      | zero => exact .inl (by omega)
      | succ i => exact .inr ⟨i, by omega⟩
    · cases hx
      rw [hvh] at hhigh
      cases hhigh
    · exact ⟨j, x, by omega, hx, hhigh⟩
  · intro i w hw hhigh
    match i with
    | 0 => exact ⟨v, rfl, hv⟩
    | 1 =>
      cases hw
      rw [hvh] at hhigh
      cases hhigh
    | i + 2 => exact h.low_after i w hw hhigh
  · intro i w hw hlow
    match i with
    | 0 =>
      cases hw
      rw [isHighSurrogate_of_isLowSurrogate hlow] at hu
      cases hu
    | 1 => exact ⟨0, u, rfl, rfl, hu⟩
    | i + 2 =>
      obtain ⟨j, x, rfl, hx, hhigh⟩ := h.high_before i w hw hlow
      exact ⟨j + 2, x, rfl, hx, hhigh⟩

/-- **Induction over paired units**: a unit that is no surrogate or a pair at a time. -/
@[elab_as_elim]
theorem IsPaired.induction {motive : ∀ us, IsPaired us → Prop} (nil : motive [] isPaired_nil)
    (unit : ∀ (u : UInt16) (us : List UInt16) (hh : isHighSurrogate u = false)
      (hl : isLowSurrogate u = false) (h : IsPaired us), motive us h →
      motive (u :: us) ((isPaired_cons_unit hh hl).mpr h))
    (pair : ∀ (u v : UInt16) (us : List UInt16) (hu : isHighSurrogate u = true)
      (hv : isLowSurrogate v = true) (h : IsPaired us), motive us h →
      motive (u :: v :: us) ((isPaired_cons_pair hu hv).mpr h))
    {us : List UInt16} (h : IsPaired us) : motive us h := by
  match us with
  | [] => exact nil
  | u :: us =>
    cases hu : isHighSurrogate u with
    | false =>
      have hrest := h.tail hu
      exact unit u us hu h.head hrest (IsPaired.induction nil unit pair hrest)
    | true =>
      obtain ⟨v, hv, hlow⟩ := h.low_after 0 u rfl hu
      match us with
      | [] => cases hv
      | w :: us =>
        cases hv
        have hrest := (isPaired_cons_pair hu hlow).mp h
        exact pair u v us hu hlow hrest (IsPaired.induction nil unit pair hrest)
termination_by us.length

end Paired

/-! ## Reading and encoding -/

section Reading

variable {u v : UInt16} {us : List UInt16}

open UnitString

theorem lossyChars_cons_unit (hh : isHighSurrogate u = false) (hl : isLowSurrogate u = false)
    (us : List UInt16) : lossyChars (u :: us) = unitChar u :: lossyChars us := by
  cases us with
  | nil => simp [lossyChars, hh, hl]
  | cons v us => simp [lossyChars, hh, hl]

theorem lossyChars_cons_pair (hu : isHighSurrogate u = true) (hv : isLowSurrogate v = true)
    (us : List UInt16) : lossyChars (u :: v :: us) = pairChar u v :: lossyChars us := by
  simp [lossyChars, hu, hv]

/-- Reading units gives back the characters that they encode. -/
theorem lossyChars_flatMap (cs : List Char) : lossyChars (cs.flatMap charUnits) = cs := by
  induction cs with
  | nil => rfl
  | cons c cs ih =>
    rw [List.flatMap_cons]
    rcases charUnits_cases c with ⟨u, hc, hh, hl, rfl⟩ | ⟨u, v, hc, hu, hv, rfl⟩
    · rw [hc, List.singleton_append, lossyChars_cons_unit hh hl, ih]
    · rw [hc, List.cons_append, List.singleton_append, lossyChars_cons_pair hu hv, ih]

/-- The units of a text are paired. -/
theorem isPaired_flatMap (cs : List Char) : IsPaired (cs.flatMap charUnits) := by
  induction cs with
  | nil => exact isPaired_nil
  | cons c cs ih =>
    rw [List.flatMap_cons]
    rcases charUnits_cases c with ⟨u, hc, hh, hl, -⟩ | ⟨u, v, hc, hu, hv, -⟩
    · rw [hc, List.singleton_append, isPaired_cons_unit hh hl]
      exact ih
    · rw [hc, List.cons_append, List.singleton_append, isPaired_cons_pair hu hv]
      exact ih

/-- Encoding what was read gives back the units if they are paired. -/
theorem IsPaired.flatMap_lossyChars (h : IsPaired us) :
    (lossyChars us).flatMap charUnits = us := by
  induction h using IsPaired.induction with
  | nil => rfl
  | unit u us hh hl h ih =>
    rw [lossyChars_cons_unit hh hl, List.flatMap_cons, charUnits_unitChar hh hl, ih]
    rfl
  | pair u v us hu hv h ih =>
    rw [lossyChars_cons_pair hu hv, List.flatMap_cons, charUnits_pairChar hu hv, ih]
    rfl

/-- The units of the text that a list of units is read as. -/
theorem UnitString.units_ofText_lossy (s : UnitString) :
    (ofText s.lossy).units = (lossyChars s.units).flatMap charUnits := by
  simp [ofText, lossy]

/-- A string is that of the text it is read as just if its surrogates are paired. -/
theorem UnitString.ofText_lossy_eq_iff {s : UnitString} :
    ofText s.lossy = s ↔ IsPaired s.units := by
  rw [UnitString.ext_iff, units_ofText_lossy]
  refine ⟨fun h => ?_, IsPaired.flatMap_lossyChars⟩
  rw [← h]
  exact isPaired_flatMap _

/-- A text is read back from its string. -/
theorem UnitString.lossy_ofText (t : String) : (ofText t).lossy = t := by
  rw [lossy, ofText, units_ofList, lossyChars_flatMap, String.ofList_toList]

end Reading

end ScriptLiteral
