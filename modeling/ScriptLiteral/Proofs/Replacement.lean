import ScriptLiteral.Proofs.UnitText

/-!
# Replacing unpaired surrogates

Every string of units can be shown as a text, with U+FFFD where a surrogate is no half of a pair.
`IsUnpaired` tells those places by pairing from the left: a pair at the front is passed over as a
whole, any other unit by itself. As no unit can be both halves of a pair, it is enough to look at the
two neighbours of a unit (`isUnpaired_iff`).

A string is read in the same steps, a pair or a unit at a time (`pairInduction`), whether it is taken
apart into pieces or into characters at once. Encoding what was read gives back the units with those
at the unpaired places replaced, and nothing else moves (`flatMap_lossyChars`). The main result,
`UnitString.lossy_exact`, puts this together.
-/

namespace ScriptLiteral

/-! ## Pairing from the left -/

/-- The units begin with a pair. -/
def beginsWithPair : List UInt16 → Bool
  | u :: v :: _ => isHighSurrogate u && isLowSurrogate v
  | _ => false

/-- The unit is one half or the other of some pair. -/
def isSurrogate (u : UInt16) : Bool := isHighSurrogate u || isLowSurrogate u

/-- The unit at the given place is a surrogate that is left over when the units are paired from the
left. -/
inductive IsUnpaired : List UInt16 → Nat → Prop
  /-- a surrogate in front that begins no pair -/
  | here {u : UInt16} {us : List UInt16} (hp : beginsWithPair (u :: us) = false)
      (hu : isSurrogate u = true) : IsUnpaired (u :: us) 0
  /-- a unit in front that begins no pair is passed over -/
  | unit {u : UInt16} {us : List UInt16} {i : Nat} (hp : beginsWithPair (u :: us) = false)
      (h : IsUnpaired us i) : IsUnpaired (u :: us) (i + 1)
  /-- a pair in front is passed over -/
  | pair {u v : UInt16} {us : List UInt16} {i : Nat} (hp : beginsWithPair (u :: v :: us) = true)
      (h : IsUnpaired us i) : IsUnpaired (u :: v :: us) (i + 2)

section Pairing

variable {u v : UInt16} {us : List UInt16} {i : Nat}

theorem beginsWithPair_iff :
    beginsWithPair (u :: v :: us) = true ↔ isHighSurrogate u = true ∧ isLowSurrogate v = true := by
  rw [beginsWithPair, Bool.and_eq_true]

/-- **Induction over units as they are paired**: a pair, or a unit that begins none, at a time. -/
@[elab_as_elim]
theorem pairInduction {motive : List UInt16 → Prop} (nil : motive [])
    (unit : ∀ (u : UInt16) (us : List UInt16), beginsWithPair (u :: us) = false → motive us →
      motive (u :: us))
    (pair : ∀ (u v : UInt16) (us : List UInt16), isHighSurrogate u = true →
      isLowSurrogate v = true → motive us → motive (u :: v :: us)) :
    ∀ us, motive us
  | [] => nil
  | [u] => unit u [] rfl nil
  | u :: v :: us => by
    cases hp : beginsWithPair (u :: v :: us) with
    | false => exact unit u _ hp (pairInduction nil unit pair (v :: us))
    | true =>
      obtain ⟨hu, hv⟩ := beginsWithPair_iff.mp hp
      exact pair u v us hu hv (pairInduction nil unit pair us)

@[simp] theorem not_isUnpaired_nil : ¬ IsUnpaired [] i := nofun

theorem isUnpaired_cons_zero (hp : beginsWithPair (u :: us) = false) :
    IsUnpaired (u :: us) 0 ↔ isSurrogate u = true := by
  refine ⟨fun h => ?_, .here hp⟩
  cases h with
  | here _ hu => exact hu

theorem isUnpaired_cons_succ (hp : beginsWithPair (u :: us) = false) :
    IsUnpaired (u :: us) (i + 1) ↔ IsUnpaired us i := by
  refine ⟨fun h => ?_, .unit hp⟩
  cases h with
  | unit _ h => exact h
  | pair hp' _ =>
    rw [hp] at hp'
    cases hp'

/-- Neither half of a pair in front is left over. -/
theorem not_isUnpaired_of_lt (hp : beginsWithPair (u :: v :: us) = true) (hi : i < 2) :
    ¬ IsUnpaired (u :: v :: us) i := by
  intro h
  cases h with
  | here hp' => simp [hp] at hp'
  | unit hp' => simp [hp] at hp'
  | pair => omega

theorem isUnpaired_pair_add_two (hp : beginsWithPair (u :: v :: us) = true) :
    IsUnpaired (u :: v :: us) (i + 2) ↔ IsUnpaired us i := by
  refine ⟨fun h => ?_, .pair hp⟩
  cases h with
  | unit hp' => simp [hp] at hp'
  | pair _ h => exact h

/-- The unit before the given place. -/
def unitBefore (us : List UInt16) : Nat → Option UInt16
  | 0 => none
  | i + 1 => us[i]?

/-- The unit at the given place is a high surrogate with no low one after it, or a low one with no
high one before it. -/
def isUnpairedAt (us : List UInt16) (i : Nat) : Bool :=
  us[i]?.any isHighSurrogate && !us[i + 1]?.any isLowSurrogate ||
    us[i]?.any isLowSurrogate && !(unitBefore us i).any isHighSurrogate

/-- **Neighbours decide** what is left over by pairing from the left. -/
theorem isUnpaired_iff : IsUnpaired us i ↔ isUnpairedAt us i = true := by
  induction us using pairInduction generalizing i with
  | nil => simp [isUnpairedAt]
  | unit u us hp ih =>
    have hnext : isHighSurrogate u = true → us[0]?.any isLowSurrogate = false := by
      cases us with
      | nil => exact fun _ => rfl
      | cons v us =>
        intro hu
        rw [beginsWithPair, hu, Bool.true_and] at hp
        exact hp
    match i with
    | 0 =>
      rw [isUnpaired_cons_zero hp]
      cases hu : isHighSurrogate u with
      | false => simp [isUnpairedAt, unitBefore, isSurrogate, hu]
      | true => simp [isUnpairedAt, isSurrogate, hu, hnext hu]
    | 1 =>
      rw [isUnpaired_cons_succ hp, ih]
      cases hu : isHighSurrogate u with
      | false => simp [isUnpairedAt, unitBefore, hu]
      | true => simp [isUnpairedAt, unitBefore, hnext hu]
    | i + 2 =>
      rw [isUnpaired_cons_succ hp, ih]
      rfl
  | pair u v us hu hv ih =>
    have hp : beginsWithPair (u :: v :: us) = true := beginsWithPair_iff.mpr ⟨hu, hv⟩
    have hvh := isHighSurrogate_of_isLowSurrogate hv
    have hul := isLowSurrogate_of_isHighSurrogate hu
    match i with
    | 0 => simp [not_isUnpaired_of_lt hp, isUnpairedAt, hul, hv]
    | 1 => simp [not_isUnpaired_of_lt hp, isUnpairedAt, unitBefore, hu, hvh]
    | 2 =>
      rw [isUnpaired_pair_add_two hp, ih]
      simp [isUnpairedAt, unitBefore, hvh]
    | i + 3 =>
      rw [isUnpaired_pair_add_two hp, ih]
      rfl

instance : Decidable (IsUnpaired us i) := decidable_of_iff _ isUnpaired_iff.symm

end Pairing

/-! ## Replacing -/

/-- The units with U+FFFD in every unpaired place. -/
def replaced (us : List UInt16) : List UInt16 :=
  us.mapIdx fun i u => if IsUnpaired us i then 0xFFFD else u

section Replacing

variable {u v : UInt16} {us : List UInt16} {i : Nat}

@[simp] theorem length_replaced : (replaced us).length = us.length := List.length_mapIdx

theorem IsUnpaired.lt_length (h : IsUnpaired us i) : i < us.length := by
  induction h with
  | here => simp
  | unit _ _ ih => simpa using ih
  | pair _ _ ih => simpa using ih

/-- Nothing but the units in unpaired places changes. -/
theorem getElem?_replaced :
    (replaced us)[i]? = if IsUnpaired us i then some 0xFFFD else us[i]? := by
  rw [replaced, List.getElem?_mapIdx]
  by_cases h : IsUnpaired us i
  · rw [if_pos h, List.getElem?_eq_getElem h.lt_length, Option.map_some, if_pos h]
  · simp [h]

theorem replaced_cons (hp : beginsWithPair (u :: us) = false) :
    replaced (u :: us) = (if isSurrogate u then 0xFFFD else u) :: replaced us := by
  simp only [replaced, List.mapIdx_cons, isUnpaired_cons_zero hp, isUnpaired_cons_succ hp]

theorem replaced_cons_pair (hu : isHighSurrogate u = true) (hv : isLowSurrogate v = true) :
    replaced (u :: v :: us) = u :: v :: replaced us := by
  have hp : beginsWithPair (u :: v :: us) = true := beginsWithPair_iff.mpr ⟨hu, hv⟩
  simp [replaced, List.mapIdx_cons, not_isUnpaired_of_lt hp, isUnpaired_pair_add_two hp]

end Replacing

/-! ## Reading -/

section Reading

variable {u v : UInt16} {us : List UInt16}

open UnitString

/-- The character that a unit stands for by itself, or U+FFFD. -/
def shownUnit (u : UInt16) : Char := if isSurrogate u then replacementChar else unitChar u

theorem lossyChars_cons (hp : beginsWithPair (u :: us) = false) :
    lossyChars (u :: us) = shownUnit u :: lossyChars us := by
  cases us with
  | nil => rfl
  | cons v us =>
    cases hu : isHighSurrogate u with
    | true =>
      have hv : isLowSurrogate v = false := by simpa [beginsWithPair, hu] using hp
      simp [lossyChars, shownUnit, isSurrogate, hu, hv]
    | false =>
      cases hl : isLowSurrogate u <;> simp [lossyChars, shownUnit, isSurrogate, hu, hl]

/-- The piece that a unit is by itself. -/
def unitPiece (u : UInt16) : Piece := if isSurrogate u then .unpaired u else .char (unitChar u)

theorem shown_unitPiece (u : UInt16) : (unitPiece u).shown = shownUnit u := by
  rw [unitPiece, shownUnit]
  split <;> rfl

theorem piecesOf_cons (hp : beginsWithPair (u :: us) = false) :
    piecesOf (u :: us) = unitPiece u :: piecesOf us := by
  cases us with
  | nil => simp [piecesOf, unitPiece, isSurrogate]
  | cons v us =>
    cases hu : isHighSurrogate u with
    | true =>
      have hv : isLowSurrogate v = false := by simpa [beginsWithPair, hu] using hp
      simp [piecesOf, unitPiece, isSurrogate, hu, hv]
    | false =>
      cases hl : isLowSurrogate u <;> simp [piecesOf, unitPiece, isSurrogate, hu, hl]

theorem piecesOf_cons_pair (hu : isHighSurrogate u = true) (hv : isLowSurrogate v = true)
    (us : List UInt16) : piecesOf (u :: v :: us) = .char (pairChar u v) :: piecesOf us := by
  simp [piecesOf, hu, hv]

/-- The two ways of reading show the same characters. -/
theorem shown_piecesOf (us : List UInt16) :
    (piecesOf us).map Piece.shown = lossyChars us := by
  induction us using pairInduction with
  | nil => rfl
  | unit u us hp ih =>
    rw [piecesOf_cons hp, lossyChars_cons hp, List.map_cons, shown_unitPiece, ih]
  | pair u v us hu hv ih =>
    rw [piecesOf_cons_pair hu hv, lossyChars_cons_pair hu hv, List.map_cons, ih]
    rfl

/-- What a unit is shown as is encoded by the unit itself or by U+FFFD. -/
theorem charUnits_shownUnit (u : UInt16) :
    charUnits (shownUnit u) = [if isSurrogate u then 0xFFFD else u] := by
  rw [shownUnit]
  split
  · decide
  · next hu =>
    rw [isSurrogate, Bool.or_eq_true, not_or, Bool.not_eq_true, Bool.not_eq_true] at hu
    exact charUnits_unitChar hu.1 hu.2

/-- **Encoding what was read** gives back the units, with those in unpaired places replaced. -/
theorem flatMap_lossyChars (us : List UInt16) :
    (lossyChars us).flatMap charUnits = replaced us := by
  induction us using pairInduction with
  | nil => rfl
  | unit u us hp ih =>
    rw [lossyChars_cons hp, replaced_cons hp, List.flatMap_cons, charUnits_shownUnit, ih]
    rfl
  | pair u v us hu hv ih =>
    rw [lossyChars_cons_pair hu hv, replaced_cons_pair hu hv, List.flatMap_cons,
      charUnits_pairChar hu hv, ih]
    rfl

namespace UnitString

theorem units_ofText_lossy_eq_replaced (s : UnitString) :
    (ofText s.lossy).units = replaced s.units := by
  rw [units_ofText_lossy, flatMap_lossyChars]

/-- **Replacement is exact.** Both ways of showing a string give the same text. Its units are as many
as those of the string and are the same, except in the unpaired places, where U+FFFD stands. Where a
string has a text, that is the one shown. What is shown is shown as itself, and two strings are shown
alike just if they agree once the unpaired units are replaced. -/
theorem lossy_exact (s : UnitString) :
    s.display = s.lossy ∧
      (ofText s.lossy).length = s.length ∧
      (∀ i, (ofText s.lossy).units[i]? =
        if IsUnpaired s.units i then some 0xFFFD else s.units[i]?) ∧
      (s.text? = none ∨ s.text? = some s.lossy) ∧
      (ofText s.lossy).lossy = s.lossy ∧
      ∀ s' : UnitString, s.lossy = s'.lossy ↔ replaced s.units = replaced s'.units := by
  refine ⟨?_, ?_, fun i => ?_, ?_, lossy_ofText _, fun s' => ⟨fun h => ?_, fun h => ?_⟩⟩
  · rw [display, pieces, shown_piecesOf, lossy]
  · rw [length, units_ofText_lossy_eq_replaced, length_replaced, length]
  · rw [units_ofText_lossy_eq_replaced, getElem?_replaced]
  · cases ht : s.text? with
    | none => exact .inl rfl
    | some t =>
      obtain rfl : s = ofText t := eq_ofText_iff.mpr (text?_eq_some_iff.mp ht)
      rw [lossy_ofText]
      exact .inr rfl
  · rw [← units_ofText_lossy_eq_replaced, h, units_ofText_lossy_eq_replaced]
  · rw [← units_ofText_lossy_eq_replaced, ← units_ofText_lossy_eq_replaced,
      ← UnitString.ext_iff] at h
    rw [← lossy_ofText s.lossy, h, lossy_ofText]

/-- Two high surrogates, of which the second begins a pair, and a low one too many. -/
example : (⟨[0xD83D, 0xD83D, 0xDE00, 0xDE00, 0x41]⟩ : UnitString).lossy = "\uFFFD😀\uFFFDA" := by
  decide

end UnitString

end Reading

end ScriptLiteral
