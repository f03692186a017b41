import ScriptLiteral.Proofs.ShortestText

/-!
# Layouts with checks

Laying out a number cuts its digits at the point and fills in zeros, and where the point stands is
found by taking apart what another printer wrote. `Significand.writeScript?` lays it out with every
cut and every run of zeros checked. Where there are digits no check fails, and the text is the one
that is written without checks (`Significand.writeScript?_eq_some`). Without a digit one may fail
(`Significand.writeScript?_eq_none_iff`).

There are digits whenever a text that denotes a number other than zero is taken apart, whatever its
layout, and the digits denote that number. `layout_exact` says so of all such texts, and of the
doubles that are printed by way of one.
-/

namespace ScriptLiteral

/-! ## Laying out -/

namespace Significand

variable {s : Significand}

/-- A run of zeros, which cannot be shorter than none. -/
def zeros? (n : ℤ) : Option (List Char) := if 0 ≤ n then some (zeros n.toNat) else none

/-- A text cut in two, at a place that must lie within it. -/
def cut? (n : ℤ) (cs : List Char) : Option (List Char × List Char) :=
  if 0 ≤ n ∧ n ≤ cs.length then some (cs.splitAt n.toNat) else none

/-- The text of a significand in a script, or `none` if a cut lies outside the digits or a run of
zeros is shorter than none. -/
def writeScript? (s : Significand) : Option (List Char) :=
  let cs := s.digits.map digitChar
  if cs.length ≤ s.point ∧ s.point ≤ 21 then
    (zeros? (s.point - cs.length)).map fun zs => cs ++ zs
  else if 0 < s.point ∧ s.point ≤ 21 then
    (cut? s.point cs).map fun (whole, fraction) => whole ++ '.' :: fraction
  else if -6 < s.point ∧ s.point ≤ 0 then
    (zeros? (-s.point)).map fun zs => '0' :: '.' :: zs ++ cs
  else
    (cut? 1 cs).map fun (first, rest) =>
      (if rest = [] then first else first ++ '.' :: rest) ++ exponentPart (s.point - 1)

theorem zeros?_of_nonneg {n : ℤ} (h : 0 ≤ n) : zeros? n = some (zeros n.toNat) := if_pos h

theorem cut?_of_le {n : ℤ} {cs : List Char} (h0 : 0 ≤ n) (h : n ≤ cs.length) :
    cut? n cs = some (cs.take n.toNat, cs.drop n.toNat) := by
  rw [cut?, if_pos ⟨h0, h⟩, List.splitAt_eq]

/-- **No check fails** where there are digits, and the text is the one written without checks. -/
theorem writeScript?_eq_some (hs : s.digits ≠ []) : s.writeScript? = some (s.write .script) := by
  have hlength := List.length_pos_of_ne_nil hs
  have hcut : ∀ n : ℤ, 0 ≤ n → n ≤ s.digits.length → cut? n (s.digits.map digitChar) =
      some ((s.digits.map digitChar).take n.toNat, (s.digits.map digitChar).drop n.toNat) := by
    intro n h0 h
    exact cut?_of_le h0 (by rwa [List.length_map])
  simp only [writeScript?, List.length_map]
  split
  · -- the point behind the digits
    next h =>
    have hcount : (s.point - s.digits.length).toNat = s.point.toNat - s.digits.length := by omega
    rw [zeros?_of_nonneg (by omega), hcount, write_script_of_near (by omega) h.2, positional,
      if_neg (by omega)]
    simp only [List.length_map]
    rw [if_pos (by omega), if_neg Bool.false_ne_true, List.append_nil, Option.map_some]
  · next hbehind =>
    split
    · -- the point among them
      next h =>
      rw [hcut _ (by omega) (by omega), write_script_of_near (by omega) h.2, positional,
        if_neg (by omega)]
      simp only [List.length_map]
      rw [if_neg (by omega), Option.map_some]
    · next hamong =>
      split
      · -- the point before them
        next h =>
        have hcount : (-s.point).toNat = s.point.natAbs := by omega
        rw [zeros?_of_nonneg (by omega), hcount, write_script_of_near h.1 (by omega), positional,
          if_pos h.2, Option.map_some]
      · -- a power of ten
        rw [hcut 1 (by decide) (by omega), write_script_of_far (by omega), scientific]
        obtain ⟨d, ds, hds⟩ := List.exists_cons_of_ne_nil hs
        rw [hds]
        cases ds with
        | nil => rfl
        | cons d' ds => simp

/-- A check fails just where there is no digit and the first one would have to be cut off. -/
theorem writeScript?_eq_none_iff :
    s.writeScript? = none ↔ s.digits = [] ∧ ¬ (-6 < s.point ∧ s.point ≤ 21) := by
  by_cases hs : s.digits = []
  · have hcut : cut? 1 [] = none := if_neg (by decide)
    simp only [writeScript?, hs, List.map_nil, List.length_nil, Nat.cast_zero, true_and]
    split
    · next h =>
      rw [zeros?_of_nonneg (by omega)]
      exact iff_of_false (Option.some_ne_none _) (fun hfar => hfar ⟨by omega, h.2⟩)
    · next hbehind =>
      rw [if_neg (by omega)]
      split
      · next h =>
        rw [zeros?_of_nonneg (by omega)]
        exact iff_of_false (Option.some_ne_none _) (fun hfar => hfar ⟨h.1, by omega⟩)
      · rw [hcut]
        exact iff_of_true rfl (by omega)
  · rw [writeScript?_eq_some hs]
    exact iff_of_false (Option.some_ne_none _) fun h => hs h.1

example : writeScript? ⟨[], 21⟩ ≠ none ∧ writeScript? ⟨[], 22⟩ = none := by decide

end Significand

/-! ## Numbers in scripts -/

open Significand

/-- **Every decimal layout is read exactly.** From a text that denotes a number other than zero are
taken digits with a zero at neither end, and these denote the number. So laying them out for a
script cuts within the digits and repeats no zero a negative number of times, and this is how every
finite double other than zero is printed. -/
theorem layout_exact :
    (∀ text v, IsPrinted text v → v ≠ 0 →
      (ofPrinted text).IsNormal ∧ (ofPrinted text).value = v ∧
        (ofPrinted text).writeScript? = some ((ofPrinted text).write .script)) ∧
    ∀ x : Binary64, x.isFinite = true → x.isZero = false →
      ∃ v cs, v ≠ 0 ∧ IsPrinted (Binary64.significand x.magnitude).plain v ∧
        (ofPrinted (Binary64.significand x.magnitude).plain).writeScript? = some cs ∧
        x.text = x.withSign cs := by
  refine ⟨fun text v htext hv => ?_, fun x h h0 => ?_⟩
  · obtain ⟨hnormal, hvalue⟩ := htext.exact hv
    exact ⟨hnormal, hvalue, writeScript?_eq_some hnormal.ne_nil⟩
  · have hm := Binary64.magnitude_lt_of_isFinite h
    have hne := Binary64.magnitude_ne_zero h0
    have hnormal := Binary64.isNormal_significand hm.le hne
    obtain ⟨hlow, hhigh⟩ := Binary64.point_significand_bounds hm hne
    have hprinted := hnormal.isPrinted_write .json (by omega) (by omega)
    obtain ⟨hdigits, -⟩ := hprinted.exact hnormal.value_ne_zero
    refine ⟨_, _, hnormal.value_ne_zero, hprinted, writeScript?_eq_some hdigits.ne_nil, ?_⟩
    rw [Binary64.text_of_isFinite h h0, Binary64.ofPrinted_significand hm hne]

/-- Zeros on both sides of the digits and of the point, and a power of ten. -/
theorem layout_exact_between_zeros :
    let text := "0012.500e-03".toList
    IsPrinted text (1 / 80) ∧ (1 / 80 : ℚ) ≠ 0 ∧ ofPrinted text = ⟨[1, 2, 5], -1⟩ ∧
      (ofPrinted text).value = 1 / 80 ∧ (ofPrinted text).writeScript? = some "0.0125".toList := by
  intro text
  have hwhole : Denotes 10 "0012".toList 12 :=
    denotes_iff.mpr ⟨[0, 0, 1, 2], by decide, by decide⟩
  have hfraction : Denotes 10 "500".toList 500 := denotes_iff.mpr ⟨[5, 0, 0], by decide, by decide⟩
  have hpower : Denotes 10 "03".toList 3 := denotes_iff.mpr ⟨[0, 3], by decide, by decide⟩
  have hvalue : ((12 : ℕ) + (500 : ℕ) / 10 ^ 3 : ℚ) * 10 ^ (-(3 : ℕ) : ℤ) = 1 / 80 := by norm_num
  have hprinted : IsPrinted text (1 / 80) := by
    rw [← hvalue]
    exact .scaled (.pointed (by decide) hwhole hfraction) (.minus (by decide) hpower)
      (by norm_num) (by norm_num)
  have hne : (1 / 80 : ℚ) ≠ 0 := by norm_num
  obtain ⟨-, hsame, hwritten⟩ := layout_exact.1 text (1 / 80) hprinted hne
  exact ⟨hprinted, hne, by decide, hsame, hwritten⟩

end ScriptLiteral
