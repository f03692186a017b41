import ScriptLiteral.Proofs.FewestDigits
import ScriptLiteral.Proofs.NumberText

/-!
# Numbers as scripts print them

A script prints a finite double other than zero by the fewest digits that round to it, the nearest
of these, laid out by where the point stands. `Binary64.IsShortest` says so of the digits and
`IsLaidOut` of the text; neither mentions how they are found. All doubles are printed in this way,
but for their signs and for those that have names (`text_shortest`).
-/

namespace ScriptLiteral

open Binary64

/-! ## Digits -/

/-- The digits, as the number `0.digits · 10 ^ n`, are the fewest that round to the double, and the
nearest of these. -/
structure Binary64.IsShortest (ds : List (Fin 10)) (n : ℤ) (x : Binary64) : Prop where
  /-- there are digits -/
  ne_nil : ds ≠ []
  /-- no zero comes first -/
  head_ne : ds.head? ≠ some 0
  /-- no zero comes last -/
  getLast_ne : ds.getLast? ≠ some 0
  /-- the number that they stand for rounds to the double -/
  rounds : IsNearest (ofDigits ds * 10 ^ (n - ds.length)) x
  /-- no decimal with fewer digits does -/
  fewest (c : ℕ) (e : ℤ) : c < 10 ^ (ds.length - 1) → ¬ IsNearest (c * 10 ^ e) x
  /-- no decimal with as many digits that does is nearer -/
  nearest (c : ℕ) (e : ℤ) : c < 10 ^ ds.length → IsNearest (c * 10 ^ e) x →
    |ofDigits ds * 10 ^ (n - ds.length) - x.value| ≤ |c * 10 ^ e - x.value|

/-- **The digits that are written** for a positive double are its shortest ones. -/
theorem Binary64.isShortest_significand {x : Binary64} (h : x.isFinite = true)
    (hneg : x.negative = false) (h0 : x.isZero = false) :
    IsShortest (significand x.magnitude).digits (significand x.magnitude).point x := by
  have hm := magnitude_lt_of_isFinite h
  have hne := magnitude_ne_zero h0
  have hnormal := isNormal_significand hm.le hne
  have hx : ofMagnitude x.magnitude = x := ofMagnitude_magnitude hneg hm.le
  refine ⟨hnormal.ne_nil, hnormal.head_ne, hnormal.getLast_ne, ?_, fun c e hc => ?_,
    fun c e hc hnear => ?_⟩
  · have hrounds := isNearest_significand hm.le
    rwa [hx] at hrounds
  · have hfewest := not_isNearest_of_fewer (e := e) hm hne hc
    rwa [hx] at hfewest
  · rw [← hx] at hnear
    rw [value_of_positive hneg, abs_sub_comm, abs_sub_comm (c * 10 ^ e : ℚ)]
    exact abs_sub_significand_le hm hne hc hnear

/-! ## Layout -/

/-- The text of digits. -/
def digitsText (ds : List (Fin 10)) : String := String.ofList (ds.map digitChar)

/-- A text of so many zeros. -/
def zerosText (n : ℕ) : String := String.ofList (List.replicate n '0')

/-- The text is that of a number `0.digits · 10 ^ n` in a script. -/
structure IsLaidOut (ds : List (Fin 10)) (n : ℤ) (text : String) : Prop where
  /-- zeros fill the place up to a point not too far behind the digits -/
  integer : ds.length ≤ n → n ≤ 21 → text = digitsText ds ++ zerosText (n - ds.length).toNat
  /-- a point among the digits stands there -/
  split : 0 < n → n < ds.length → n ≤ 21 →
    text = digitsText (ds.take n.toNat) ++ "." ++ digitsText (ds.drop n.toNat)
  /-- zeros fill the place from a point not too far before the digits -/
  fraction : -6 < n → n ≤ 0 → text = "0." ++ zerosText n.natAbs ++ digitsText ds
  /-- otherwise the point stands behind the first digit, unless that is the only one, and a power of
  ten tells where it belongs -/
  scientific : ¬ (-6 < n ∧ n ≤ 21) →
    text = digitsText (ds.take 1) ++
      (if 1 < ds.length then "." ++ digitsText (ds.drop 1) else "") ++
      ("e" ++ (if n - 1 < 0 then "-" else "+") ++ toString (n - 1).natAbs)

/-- Where scripts write no power of ten. -/
theorem write_script_of_near {s : Significand} (hlow : -6 < s.point) (hhigh : s.point ≤ 21) :
    s.write .script = s.positional false :=
  if_pos ⟨Int.add_one_le_of_lt hlow, hhigh⟩

/-- Where they write one. -/
theorem write_script_of_far {s : Significand} (h : ¬ (-6 < s.point ∧ s.point ≤ 21)) :
    s.write .script = s.scientific :=
  if_neg fun hnear => h ⟨Int.lt_of_add_one_le hnear.1, hnear.2⟩

/-- A power of ten as a text. -/
theorem ofList_exponentPart (e : ℤ) :
    String.ofList (Significand.exponentPart e) =
      "e" ++ (if e < 0 then "-" else "+") ++ toString e.natAbs := by
  apply String.toList_injective
  rw [String.toList_append, toList_toString, Significand.exponentPart]
  split <;> simp

/-- **Scripts lay out digits** like this. -/
theorem isLaidOut_write {s : Significand} (hs : s.digits ≠ []) :
    IsLaidOut s.digits s.point (String.ofList (s.write .script)) := by
  have hlength := List.length_pos_of_ne_nil hs
  constructor
  · intro hbehind hhigh
    have hcount : s.point.toNat - s.digits.length = (s.point - s.digits.length).toNat := by omega
    rw [write_script_of_near (by omega) hhigh, Significand.positional, if_neg (by omega)]
    simp only [List.length_map]
    rw [if_pos (by omega), if_neg Bool.false_ne_true, List.append_nil, String.ofList_append, hcount]
    rfl
  · intro hpos hamong hhigh
    rw [write_script_of_near (by omega) hhigh, Significand.positional, if_neg (by omega)]
    simp only [List.length_map]
    rw [if_neg (by omega), ← List.map_take, ← List.map_drop]
    exact String.toList_injective (by simp [digitsText])
  · intro hlow hbefore
    rw [write_script_of_near hlow (by omega), Significand.positional, if_pos hbefore]
    exact String.toList_injective (by simp [digitsText, zerosText, Significand.zeros])
  · intro hfar
    rw [write_script_of_far hfar, Significand.scientific, ← ofList_exponentPart]
    obtain ⟨d, ds, hds⟩ := List.exists_cons_of_ne_nil hs
    rw [hds]
    cases ds with
    | nil => exact String.toList_injective (by simp [digitsText])
    | cons d' ds => exact String.toList_injective (by simp [digitsText])

/-- The farthest places of the point without a power of ten. -/
example : String.ofList (Significand.write .script ⟨[1], 21⟩) = "100000000000000000000" ∧
    String.ofList (Significand.write .script ⟨[1], -5⟩) = "0.000001" := by decide

/-! ## Texts -/

/-- **Numbers are printed as scripts print them.** A positive double is printed by its shortest
digits in the layout of scripts, a negative one by a minus sign and the text of its opposite. Both
zeros are printed alike, and the other doubles have names. -/
theorem text_shortest (x : Binary64) :
    (x.isFinite = true → x.negative = false → x.isZero = false →
      ∃ ds n, IsShortest ds n x ∧ IsLaidOut ds n x.text) ∧
    (x.isFinite = true → x.negative = true → x.isZero = false → x.text = "-" ++ x.opposite.text) ∧
    (x.isZero = true → x.text = "0") ∧
    (x.isNaN = true → x.text = "NaN") ∧
    (x.isInfinite = true → x.text = if x.negative then "-Infinity" else "Infinity") := by
  refine ⟨fun h hneg h0 => ?_, fun h hneg h0 => ?_, text_of_isZero, text_of_isNaN,
    text_of_isInfinite⟩
  · have hnormal := isNormal_significand (magnitude_lt_of_isFinite h).le (magnitude_ne_zero h0)
    refine ⟨_, _, isShortest_significand h hneg h0, ?_⟩
    rw [text_of_isFinite h h0, withSign, hneg, if_neg Bool.false_ne_true]
    exact isLaidOut_write hnormal.ne_nil
  · have hpositive : x.opposite.negative = false := by
      rw [opposite, hneg]
      rfl
    have hmagnitude : x.opposite.magnitude = x.magnitude := rfl
    rw [text_of_isFinite (x := x.opposite) h h0, text_of_isFinite h h0, withSign, withSign, hneg,
      hpositive, if_pos rfl, if_neg Bool.false_ne_true, hmagnitude]
    exact String.toList_injective (by simp)

end ScriptLiteral
