import ScriptLiteral.Proofs.NearestDouble

/-!
# Significant digits

The digits that are written for a number denote it (`ofDigits_toDigits`) and have no zero in front,
and they are the only ones of this kind (`toDigits_ofDigits`). Leaving out the zeros at the end
changes the number only by a power of ten, for which the place of the point makes up: a decimal and
its significand stand for the same rational (`Decimal.value_significand`). Unless it is zero, its
significand is in the normal form from which numbers are laid out, `Significand.IsNormal`, and no
other one in this form has its value (`Significand.IsNormal.eq_of_value_eq`).
-/

namespace ScriptLiteral

/-! ## Digits of a number -/

section Digits

variable {n : ℕ}

/-- The digits of a number come in front of those already written. -/
theorem toDigits_go_append (n : ℕ) (ds written : List (Fin 10)) :
    toDigits.go n (ds ++ written) = toDigits.go n ds ++ written := by
  induction n, ds using toDigits.go.induct with
  | case1 n ds h =>
    rw [toDigits.go, toDigits.go.eq_def n ds, if_pos h, if_pos h, List.cons_append]
  | case2 n ds h ih =>
    rw [toDigits.go, toDigits.go.eq_def n ds, if_neg h, if_neg h]
    exact ih

theorem toDigits_of_lt (h : n < 10) : toDigits n = [Fin.ofNat 10 n] := by
  rw [toDigits, toDigits.go, if_pos h]

/-- The last digit of a number of several digits. -/
theorem toDigits_of_le (h : 10 ≤ n) : toDigits n = toDigits (n / 10) ++ [Fin.ofNat 10 n] := by
  rw [toDigits, toDigits.go, if_neg (Nat.not_lt.mpr h)]
  exact toDigits_go_append (n / 10) [] _

theorem toDigits_ne_nil (n : ℕ) : toDigits n ≠ [] := by
  obtain h | h := Nat.lt_or_ge n 10
  · simp [toDigits_of_lt h]
  · simp [toDigits_of_le h]

theorem length_toDigits (n : ℕ) : (toDigits n).length = decimalLength n := by
  induction n using decimalLength.induct with
  | case1 n h =>
    rw [toDigits_of_lt h, decimalLength, if_pos h]
    rfl
  | case2 n h ih =>
    rw [toDigits_of_le (Nat.le_of_not_lt h), List.length_append, ih, decimalLength.eq_def n,
      if_neg h]
    rfl

/-- **Writing digits.** The digits of a number denote it. -/
theorem ofDigits_toDigits (n : ℕ) : ofDigits (toDigits n) = n := by
  induction n using decimalLength.induct with
  | case1 n h =>
    rw [toDigits_of_lt h, ← List.nil_append [_], ofDigits_concat, ofDigits_nil, Fin.val_ofNat,
      Nat.mod_eq_of_lt h, Nat.mul_zero, Nat.zero_add]
  | case2 n h ih =>
    rw [toDigits_of_le (Nat.le_of_not_lt h), ofDigits_concat, ih, Fin.val_ofNat, Nat.div_add_mod]

/-- Digits without a zero in front denote no less than the power of ten of the first of them. -/
theorem le_ofDigits {ds : List (Fin 10)} (hne : ds ≠ []) (hhead : ds.head? ≠ some 0) :
    10 ^ (ds.length - 1) ≤ ofDigits ds := by
  cases ds with
  | nil => exact absurd rfl hne
  | cons d ds =>
    have hd : 0 < d.val := by
      apply Nat.pos_of_ne_zero
      intro hzero
      exact hhead (congrArg some (Fin.ext hzero))
    rw [ofDigits_cons, List.length_cons, Nat.add_sub_cancel]
    exact (Nat.le_mul_of_pos_left _ hd).trans (Nat.le_add_right _ _)

/-- **Reading digits and writing them again** gives the same ones, if no zero comes first. -/
theorem toDigits_ofDigits {ds : List (Fin 10)} (hne : ds ≠ []) (hhead : ds.head? ≠ some 0) :
    toDigits (ofDigits ds) = ds := by
  induction ds using List.reverseRecOn with
  | nil => exact absurd rfl hne
  | append_singleton ds d ih =>
    have hd := d.isLt
    have hlast : Fin.ofNat 10 (10 * ofDigits ds + d) = d := by
      apply Fin.ext
      rw [Fin.val_ofNat]
      omega
    rw [ofDigits_concat]
    by_cases hnil : ds = []
    · subst hnil
      rw [toDigits_of_lt (by rw [ofDigits_nil]; omega), hlast]
      rfl
    · rw [List.head?_append_of_ne_nil _ hnil] at hhead
      have hpos : 0 < ofDigits ds :=
        (Nat.pow_pos (by decide)).trans_le (le_ofDigits hnil hhead)
      have hfront : (10 * ofDigits ds + d) / 10 = ofDigits ds := by omega
      rw [toDigits_of_le (by omega), hlast, hfront, ih hnil hhead]

/-- No zero stands in front of a number that is not zero. -/
theorem head?_toDigits (h0 : n ≠ 0) : (toDigits n).head? ≠ some 0 := by
  induction n using decimalLength.induct with
  | case1 n h =>
    rw [toDigits_of_lt h, List.head?_cons, Ne, Option.some.injEq, Fin.ext_iff, Fin.val_ofNat,
      Nat.mod_eq_of_lt h]
    exact h0
  | case2 n h ih =>
    rw [toDigits_of_le (Nat.le_of_not_lt h), List.head?_append_of_ne_nil _ (toDigits_ne_nil _)]
    exact ih (by omega)

end Digits

/-! ## Digits as characters -/

/-- The character of a digit stands for it. -/
theorem digitChar_mem_hexDigits (d : Fin 10) : (digitChar d, d.val) ∈ hexDigits := by
  revert d
  decide

/-- Digits written as characters are read back. -/
theorem digits?_map_digitChar (ds : List (Fin 10)) : digits? 10 (ds.map digitChar) = some ds := by
  induction ds with
  | nil => rfl
  | cons d ds ih =>
    exact digits?_cons_eq_some_iff.mpr
      ⟨d, ds, digit?_eq_some_iff.mpr (digitChar_mem_hexDigits d), ih, rfl⟩

/-- The characters denote what the digits do. -/
theorem denotes_map_digitChar (ds : List (Fin 10)) :
    Denotes 10 (ds.map digitChar) (ofDigits ds) :=
  denotes_iff.mpr ⟨ds, digits?_map_digitChar ds, rfl⟩

/-- Natural numbers are printed by their digits. -/
theorem toList_toString (n : ℕ) : (toString n).toList = (toDigits n).map digitChar := by
  have hall : ∀ d : Fin 10, Nat.digitChar d = digitChar d := by decide
  rw [Nat.toString_eq_ofList_toDigits, String.toList_ofList]
  induction n using decimalLength.induct with
  | case1 n h =>
    rw [Nat.toDigits_of_lt_base h, toDigits_of_lt h, List.map_singleton, ← hall, Fin.val_ofNat,
      Nat.mod_eq_of_lt h]
  | case2 n h ih =>
    rw [Nat.toDigits_eq_if (by decide), if_neg h, toDigits_of_le (Nat.le_of_not_lt h), ih,
      List.map_append, List.map_singleton, ← hall, Fin.val_ofNat]

/-! ## Zeros -/

section Zeros

variable {ds : List (Fin 10)}

@[simp] theorem ofDigits_replicate_zero (k : ℕ) :
    ofDigits (List.replicate k (0 : Fin 10)) = 0 := by
  induction k with
  | zero => rfl
  | succ k ih =>
    rw [List.replicate_succ', ofDigits_concat, ih]
    rfl

/-- Zeros in front add nothing. -/
theorem ofDigits_zeros_append (k : ℕ) (ds : List (Fin 10)) :
    ofDigits (List.replicate k 0 ++ ds) = ofDigits ds := by
  rw [ofDigits_append, ofDigits_replicate_zero, Nat.zero_mul, Nat.zero_add]

/-- Zeros at the end are powers of ten. -/
theorem ofDigits_append_zeros (ds : List (Fin 10)) (k : ℕ) :
    ofDigits (ds ++ List.replicate k 0) = ofDigits ds * 10 ^ k := by
  rw [ofDigits_append, ofDigits_replicate_zero, List.length_replicate, Nat.add_zero]

/-- Where zeros in front are left out, nothing else is. -/
theorem exists_dropWhile_zeros (ds : List (Fin 10)) :
    ∃ k, ds = List.replicate k 0 ++ ds.dropWhile (· = 0) := by
  induction ds with
  | nil => exact ⟨0, rfl⟩
  | cons d ds ih =>
    by_cases hd : d = 0
    · obtain ⟨k, hk⟩ := ih
      refine ⟨k + 1, ?_⟩
      rw [List.dropWhile_cons_of_pos (by simpa using hd), List.replicate_succ, List.cons_append,
        ← hk, hd]
    · refine ⟨0, ?_⟩
      rw [List.dropWhile_cons_of_neg (by simpa using hd)]
      rfl

/-- No zero is left in front. -/
theorem head?_dropWhile_zeros (ds : List (Fin 10)) : (ds.dropWhile (· = 0)).head? ≠ some 0 := by
  intro hzero
  have hnot := List.head?_dropWhile_not (fun d : Fin 10 => decide (d = 0)) ds
  rw [hzero] at hnot
  exact absurd hnot (by decide)

theorem stripZeros_concat (ds : List (Fin 10)) (d : Fin 10) :
    Decimal.stripZeros (ds ++ [d]) = if d = 0 then Decimal.stripZeros ds else ds ++ [d] := by
  by_cases hd : d = 0 <;> simp [Decimal.stripZeros, hd]

/-- Only zeros are left out, and they stand at the end. -/
theorem exists_stripZeros (ds : List (Fin 10)) :
    ∃ k, ds = Decimal.stripZeros ds ++ List.replicate k 0 := by
  induction ds using List.reverseRecOn with
  | nil => exact ⟨0, rfl⟩
  | append_singleton ds d ih =>
    rw [stripZeros_concat]
    split
    · next hd =>
      obtain ⟨k, hk⟩ := ih
      refine ⟨k + 1, ?_⟩
      rw [List.replicate_succ', ← List.append_assoc, ← hk, hd]
    · exact ⟨0, (List.append_nil _).symm⟩

/-- No zero is left at the end. -/
theorem getLast?_stripZeros (ds : List (Fin 10)) : (Decimal.stripZeros ds).getLast? ≠ some 0 := by
  induction ds using List.reverseRecOn with
  | nil => simp [Decimal.stripZeros]
  | append_singleton ds d ih =>
    rw [stripZeros_concat]
    split
    · exact ih
    · next hd => simpa using hd

/-- Digits that do not begin with a zero are not all left out, and still begin as before. -/
theorem head?_stripZeros (hne : ds ≠ []) (h : ds.head? ≠ some 0) :
    Decimal.stripZeros ds ≠ [] ∧ (Decimal.stripZeros ds).head? = ds.head? := by
  obtain ⟨k, hk⟩ := exists_stripZeros ds
  have hnil : Decimal.stripZeros ds ≠ [] := by
    intro hnil
    rw [hnil, List.nil_append] at hk
    cases k with
    | zero => exact hne hk
    | succ k =>
      rw [hk] at h
      exact h rfl
  refine ⟨hnil, ?_⟩
  conv_rhs => rw [hk]
  rw [List.head?_append_of_ne_nil _ hnil]

end Zeros

/-! ## Significands -/

namespace Significand

/-- The number that a significand stands for. -/
def value (s : Significand) : ℚ := ofDigits s.digits * 10 ^ (s.point - s.digits.length)

/-- There are digits, and a zero is neither the first of them nor the last. -/
structure IsNormal (s : Significand) : Prop where
  /-- there is a digit -/
  ne_nil : s.digits ≠ []
  /-- no zero comes first -/
  head_ne : s.digits.head? ≠ some 0
  /-- no zero comes last -/
  getLast_ne : s.digits.getLast? ≠ some 0

variable {s t : Significand}

theorem IsNormal.ofDigits_pos (hs : s.IsNormal) : 0 < ofDigits s.digits :=
  (Nat.pow_pos (by decide)).trans_le (le_ofDigits hs.ne_nil hs.head_ne)

theorem IsNormal.value_ne_zero (hs : s.IsNormal) : s.value ≠ 0 :=
  mul_ne_zero (Nat.cast_ne_zero.mpr hs.ofDigits_pos.ne') (zpow_ne_zero _ (by norm_num))

/-- **Normal forms are unique**: no two of them have the same value. -/
theorem IsNormal.eq_of_value_eq (hs : s.IsNormal) (ht : t.IsNormal) (h : s.value = t.value) :
    s = t := by
  -- the one whose last digit weighs less would need zeros at the end
  wlog hle : s.point - s.digits.length ≤ t.point - t.digits.length generalizing s t
  · exact (this ht hs h.symm (le_of_not_ge hle)).symm
  obtain ⟨k, hk⟩ := Int.le.dest hle
  have hten : (10 : ℚ) ≠ 0 := by norm_num
  have hvalue : (ofDigits s.digits : ℚ) = ofDigits t.digits * 10 ^ k := by
    rw [value, value, ← hk, zpow_add₀ hten, zpow_natCast, mul_comm ((10 : ℚ) ^ _), ← mul_assoc] at h
    exact mul_right_cancel₀ (zpow_ne_zero _ hten) h
  have hdigits : s.digits = t.digits ++ List.replicate k 0 := by
    have hne : t.digits ++ List.replicate k 0 ≠ [] := List.append_ne_nil_of_left_ne_nil ht.ne_nil _
    have hhead : (t.digits ++ List.replicate k 0).head? ≠ some 0 := by
      rw [List.head?_append_of_ne_nil _ ht.ne_nil]
      exact ht.head_ne
    have hsame : ofDigits s.digits = ofDigits (t.digits ++ List.replicate k 0) := by
      rw [ofDigits_append_zeros]
      exact_mod_cast hvalue
    rw [← toDigits_ofDigits hs.ne_nil hs.head_ne, hsame, toDigits_ofDigits hne hhead]
  obtain rfl : k = 0 := by
    cases k with
    | zero => rfl
    | succ k =>
      have hlast := hs.getLast_ne
      rw [hdigits, List.replicate_succ', ← List.append_assoc, List.getLast?_concat] at hlast
      exact absurd rfl hlast
  rw [List.replicate_zero, List.append_nil] at hdigits
  refine Significand.ext hdigits ?_
  rw [hdigits] at hk
  omega

end Significand

/-- **Normal form keeps the value.** -/
theorem Decimal.value_significand (d : Decimal) : d.significand.value = d.value := by
  obtain ⟨k, hk⟩ := exists_stripZeros (toDigits d.coefficient)
  have hcoefficient : (d.coefficient : ℚ) =
      ofDigits (stripZeros (toDigits d.coefficient)) * 10 ^ k := by
    have h := congrArg ofDigits hk
    rw [ofDigits_toDigits, ofDigits_append_zeros] at h
    exact_mod_cast h
  have hlength := congrArg List.length hk
  rw [List.length_append, List.length_replicate] at hlength
  rw [Significand.value, value, hcoefficient, mul_assoc, ← zpow_natCast, ← zpow_add₀ (by norm_num)]
  simp only [significand]
  congr 2
  omega

/-- A decimal other than zero has significant digits. -/
theorem Decimal.isNormal_significand {d : Decimal} (hd : d.coefficient ≠ 0) :
    d.significand.IsNormal := by
  obtain ⟨hne, hhead⟩ := head?_stripZeros (toDigits_ne_nil d.coefficient) (head?_toDigits hd)
  refine ⟨hne, ?_, getLast?_stripZeros _⟩
  rw [significand, hhead]
  exact head?_toDigits hd

end ScriptLiteral
