import ScriptLiteral.Text.Digit
import Mathlib.Data.Nat.Log
import Mathlib.Tactic.Ring

/-!
# Digits and the numbers they denote

`hexDigits` writes out the digits with their values, and `Denotes` says which number a row of them
denotes in a base: each digit counts as often as there are numbers that the digits after it can
denote. The readers of digits compute just that (`denotes_iff`), and a run of digits ends where the
next character is none (`spanDigits_append`). Nothing here bounds the length of a run.
-/

namespace ScriptLiteral

/-! ## The table -/

/-- The hexadecimal digits in either case, with their values. -/
def hexDigits : List (Char × Nat) :=
  [('0', 0), ('1', 1), ('2', 2), ('3', 3), ('4', 4), ('5', 5), ('6', 6), ('7', 7), ('8', 8),
    ('9', 9), ('a', 10), ('b', 11), ('c', 12), ('d', 13), ('e', 14), ('f', 15), ('A', 10),
    ('B', 11), ('C', 12), ('D', 13), ('E', 14), ('F', 15)]

/-- Whatever has a value as a digit of base sixteen is an ASCII character. -/
theorem toNat_lt_of_digitValue? {c : Char} {v : Nat} (h : digitValue? c = some v) :
    c.toNat < 128 := by
  simp only [digitValue?, Char.le_def, UInt32.le_iff_toNat_le, Char.toNat_val] at h
  split at h
  · next hc => exact Nat.lt_of_le_of_lt hc.2 (by decide)
  · split at h
    · next hc => exact Nat.lt_of_le_of_lt hc.2 (by decide)
    · split at h
      · next hc => exact Nat.lt_of_le_of_lt hc.2 (by decide)
      · cases h

/-- The values of the digits are those of the table. -/
theorem digitValue?_eq_some_iff {c : Char} {v : Nat} :
    digitValue? c = some v ↔ (c, v) ∈ hexDigits := by
  refine ⟨?_, ?_⟩
  · intro h
    -- the digits are ASCII characters, so the table can be checked through
    have hall : ∀ n < 128, ∀ w ∈ digitValue? (Char.ofNat n), (Char.ofNat n, w) ∈ hexDigits := by
      decide
    have hc := hall c.toNat (toNat_lt_of_digitValue? h) v
    rw [Char.ofNat_toNat] at hc
    exact hc h
  · have hall : ∀ p ∈ hexDigits, digitValue? p.1 = some p.2 := by decide
    exact hall (c, v)

theorem lt_of_mem_hexDigits {c : Char} {v : Nat} (h : (c, v) ∈ hexDigits) : v < 16 := by
  have hall : ∀ p ∈ hexDigits, p.2 < 16 := by decide
  exact hall (c, v) h

/-! ## Rows of digits -/

/-- The characters are digits of the base, and together they denote the number. -/
inductive Denotes (base : ℕ) : List Char → ℕ → Prop
  /-- no digits denote zero -/
  | nil : Denotes base [] 0
  /-- a digit in front is weighed by the power of the base that the digits after it leave -/
  | cons {c : Char} {v n : ℕ} {cs : List Char} (hc : (c, v) ∈ hexDigits) (hv : v < base)
      (hcs : Denotes base cs n) : Denotes base (c :: cs) (v * base ^ cs.length + n)

/-! ## Reading digits -/

section Reading

variable {base n : ℕ} {c : Char} {cs rest : List Char}

/-- The digits of a base are those of the table that lie below it. -/
theorem digit?_eq_some_iff {d : Fin base} : digit? base c = some d ↔ (c, d.val) ∈ hexDigits := by
  rw [← digitValue?_eq_some_iff, digit?]
  cases hv : digitValue? c with
  | none => simp
  | some v =>
    by_cases hlt : v < base
    · simp [hlt, Fin.ext_iff]
    · have hne : v ≠ d.val := fun h => hlt (h ▸ d.isLt)
      simp [hlt, hne]

theorem digits?_cons_eq_some_iff {fs : List (Fin base)} :
    digits? base (c :: cs) = some fs ↔
      ∃ f gs, digit? base c = some f ∧ digits? base cs = some gs ∧ f :: gs = fs := by
  rw [digits?]
  cases digit? base c <;> cases digits? base cs <;> simp

theorem length_of_digits? {fs : List (Fin base)} (h : digits? base cs = some fs) :
    fs.length = cs.length := by
  induction cs generalizing fs with
  | nil =>
    cases h
    rfl
  | cons c cs ih =>
    obtain ⟨f, gs, -, hgs, rfl⟩ := digits?_cons_eq_some_iff.mp h
    rw [List.length_cons, List.length_cons, ih hgs]

theorem ne_nil_of_digits? {fs : List (Fin base)} (h : digits? base cs = some fs) (hne : cs ≠ []) :
    fs ≠ [] := by
  rintro rfl
  exact hne (List.eq_nil_of_length_eq_zero (length_of_digits? h).symm)

/-- Adding up digits onto a number already read shifts that number in front of them. -/
theorem foldl_ofDigits (a : ℕ) (fs : List (Fin base)) :
    fs.foldl (fun n d => base * n + d.val) a = a * base ^ fs.length + ofDigits fs := by
  induction fs generalizing a with
  | nil => simp
  | cons f fs ih =>
    rw [ofDigits, List.foldl_cons, List.foldl_cons, ih, ih (base * 0 + f.val), List.length_cons,
      pow_succ]
    ring

theorem ofDigits_cons (f : Fin base) (fs : List (Fin base)) :
    ofDigits (f :: fs) = f * base ^ fs.length + ofDigits fs := by
  rw [ofDigits, List.foldl_cons, foldl_ofDigits, Nat.mul_zero, Nat.zero_add]

theorem ofDigits_append (fs gs : List (Fin base)) :
    ofDigits (fs ++ gs) = ofDigits fs * base ^ gs.length + ofDigits gs := by
  rw [ofDigits, List.foldl_append, foldl_ofDigits]
  rfl

/-- **Reading digits.** A row that denotes a number is one that can be read, and its digits add up
to the number. -/
theorem denotes_iff :
    Denotes base cs n ↔ ∃ fs, digits? base cs = some fs ∧ ofDigits fs = n := by
  refine ⟨?_, ?_⟩
  · intro h
    induction h with
    | nil => exact ⟨[], rfl, rfl⟩
    | @cons c v n cs hc hv hcs ih =>
      obtain ⟨fs, hfs, rfl⟩ := ih
      refine ⟨⟨v, hv⟩ :: fs, ?_, ?_⟩
      · exact digits?_cons_eq_some_iff.mpr ⟨_, fs, digit?_eq_some_iff.mpr hc, hfs, rfl⟩
      · rw [ofDigits_cons, length_of_digits? hfs]
  · rintro ⟨fs, hfs, rfl⟩
    induction cs generalizing fs with
    | nil =>
      cases hfs
      exact .nil
    | cons c cs ih =>
      obtain ⟨f, gs, hf, hgs, rfl⟩ := digits?_cons_eq_some_iff.mp hfs
      rw [ofDigits_cons, length_of_digits? hgs]
      exact .cons (digit?_eq_some_iff.mp hf) f.isLt (ih gs hgs)

/-- A row of digits denotes one number only. -/
theorem Denotes.unique {m : ℕ} (hm : Denotes base cs m) (hn : Denotes base cs n) : m = n := by
  obtain ⟨fs, hfs, rfl⟩ := denotes_iff.mp hm
  obtain ⟨gs, hgs, rfl⟩ := denotes_iff.mp hn
  rw [Option.some.inj (hfs.symm.trans hgs)]

/-- One more digit at the end is added to the base times what the others denote. -/
theorem Denotes.concat {v : ℕ} (h : Denotes base cs n) (hc : (c, v) ∈ hexDigits) (hv : v < base) :
    Denotes base (cs ++ [c]) (n * base + v) := by
  induction h with
  | nil =>
    have hone := Denotes.cons hc hv .nil
    have hvalue : v * base ^ List.length ([] : List Char) + 0 = 0 * base + v := by
      rw [List.length_nil, pow_zero]
      ring
    rwa [hvalue] at hone
  | @cons d w n cs hd hw hcs ih =>
    have hcons := Denotes.cons hd hw ih
    have hvalue : w * base ^ (cs ++ [c]).length + (n * base + v) =
        (w * base ^ cs.length + n) * base + v := by
      rw [List.length_append, List.length_singleton, pow_succ]
      ring
    rwa [hvalue] at hcons

/-- Digits hold no other characters. -/
theorem Denotes.not_mem (h : Denotes base cs n) (hc : digit? base c = none) : c ∉ cs := by
  induction h with
  | nil => exact List.not_mem_nil
  | @cons d v n cs hd hv hcs ih =>
    refine List.not_mem_cons_of_ne_of_not_mem ?_ ih
    rintro rfl
    have hdigit : digit? base c = some ⟨v, hv⟩ := digit?_eq_some_iff.mpr hd
    rw [hdigit] at hc
    cases hc

/-- The text begins with no decimal digit. -/
def NoDigit (rest : List Char) : Prop := ∀ c ∈ rest.head?, digit? 10 c = none

theorem noDigit_nil : NoDigit [] := fun c hc => absurd hc (Option.not_mem_none c)

theorem noDigit_cons (h : digit? 10 c = none) : NoDigit (c :: rest) := by
  intro d hd
  cases hd
  exact h

/-- A run of digits is read up to the first character that is none. -/
theorem spanDigits_append {fs : List (Fin 10)} (h : digits? 10 cs = some fs)
    (hrest : NoDigit rest) : spanDigits (cs ++ rest) = (fs, rest) := by
  induction cs generalizing fs with
  | nil =>
    cases h
    cases rest with
    | nil => rfl
    | cons c rest => rw [List.nil_append, spanDigits, hrest c rfl]
  | cons c cs ih =>
    obtain ⟨f, gs, hf, hgs, rfl⟩ := digits?_cons_eq_some_iff.mp h
    rw [List.cons_append, spanDigits, hf, ih hgs]

/-- Digits alone are read as a whole. -/
theorem spanDigits_of_digits? {fs : List (Fin 10)} (h : digits? 10 cs = some fs) :
    spanDigits cs = (fs, []) := by
  have hspan := spanDigits_append h noDigit_nil
  rwa [List.append_nil] at hspan

/-- A text is the run of digits at its front and what follows. -/
theorem exists_of_spanDigits {fs : List (Fin 10)} (h : spanDigits cs = (fs, rest)) :
    ∃ ds, cs = ds ++ rest ∧ digits? 10 ds = some fs ∧ NoDigit rest := by
  induction cs generalizing fs with
  | nil =>
    cases h
    exact ⟨[], rfl, rfl, noDigit_nil⟩
  | cons c cs ih =>
    rw [spanDigits] at h
    split at h
    · next f hf =>
      cases h
      obtain ⟨ds, hds, hgs, hrest⟩ := ih rfl
      exact ⟨c :: ds, congrArg (c :: ·) hds, digits?_cons_eq_some_iff.mpr ⟨f, _, hf, hgs, rfl⟩,
        hrest⟩
    · next hn =>
      cases h
      exact ⟨[], rfl, rfl, noDigit_cons hn⟩

end Reading

/-! ## The number of digits -/

theorem decimalLength_eq (n : ℕ) : decimalLength n = Nat.log 10 n + 1 := by
  induction n using decimalLength.induct with
  | case1 n h => rw [decimalLength, if_pos h, Nat.log_of_lt h]
  | case2 n h ih =>
    rw [decimalLength, if_neg h, ih,
      Nat.log_of_one_lt_of_le (by decide : 1 < 10) (Nat.le_of_not_lt h)]

/-- The number of digits of a number tells the powers of ten between which it lies. -/
theorem decimalLength_bounds {n : ℕ} (hn : n ≠ 0) :
    10 ^ (decimalLength n - 1) ≤ n ∧ n < 10 ^ decimalLength n := by
  rw [decimalLength_eq]
  exact ⟨Nat.pow_log_le_self 10 hn, Nat.lt_pow_succ_log_self (by decide) n⟩

end ScriptLiteral
