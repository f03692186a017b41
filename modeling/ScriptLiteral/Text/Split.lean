/-!
# Splitting a text

A text is split at the first place where a character stands. The character itself is in neither
part, and a text without it stays whole.
-/

namespace ScriptLiteral

/-- The text before the first of the given characters and, if there is one, the text after it. -/
def splitAtFirst (c : Char) : List Char → List Char × Option (List Char)
  | [] => ([], none)
  | d :: ds =>
    if d = c then ([], some ds)
    else
      let (before, after) := splitAtFirst c ds
      (d :: before, after)

section Split

variable {c : Char} {before after : List Char}

/-- A text is split at the first of the characters. -/
theorem splitAtFirst_append (h : c ∉ before) :
    splitAtFirst c (before ++ c :: after) = (before, some after) := by
  induction before with
  | nil => rw [List.nil_append, splitAtFirst, if_pos rfl]
  | cons d before ih =>
    rw [List.mem_cons, not_or] at h
    rw [List.cons_append, splitAtFirst, if_neg (Ne.symm h.1), ih h.2]

/-- Without the character it stays whole. -/
theorem splitAtFirst_of_not_mem (h : c ∉ before) : splitAtFirst c before = (before, none) := by
  induction before with
  | nil => rfl
  | cons d before ih =>
    rw [List.mem_cons, not_or] at h
    rw [splitAtFirst, if_neg (Ne.symm h.1), ih h.2]

end Split

end ScriptLiteral
