/-!
# Digits

A digit of a base is a character that stands for a number below the base. Bases go up to
sixteen, and the letters of the digits above nine are read in either case. Only ASCII characters
are digits: the decimal digits of other scripts have no value here.

`digit?` reads one character, `ofDigits` adds up a list of digits, most significant first, and
`toDigits` writes a number in base ten with no leading zero.
-/

namespace ScriptLiteral

variable {base : Nat}

-- zero is that of the core library, whatever else is imported
attribute [local instance (high)] Zero.ofOfNat0

/-- There are digits of base ten. -/
instance (priority := high) neZero_ten : NeZero (10 : Nat) := ⟨by decide⟩

/-! ## Reading -/

/-- The value of a character as a digit of base sixteen. -/
def digitValue? (c : Char) : Option Nat :=
  if '0' ≤ c ∧ c ≤ '9' then some (c.toNat - '0'.toNat)
  else if 'a' ≤ c ∧ c ≤ 'f' then some (c.toNat - 'a'.toNat + 10)
  else if 'A' ≤ c ∧ c ≤ 'F' then some (c.toNat - 'A'.toNat + 10)
  else none

/-- The digit of the base that a character stands for. -/
def digit? (base : Nat) (c : Char) : Option (Fin base) :=
  match digitValue? c with
  | some v => if h : v < base then some ⟨v, h⟩ else none
  | none => none

/-- The digits that a text consists of, or `none` if some character is no digit of the base. -/
def digits? (base : Nat) : List Char → Option (List (Fin base))
  | [] => some []
  | c :: cs =>
    match digit? base c, digits? base cs with
    | some d, some ds => some (d :: ds)
    | _, _ => none

/-- The longest run of decimal digits at the front of a text, and the text after it. -/
def spanDigits : List Char → List (Fin 10) × List Char
  | [] => ([], [])
  | c :: cs =>
    match digit? 10 c with
    | some d => (d :: (spanDigits cs).1, (spanDigits cs).2)
    | none => ([], c :: cs)

@[simp] theorem digits?_nil : digits? base [] = some [] := rfl

@[simp] theorem spanDigits_nil : spanDigits [] = ([], []) := rfl

/-! ## Value -/

/-- The number that a list of digits denotes, most significant digit first. -/
def ofDigits (ds : List (Fin base)) : Nat :=
  ds.foldl (fun n d => base * n + d.val) 0

@[simp] theorem ofDigits_nil : ofDigits ([] : List (Fin base)) = 0 := rfl

/-- One more digit at the end multiplies by the base and adds the digit. -/
@[simp] theorem ofDigits_concat (ds : List (Fin base)) (d : Fin base) :
    ofDigits (ds ++ [d]) = base * ofDigits ds + d := by
  simp [ofDigits]

/-! ## Writing -/

/-- The decimal digits of a number, most significant first; zero has the one digit `0`. -/
def toDigits (n : Nat) : List (Fin 10) :=
  go n []
where
  /-- The digits of `n` in front of those already written. -/
  go (n : Nat) (written : List (Fin 10)) : List (Fin 10) :=
    if n < 10 then Fin.ofNat 10 n :: written else go (n / 10) (Fin.ofNat 10 n :: written)

/-- The number of decimal digits of a number. -/
def decimalLength (n : Nat) : Nat :=
  if n < 10 then 1 else decimalLength (n / 10) + 1

/-- The character of a decimal digit. -/
def digitChar (d : Fin 10) : Char :=
  Char.ofNat ('0'.toNat + d)

end ScriptLiteral
