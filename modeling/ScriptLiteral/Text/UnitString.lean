/-!
# Strings of code units

A script string is a sequence of 16-bit code units. A character up to U+FFFF is one unit; a
character above is a *pair*, a high surrogate followed by a low one. A unit that is a surrogate
but no half of a pair is *unpaired*: it stands for no character, so a string that holds one has
no text.

Reading such a string comes in three forms. `pieces` takes it apart into characters and unpaired
units; `text?` is its text if it has one; `lossy` replaces each unpaired unit by U+FFFD.
-/

namespace ScriptLiteral

/-! ## Surrogates -/

/-- The units that open a pair. -/
def isHighSurrogate (u : UInt16) : Bool :=
  0xD800 ≤ u && u < 0xDC00

/-- The units that close a pair. -/
def isLowSurrogate (u : UInt16) : Bool :=
  0xDC00 ≤ u && u < 0xE000

/-- The character that a pair of surrogates stands for. -/
def pairChar (high low : UInt16) : Char :=
  Char.ofNat (0x10000 + (high.toNat - 0xD800) * 0x400 + (low.toNat - 0xDC00))

/-- The character that a single unit stands for, if it is no surrogate. -/
def unitChar (u : UInt16) : Char :=
  Char.ofNat u.toNat

/-- The code units of a character: one, or a pair. -/
def charUnits (c : Char) : List UInt16 :=
  if c.toNat < 0x10000 then [c.toNat.toUInt16]
  else
    [(0xD800 + (c.toNat - 0x10000) / 0x400).toUInt16,
      (0xDC00 + (c.toNat - 0x10000) % 0x400).toUInt16]

/-- The replacement character, which takes the place of an unpaired unit. -/
def replacementChar : Char := '\uFFFD'

/-! ## The type -/

/-- A string of 16-bit code units, in which surrogates need not be paired. -/
@[ext] structure UnitString where
  /-- the code units in order -/
  units : List UInt16
deriving DecidableEq

/-- What a string of units consists of: characters and unpaired surrogates. -/
inductive Piece
  /-- a character, from one unit or from a pair -/
  | char (c : Char)
  /-- a surrogate that is no half of a pair -/
  | unpaired (u : UInt16)
deriving DecidableEq

/-- The character shown for a piece. -/
def Piece.shown : Piece → Char
  | .char c => c
  | .unpaired _ => replacementChar

namespace UnitString

/-! ## Building -/

/-- The string with no units. -/
def empty : UnitString := ⟨[]⟩

/-- The string with no units, with room set aside for some. Room is nothing that a string is. -/
def withCapacity (_room : Nat) : UnitString := empty

instance : EmptyCollection UnitString where
  emptyCollection := empty

instance : Inhabited UnitString where
  default := empty

/-- The units of a list of characters. -/
def ofList (cs : List Char) : UnitString := ⟨cs.flatMap charUnits⟩

/-- The units of a text. -/
def ofText (s : String) : UnitString := ofList s.toList

/-- The string with one more unit at the end. -/
def push (s : UnitString) (u : UInt16) : UnitString := ⟨s.units ++ [u]⟩

/-- The string with the units of a character at the end. -/
def pushChar (s : UnitString) (c : Char) : UnitString := ⟨s.units ++ charUnits c⟩

/-- The string with the units of a text at the end. -/
def append (s : UnitString) (t : String) : UnitString := ⟨s.units ++ (ofText t).units⟩

/-- The number of code units. -/
def length (s : UnitString) : Nat := s.units.length

/-- Whether there are no units. -/
def isEmpty (s : UnitString) : Bool := s.units.isEmpty

section Building

variable (s : UnitString)

@[simp] theorem units_empty : empty.units = [] := rfl

@[simp] theorem units_withCapacity (room : Nat) : (withCapacity room).units = [] := rfl

@[simp] theorem units_ofList (cs : List Char) : (ofList cs).units = cs.flatMap charUnits := rfl

@[simp] theorem units_push (u : UInt16) : (s.push u).units = s.units ++ [u] := rfl

@[simp] theorem units_pushChar (c : Char) : (s.pushChar c).units = s.units ++ charUnits c := rfl

@[simp] theorem units_append (t : String) :
    (s.append t).units = s.units ++ t.toList.flatMap charUnits := rfl

end Building

/-! ## Reading -/

/-- The characters and unpaired surrogates that a list of units consists of, in order. A high
surrogate with no low one after it is unpaired, and the unit after it is looked at afresh. -/
def piecesOf : List UInt16 → List Piece
  | [] => []
  | [u] => [if isHighSurrogate u || isLowSurrogate u then .unpaired u else .char (unitChar u)]
  | u :: v :: rest =>
    if isHighSurrogate u then
      if isLowSurrogate v then .char (pairChar u v) :: piecesOf rest
      else .unpaired u :: piecesOf (v :: rest)
    else if isLowSurrogate u then .unpaired u :: piecesOf (v :: rest)
    else .char (unitChar u) :: piecesOf (v :: rest)

/-- The characters and unpaired surrogates of a string. -/
def pieces (s : UnitString) : List Piece := piecesOf s.units

/-- The characters of a list of units in which every surrogate is paired. -/
def charsOf? : List UInt16 → Option (List Char)
  | [] => some []
  | [u] => if isHighSurrogate u || isLowSurrogate u then none else some [unitChar u]
  | u :: v :: rest =>
    if isHighSurrogate u then
      if isLowSurrogate v then (charsOf? rest).map (pairChar u v :: ·) else none
    else if isLowSurrogate u then none
    else (charsOf? (v :: rest)).map (unitChar u :: ·)

/-- The text of the string, or `none` if it holds an unpaired surrogate. -/
def text? (s : UnitString) : Option String := (charsOf? s.units).map String.ofList

/-- The characters of a list of units, with U+FFFD for each unpaired surrogate. -/
def lossyChars : List UInt16 → List Char
  | [] => []
  | [u] => [if isHighSurrogate u || isLowSurrogate u then replacementChar else unitChar u]
  | u :: v :: rest =>
    if isHighSurrogate u then
      if isLowSurrogate v then pairChar u v :: lossyChars rest
      else replacementChar :: lossyChars (v :: rest)
    else if isLowSurrogate u then replacementChar :: lossyChars (v :: rest)
    else unitChar u :: lossyChars (v :: rest)

/-- The text of the string, with U+FFFD for each unpaired surrogate. -/
def lossy (s : UnitString) : String := String.ofList (lossyChars s.units)

/-- The string as it is displayed, one character for each piece. -/
def display (s : UnitString) : String := String.ofList (s.pieces.map Piece.shown)

/-- Whether the units are those of the text. -/
def matchesText (s : UnitString) (t : String) : Bool := s.units == t.toList.flatMap charUnits

end UnitString

end ScriptLiteral
