import ScriptLiteral.Text.Digit
import ScriptLiteral.Text.UnitString

/-!
# Elements of a string literal

The text between the quotes of a string literal is a sequence of *elements*: characters that
stand for themselves, and escapes, which begin with a backslash. Each element has a spelling,
its `source`, and contributes some code units, its `units`.

An escape is a line continuation, which contributes nothing; a control letter; a hexadecimal
escape of two or of four digits, which contributes one unit whatever its value; or any other
character, which stands for itself. The digits one to seven are refused, because scripts once
read them as octal escapes. `readEscape` reads one escape; what it refuses is an `EscapeFault`.
-/

namespace ScriptLiteral

/-! ## Line breaks -/

/-- The line breaks that a backslash removes. -/
inductive LineBreak
  /-- a line feed -/
  | lf
  /-- a carriage return with a line feed after it -/
  | crlf
  /-- a carriage return with no line feed after it -/
  | cr
  /-- U+2028, the line separator -/
  | ls
  /-- U+2029, the paragraph separator -/
  | ps
deriving DecidableEq

/-- The characters of a line break. -/
def LineBreak.source : LineBreak → List Char
  | lf => ['\n']
  | crlf => ['\r', '\n']
  | cr => ['\r']
  | ls => ['\u2028']
  | ps => ['\u2029']

/-- The line break at the front of a text, and the text after it. -/
def LineBreak.read? : List Char → Option (LineBreak × List Char)
  | '\r' :: '\n' :: cs => some (crlf, cs)
  | '\r' :: cs => some (cr, cs)
  | '\n' :: cs => some (lf, cs)
  | '\u2028' :: cs => some (ls, cs)
  | '\u2029' :: cs => some (ps, cs)
  | _ => none

/-! ## Control letters -/

/-- The control characters that have a letter of their own. -/
inductive Control
  /-- U+0000, by the digit zero -/
  | nul
  /-- U+0008 -/
  | backspace
  /-- U+000C -/
  | formFeed
  /-- U+000A -/
  | lineFeed
  /-- U+000D -/
  | carriageReturn
  /-- U+0009 -/
  | tab
  /-- U+000B -/
  | verticalTab
deriving DecidableEq

namespace Control

/-- All control characters that have a letter. -/
def all : List Control := [nul, backspace, formFeed, lineFeed, carriageReturn, tab, verticalTab]

/-- The letter that stands for the control character after a backslash. -/
def letter : Control → Char
  | nul => '0'
  | backspace => 'b'
  | formFeed => 'f'
  | lineFeed => 'n'
  | carriageReturn => 'r'
  | tab => 't'
  | verticalTab => 'v'

/-- The code unit of the control character. -/
def unit : Control → UInt16
  | nul => 0x00
  | backspace => 0x08
  | formFeed => 0x0C
  | lineFeed => 0x0A
  | carriageReturn => 0x0D
  | tab => 0x09
  | verticalTab => 0x0B

/-- The control character with the given letter. -/
def ofLetter? (c : Char) : Option Control := all.find? (·.letter = c)

end Control

/-! ## Hexadecimal digits -/

/-- A hexadecimal digit as it is written, in either case. -/
structure HexDigit where
  /-- the character -/
  char : Char
  /-- the value -/
  value : Fin 16
  /-- the character stands for the value -/
  digit_eq : digit? 16 char = some value
deriving DecidableEq

/-- The digit that a character is. -/
def HexDigit.ofChar? (c : Char) : Option HexDigit :=
  match h : digit? 16 c with
  | some v => some ⟨c, v, h⟩
  | none => none

/-- The code unit that hexadecimal digits denote. -/
def hexUnit (ds : List HexDigit) : UInt16 := UInt16.ofNat (ofDigits (ds.map HexDigit.value))

/-! ## Escapes and elements -/

/-- What may stand after a backslash. -/
inductive Escape
  /-- a line break, which is left out of the string -/
  | continuation (b : LineBreak)
  /-- the letter of a control character -/
  | control (k : Control)
  /-- the letter `x` and two digits -/
  | byte (a b : HexDigit)
  /-- the letter `u` and four digits -/
  | unit (a b c d : HexDigit)
  /-- a character without a meaning of its own after a backslash -/
  | identity (c : Char)
deriving DecidableEq

/-- A part of a string literal that is read as one. -/
inductive Element
  /-- a character that stands for itself -/
  | raw (c : Char)
  /-- a backslash and what it gives a meaning to -/
  | escape (e : Escape)
deriving DecidableEq

/-- The spelling of an escape after its backslash. -/
def Escape.source : Escape → List Char
  | continuation b => b.source
  | control k => [k.letter]
  | byte a b => ['x', a.char, b.char]
  | unit a b c d => ['u', a.char, b.char, c.char, d.char]
  | identity c => [c]

/-- The code units that an escape contributes to the string. -/
def Escape.units : Escape → List UInt16
  | continuation _ => []
  | control k => [k.unit]
  | byte a b => [hexUnit [a, b]]
  | unit a b c d => [hexUnit [a, b, c, d]]
  | identity c => charUnits c

/-- The spelling of an element. -/
def Element.source : Element → List Char
  | raw c => [c]
  | escape e => '\\' :: e.source

/-- The code units that an element contributes to the string. -/
def Element.units : Element → List UInt16
  | raw c => charUnits c
  | escape e => e.units

-- the empty sum is the zero of the core library, whatever else is imported
attribute [local instance (high)] Zero.ofOfNat0

/-- The number of bytes of a text in UTF-8. -/
def byteLength (cs : List Char) : Nat := (cs.map Char.utf8Size).sum

/-! ## Reading an escape -/

/-- Why an escape cannot be read. -/
inductive EscapeFault
  /-- the digit of an octal escape -/
  | octal (digit : Char)
  /-- the escape from its backslash up to and with the character that is out of place, or up to
  the end of the text -/
  | broken (source : List Char)
deriving DecidableEq

/-- Reads one hexadecimal digit of an escape, of which `written` has been read so far. -/
def HexDigit.read (written : List Char) : List Char → Except EscapeFault (HexDigit × List Char)
  | [] => .error (.broken written)
  | c :: cs =>
    match ofChar? c with
    | some d => .ok (d, cs)
    | none => .error (.broken (written ++ [c]))

/-- Reads the digits of a two-digit escape. -/
def readByte (cs : List Char) : Except EscapeFault (Escape × List Char) := do
  let (a, cs) ← HexDigit.read ['\\', 'x'] cs
  let (b, cs) ← HexDigit.read ['\\', 'x', a.char] cs
  return (.byte a b, cs)

/-- Reads the digits of a four-digit escape. -/
def readUnit (cs : List Char) : Except EscapeFault (Escape × List Char) := do
  let (a, cs) ← HexDigit.read ['\\', 'u'] cs
  let (b, cs) ← HexDigit.read ['\\', 'u', a.char] cs
  let (c, cs) ← HexDigit.read ['\\', 'u', a.char, b.char] cs
  let (d, cs) ← HexDigit.read ['\\', 'u', a.char, b.char, c.char] cs
  return (.unit a b c d, cs)

/-- The digits that would begin an octal escape. -/
def isOctalDigit (c : Char) : Bool := '1' ≤ c && c ≤ '7'

/-- Reads the escape whose backslash stands in front of the text, and gives the text after it. -/
def readEscape (cs : List Char) : Except EscapeFault (Escape × List Char) :=
  match LineBreak.read? cs with
  | some (b, rest) => .ok (.continuation b, rest)
  | none =>
    match cs with
    | [] => .error (.broken ['\\'])
    | c :: rest =>
      if c = 'x' then readByte rest
      else if c = 'u' then readUnit rest
      else if isOctalDigit c then .error (.octal c)
      else
        match Control.ofLetter? c with
        | some k => .ok (.control k, rest)
        | none => .ok (.identity c, rest)

/-! ## Steps that may fail -/

section Except

variable {ε α β : Type} {x : Except ε α} {f : α → Except ε β}

/-- A sequence of two steps gives a result only if both do. -/
theorem ok_of_bind {b : β} (h : x >>= f = .ok b) : ∃ a, x = .ok a ∧ f a = .ok b := by
  cases x with
  | error e => cases h
  | ok a => exact ⟨a, rfl, h⟩

/-- A sequence of two steps fails where one of them does. -/
theorem error_of_bind {e : ε} (h : x >>= f = .error e) :
    x = .error e ∨ ∃ a, x = .ok a ∧ f a = .error e := by
  cases x with
  | error e' =>
    cases h
    exact .inl rfl
  | ok a => exact .inr ⟨a, rfl, h⟩

/-- A result that is changed afterwards comes from a result. -/
theorem ok_of_map {g : α → β} {b : β} (h : x.map g = .ok b) : ∃ a, x = .ok a ∧ g a = b := by
  cases x with
  | error e => cases h
  | ok a => exact ⟨a, rfl, Except.ok.inj h⟩

/-- A change of the result leaves a failure as it is. -/
theorem error_of_map {g : α → β} {e : ε} (h : x.map g = .error e) : x = .error e := by
  cases x with
  | error e' =>
    cases h
    rfl
  | ok a => cases h

end Except

/-! ## Lengths -/

theorem HexDigit.char_of_ofChar? {c : Char} {d : HexDigit} (h : ofChar? c = some d) :
    d.char = c := by
  unfold ofChar? at h
  split at h
  · cases h; rfl
  · cases h

/-- Reading a digit takes one character. -/
theorem HexDigit.eq_cons_of_read {written cs rest : List Char} {d : HexDigit}
    (h : read written cs = .ok (d, rest)) : cs = d.char :: rest := by
  cases cs with
  | nil => cases h
  | cons c cs =>
    simp only [read] at h
    split at h
    · next e he => cases h; rw [char_of_ofChar? he]
    · cases h

theorem LineBreak.eq_append_of_read? {cs rest : List Char} {b : LineBreak}
    (h : read? cs = some (b, rest)) : cs = b.source ++ rest := by
  unfold read? at h
  split at h <;> cases h <;> rfl

theorem Control.letter_of_ofLetter? {c : Char} {k : Control} (h : ofLetter? c = some k) :
    k.letter = c := by
  simpa using List.find?_some h

/-- A hexadecimal escape is read from its own spelling. -/
theorem eq_append_of_readByte {cs rest : List Char} {e : Escape}
    (h : readByte cs = .ok (e, rest)) : 'x' :: cs = e.source ++ rest := by
  obtain ⟨⟨a, cs₁⟩, ha, h⟩ := ok_of_bind h
  obtain ⟨⟨b, cs₂⟩, hb, h⟩ := ok_of_bind h
  cases h
  rw [HexDigit.eq_cons_of_read ha, HexDigit.eq_cons_of_read hb]
  rfl

/-- A hexadecimal escape is read from its own spelling. -/
theorem eq_append_of_readUnit {cs rest : List Char} {e : Escape}
    (h : readUnit cs = .ok (e, rest)) : 'u' :: cs = e.source ++ rest := by
  obtain ⟨⟨a, cs₁⟩, ha, h⟩ := ok_of_bind h
  obtain ⟨⟨b, cs₂⟩, hb, h⟩ := ok_of_bind h
  obtain ⟨⟨c, cs₃⟩, hc, h⟩ := ok_of_bind h
  obtain ⟨⟨d, cs₄⟩, hd, h⟩ := ok_of_bind h
  cases h
  rw [HexDigit.eq_cons_of_read ha, HexDigit.eq_cons_of_read hb, HexDigit.eq_cons_of_read hc,
    HexDigit.eq_cons_of_read hd]
  rfl

/-- What reading an escape takes from the text is the spelling of the escape it gives. -/
theorem eq_append_of_readEscape {cs rest : List Char} {e : Escape}
    (h : readEscape cs = .ok (e, rest)) : cs = e.source ++ rest := by
  unfold readEscape at h
  split at h
  · next b r hb => cases h; exact LineBreak.eq_append_of_read? hb
  · split at h
    · cases h
    · next c r =>
      split at h
      · next hx => subst hx; exact eq_append_of_readByte h
      · split at h
        · next hu => subst hu; exact eq_append_of_readUnit h
        · split at h
          · cases h
          · split at h
            · next k hk => cases h; rw [← Control.letter_of_ofLetter? hk]; rfl
            · cases h; rfl

/-- Something stands after every backslash. -/
theorem Escape.source_length_pos (e : Escape) : 0 < e.source.length := by
  cases e with
  | continuation b => cases b <;> simp [source, LineBreak.source]
  | _ => simp [source]

/-- Reading an escape shortens the text. -/
theorem length_lt_of_readEscape {cs rest : List Char} {e : Escape}
    (h : readEscape cs = .ok (e, rest)) : rest.length < cs.length := by
  have hs := congrArg List.length (eq_append_of_readEscape h)
  have he := e.source_length_pos
  rw [List.length_append] at hs
  omega

end ScriptLiteral
