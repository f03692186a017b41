import ScriptLiteral.Literal.Quoted
import ScriptLiteral.Proofs.Digits
import ScriptLiteral.Proofs.Utf16
import Mathlib.Data.Set.Subsingleton

/-!
# The grammar of string literals

What a string literal may be and what it stands for, said without a reader. The text between the
quotes is cut into *parts*: each part is one element of the text together with the code units it
contributes. `Spells` lists the elements one by one, with their tables written out, and `Splits`
puts them in a row. One element looks past its own end: a backslash and a carriage return are a
line break by themselves only where no line feed follows, so `Spells` knows the text after it.

The reader agrees with the grammar in both directions. What `scan` accepts splits into the
elements it found (`splits_of_scan`), and it accepts every text that splits (`scan_of_splits`).
As `scan` is a function, a text splits in at most one way (`Splits.unique`). The main result is
`stringValue_eq_ok_iff`: the lexemes with a value are the quoted texts that split, and the value
is what their parts contribute, in order.
-/

namespace ScriptLiteral

/-! ## The grammar -/

/-- The letters that stand for a control character after a backslash, with its code unit. -/
def controlUnits : List (Char × UInt16) :=
  [('0', 0x0000), ('b', 0x0008), ('f', 0x000C), ('n', 0x000A), ('r', 0x000D), ('t', 0x0009),
    ('v', 0x000B)]

/-- The characters that are a line break or begin one. -/
def lineBreaks : List Char := ['\n', '\r', '\u2028', '\u2029']

/-- The digits that may not follow a backslash. -/
def octalDigits : List Char := ['1', '2', '3', '4', '5', '6', '7']

/-- The characters that do not stand for themselves after a backslash. -/
def reserved : List Char :=
  lineBreaks ++ ['0', 'b', 'f', 'n', 'r', 't', 'v'] ++ ['x', 'u'] ++ octalDigits

/-- An element of a string literal: how it is written and what it contributes to the string. -/
@[ext] structure Part where
  /-- the characters, the backslash included -/
  source : List Char
  /-- the code units -/
  units : List UInt16
deriving DecidableEq

/-- The characters in the second place, with `rest` after them, are one element of a string
literal and contribute the units in the third place. -/
inductive Spells (rest : List Char) : List Char → List UInt16 → Prop
  /-- a character that is no backslash stands for itself -/
  | raw {c : Char} {us : List UInt16} (hc : c ≠ '\\') (hus : Encodes c us) : Spells rest [c] us
  /-- a backslash removes a line break of one character -/
  | lineBreak {c : Char} (hc : c ∈ ['\n', '\u2028', '\u2029']) : Spells rest ['\\', c] []
  /-- a backslash removes a carriage return and a line feed together -/
  | crlf : Spells rest ['\\', '\r', '\n'] []
  /-- a backslash removes a carriage return with no line feed after it -/
  | cr (hrest : rest.head? ≠ some '\n') : Spells rest ['\\', '\r'] []
  /-- the letter of a control character -/
  | control {c : Char} {u : UInt16} (hc : (c, u) ∈ controlUnits) : Spells rest ['\\', c] [u]
  /-- the unit that two hexadecimal digits denote -/
  | byte {a b : Char} {x y : Nat} {u : UInt16} (ha : (a, x) ∈ hexDigits)
      (hb : (b, y) ∈ hexDigits) (hu : u.toNat = 0x10 * x + y) : Spells rest ['\\', 'x', a, b] [u]
  /-- the unit that four hexadecimal digits denote -/
  | unit {a b c d : Char} {x y z w : Nat} {u : UInt16} (ha : (a, x) ∈ hexDigits)
      (hb : (b, y) ∈ hexDigits) (hc : (c, z) ∈ hexDigits) (hd : (d, w) ∈ hexDigits)
      (hu : u.toNat = 0x1000 * x + 0x100 * y + 0x10 * z + w) :
      Spells rest ['\\', 'u', a, b, c, d] [u]
  /-- any other character after a backslash stands for itself -/
  | identity {c : Char} {us : List UInt16} (hc : c ∉ reserved) (hus : Encodes c us) :
      Spells rest ['\\', c] us

/-- The text is cut into the given parts, each an element in front of those after it. -/
inductive Splits : List Char → List Part → Prop
  /-- the empty text has no parts -/
  | nil : Splits [] []
  /-- an element in front of a text that is cut up -/
  | cons {p : Part} {rest : List Char} {ps : List Part} (hp : Spells rest p.source p.units)
      (hps : Splits rest ps) : Splits (p.source ++ rest) (p :: ps)

/-- The lexeme is the given text between two quotes of the given kind. -/
def QuotedBy (q : Char) (inner : List Char) (lexeme : String) : Prop :=
  (q = '\'' ∨ q = '"') ∧ lexeme.toList = q :: (inner ++ [q])

/-! ## Tables -/

/-- A digit of the table is a digit. -/
theorem HexDigit.exists_of_mem {c : Char} {v : Nat} (h : (c, v) ∈ hexDigits) :
    ∃ d : HexDigit, d.char = c ∧ d.value.val = v := by
  refine ⟨⟨c, ⟨v, lt_of_mem_hexDigits h⟩, ?_⟩, rfl, rfl⟩
  rw [digit?, digitValue?_eq_some_iff.mpr h]
  exact dif_pos (lt_of_mem_hexDigits h)

/-- A digit is read from its character. -/
theorem HexDigit.ofChar?_char (d : HexDigit) : ofChar? d.char = some d := by
  have h := d.digit_eq
  unfold ofChar?
  split
  · next v hv =>
    rw [hv, Option.some.injEq] at h
    subst h
    rfl
  · next hn =>
    rw [hn] at h
    cases h

/-- A digit that was read is one of the table. -/
theorem HexDigit.mem_hexDigits (d : HexDigit) : (d.char, d.value.val) ∈ hexDigits := by
  rw [← digitValue?_eq_some_iff]
  have h := d.digit_eq
  unfold digit? at h
  split at h
  · next v hv =>
    split at h
    · rw [← Option.some.inj h]
      exact hv
    · cases h
  · cases h

/-- The digits of octal escapes are those of the list. -/
theorem isOctalDigit_iff {c : Char} : isOctalDigit c = true ↔ c ∈ octalDigits := by
  refine ⟨?_, ?_⟩
  · intro h
    have hall : ∀ n < 128, isOctalDigit (Char.ofNat n) = true → Char.ofNat n ∈ octalDigits := by
      decide
    have hle : c.toNat ≤ '7'.toNat := by
      simp only [isOctalDigit, Bool.and_eq_true, decide_eq_true_eq, Char.le_def,
        UInt32.le_iff_toNat_le] at h
      exact h.2
    have hc := hall c.toNat (Nat.lt_of_le_of_lt hle (by decide))
    rw [Char.ofNat_toNat] at hc
    exact hc h
  · have hall : octalDigits.all isOctalDigit = true := by decide
    exact List.all_eq_true.mp hall c

/-- The letters of the control characters, with their units, are those of the table. -/
theorem Control.mem_controlUnits (k : Control) : (k.letter, k.unit) ∈ controlUnits := by
  cases k <;> decide

/-- A letter of the table can be read. -/
theorem Control.ofLetter?_of_mem {c : Char} {u : UInt16} (h : (c, u) ∈ controlUnits) :
    ∃ k, ofLetter? c = some k ∧ k.letter = c ∧ k.unit = u := by
  have hall : ∀ p ∈ controlUnits, (ofLetter? p.1).map unit = some p.2 := by decide
  obtain ⟨k, hk, hu⟩ := Option.map_eq_some_iff.mp (hall (c, u) h)
  exact ⟨k, hk, letter_of_ofLetter? hk, hu⟩

/-! ## Reading one escape -/

section Reading

variable {c : Char} {cs rest : List Char} {e : Escape}

/-- A character that begins no line break is left to the other rules. -/
theorem LineBreak.read?_cons_eq_none (h : c ∉ lineBreaks) :
    read? (c :: rest) = none := by
  simp only [lineBreaks, List.mem_cons, List.not_mem_nil, or_false, not_or] at h
  obtain ⟨hlf, hcr, hls, hps⟩ := h
  unfold read?
  split <;> simp_all

/-- A carriage return takes a line feed after it along. -/
theorem LineBreak.read?_cr (h : rest.head? ≠ some '\n') : read? ('\r' :: rest) = some (cr, rest) := by
  unfold read?
  split <;> simp_all

/-- A character that begins a line break is read as one. -/
theorem LineBreak.read?_cons_ne_none (h : c ∈ lineBreaks) : read? (c :: rest) ≠ none := by
  simp only [lineBreaks, List.mem_cons, List.not_mem_nil, or_false] at h
  unfold read?
  split <;> simp_all

/-- A character that is no letter of the table is no control letter. -/
theorem Control.ofLetter?_eq_none (h : c ∉ ['0', 'b', 'f', 'n', 'r', 't', 'v']) :
    ofLetter? c = none := by
  cases hk : ofLetter? c with
  | none => rfl
  | some k =>
    rw [← letter_of_ofLetter? hk] at h
    exact absurd (by cases k <;> decide) h

/-- Reading an escape that begins with no line break. -/
theorem readEscape_cons (h : c ∉ lineBreaks) :
    readEscape (c :: rest) =
      if c = 'x' then readByte rest
      else if c = 'u' then readUnit rest
      else if isOctalDigit c then .error (.octal c)
      else
        match Control.ofLetter? c with
        | some k => .ok (.control k, rest)
        | none => .ok (.identity c, rest) := by
  unfold readEscape
  split
  · next hb =>
    rw [LineBreak.read?_cons_eq_none h] at hb
    cases hb
  · rfl

theorem HexDigit.read_char (d : HexDigit) (written : List Char) :
    read written (d.char :: cs) = .ok (d, cs) := by
  simp only [read, ofChar?_char]

/-- Two digits are read as an escape. -/
theorem readByte_char (a b : HexDigit) :
    readByte (a.char :: b.char :: rest) = .ok (.byte a b, rest) := by
  simp only [readByte, HexDigit.read_char, bind, Except.bind]
  rfl

/-- Four digits are read as an escape. -/
theorem readUnit_char (a b c d : HexDigit) :
    readUnit (a.char :: b.char :: c.char :: d.char :: rest) = .ok (.unit a b c d, rest) := by
  simp only [readUnit, HexDigit.read_char, bind, Except.bind]
  rfl

/-- What is read as an escape of two digits is one. -/
theorem eq_byte_of_readByte (h : readByte cs = .ok (e, rest)) : ∃ a b, e = .byte a b := by
  obtain ⟨⟨a, cs⟩, -, h⟩ := ok_of_bind h
  obtain ⟨⟨b, cs⟩, -, h⟩ := ok_of_bind h
  cases h
  exact ⟨a, b, rfl⟩

/-- What is read as an escape of four digits is one. -/
theorem eq_unit_of_readUnit (h : readUnit cs = .ok (e, rest)) : ∃ a b c d, e = .unit a b c d := by
  obtain ⟨⟨a, cs⟩, -, h⟩ := ok_of_bind h
  obtain ⟨⟨b, cs⟩, -, h⟩ := ok_of_bind h
  obtain ⟨⟨c, cs⟩, -, h⟩ := ok_of_bind h
  obtain ⟨⟨d, cs⟩, -, h⟩ := ok_of_bind h
  cases h
  exact ⟨a, b, c, d, rfl⟩

/-- Two digits denote a byte. -/
theorem toNat_hexUnit_byte (a b : HexDigit) :
    (hexUnit [a, b]).toNat = 0x10 * a.value.val + b.value.val := by
  have ha := a.value.isLt
  have hb := b.value.isLt
  simp only [hexUnit, ofDigits, List.map_cons, List.map_nil, List.foldl_cons, List.foldl_nil,
    UInt16.toNat_ofNat']
  omega

/-- Four digits denote any unit. -/
theorem toNat_hexUnit_unit (a b c d : HexDigit) :
    (hexUnit [a, b, c, d]).toNat =
      0x1000 * a.value.val + 0x100 * b.value.val + 0x10 * c.value.val + d.value.val := by
  have ha := a.value.isLt
  have hb := b.value.isLt
  have hc := c.value.isLt
  have hd := d.value.isLt
  simp only [hexUnit, ofDigits, List.map_cons, List.map_nil, List.foldl_cons, List.foldl_nil,
    UInt16.toNat_ofNat']
  omega

/-- A line break that was read stands in front of the text after it as the grammar wants it. -/
theorem LineBreak.spells_of_read? {b : LineBreak} (h : read? cs = some (b, rest)) :
    Spells rest ('\\' :: b.source) [] := by
  unfold read? at h
  split at h
  · cases h
    exact .crlf
  · next hno =>
    cases h
    refine .cr fun hlf => ?_
    obtain ⟨tail, rfl⟩ := List.head?_eq_some_iff.mp hlf
    exact hno tail rfl
  · cases h
    exact .lineBreak (by decide)
  · cases h
    exact .lineBreak (by decide)
  · cases h
    exact .lineBreak (by decide)
  · cases h

/-- A letter of a control character has no other meaning. -/
theorem control_not_other {u : UInt16} (h : (c, u) ∈ controlUnits) :
    c ∉ lineBreaks ∧ c ≠ 'x' ∧ c ≠ 'u' ∧ isOctalDigit c = false := by
  have hall : ∀ p ∈ controlUnits,
      p.1 ∉ lineBreaks ∧ p.1 ≠ 'x' ∧ p.1 ≠ 'u' ∧ isOctalDigit p.1 = false := by decide
  exact hall (c, u) h

/-- A character that no other rule takes stands for itself. -/
theorem not_mem_reserved (hbr : LineBreak.read? (c :: rest) = none) (hx : ¬ c = 'x')
    (hu : ¬ c = 'u') (hoct : ¬ isOctalDigit c = true) (hk : Control.ofLetter? c = none) :
    c ∉ reserved := by
  intro h
  simp only [reserved, List.mem_append] at h
  rcases h with ((h | h) | h) | h
  · exact LineBreak.read?_cons_ne_none h hbr
  · have hall : ['0', 'b', 'f', 'n', 'r', 't', 'v'].all (Control.ofLetter? · |>.isSome) = true := by
      decide
    have hsome := List.all_eq_true.mp hall c h
    rw [hk] at hsome
    cases hsome
  · simp [hx, hu] at h
  · exact hoct (isOctalDigit_iff.mpr h)

/-- An escape that was read is an element of the grammar. -/
theorem spells_of_readEscape (h : readEscape cs = .ok (e, rest)) :
    Spells rest ('\\' :: e.source) e.units := by
  unfold readEscape at h
  split at h
  · next b r hb =>
    cases h
    exact LineBreak.spells_of_read? hb
  · next hno =>
    split at h
    · cases h
    · next c r =>
      split at h
      · obtain ⟨a, b, rfl⟩ := eq_byte_of_readByte h
        exact .byte a.mem_hexDigits b.mem_hexDigits (toNat_hexUnit_byte a b)
      · split at h
        · obtain ⟨a, b, c, d, rfl⟩ := eq_unit_of_readUnit h
          exact .unit a.mem_hexDigits b.mem_hexDigits c.mem_hexDigits d.mem_hexDigits
            (toNat_hexUnit_unit a b c d)
        · split at h
          · cases h
          · split at h
            · next k hk =>
              cases h
              exact .control k.mem_controlUnits
            · next hk =>
              cases h
              exact .identity (not_mem_reserved hno ‹_› ‹_› ‹_› hk) (encodes_charUnits c)

/-- Every element that begins with a backslash is read, and nothing of the text after it. -/
theorem readEscape_of_spells {s : List Char} {us : List UInt16} (h : Spells rest ('\\' :: s) us) :
    ∃ e, readEscape (s ++ rest) = .ok (e, rest) ∧ e.source = s ∧ e.units = us := by
  cases h with
  | raw hc => exact absurd rfl hc
  | lineBreak hc =>
    simp only [List.mem_cons, List.not_mem_nil, or_false] at hc
    rcases hc with rfl | rfl | rfl
    · exact ⟨.continuation .lf, rfl, rfl, rfl⟩
    · exact ⟨.continuation .ls, rfl, rfl, rfl⟩
    · exact ⟨.continuation .ps, rfl, rfl, rfl⟩
  | crlf => exact ⟨.continuation .crlf, rfl, rfl, rfl⟩
  | cr hrest =>
    refine ⟨.continuation .cr, ?_, rfl, rfl⟩
    rw [List.singleton_append, readEscape, LineBreak.read?_cr hrest]
  | control hc =>
    obtain ⟨hbr, hx, hu, hoct⟩ := control_not_other hc
    obtain ⟨k, hk, hl, hku⟩ := Control.ofLetter?_of_mem hc
    refine ⟨.control k, ?_, by rw [Escape.source, hl], by rw [Escape.units, hku]⟩
    rw [List.singleton_append, readEscape_cons hbr, if_neg hx, if_neg hu, hoct, hk]
    rfl
  | byte ha hb hu =>
    obtain ⟨a, rfl, rfl⟩ := HexDigit.exists_of_mem ha
    obtain ⟨b, rfl, rfl⟩ := HexDigit.exists_of_mem hb
    refine ⟨.byte a b, readByte_char a b, rfl, ?_⟩
    rw [Escape.units, ← UInt16.toNat_inj.mp ((toNat_hexUnit_byte a b).trans hu.symm)]
  | unit ha hb hc hd hu =>
    obtain ⟨a, rfl, rfl⟩ := HexDigit.exists_of_mem ha
    obtain ⟨b, rfl, rfl⟩ := HexDigit.exists_of_mem hb
    obtain ⟨c, rfl, rfl⟩ := HexDigit.exists_of_mem hc
    obtain ⟨d, rfl, rfl⟩ := HexDigit.exists_of_mem hd
    refine ⟨.unit a b c d, readUnit_char a b c d, rfl, ?_⟩
    rw [Escape.units, ← UInt16.toNat_inj.mp ((toNat_hexUnit_unit a b c d).trans hu.symm)]
  | identity hc hus =>
    simp only [reserved, List.mem_append, not_or] at hc
    obtain ⟨⟨⟨hbr, hctl⟩, hxu⟩, hoct⟩ := hc
    refine ⟨.identity _, ?_, rfl, (encodes_iff.mp hus).symm⟩
    rw [List.singleton_append, readEscape_cons hbr, if_neg (fun h => hxu (by simp [h])),
      if_neg (fun h => hxu (by simp [h])), if_neg (fun h => hoct (isOctalDigit_iff.mp h)),
      Control.ofLetter?_eq_none hctl]

end Reading

/-! ## Reading a text -/

section Scanning

theorem scan_nil (offset : Nat) : scan offset [] = .ok [] := by
  rw [scan]

/-- A character that is no backslash is an element by itself. -/
theorem scan_raw {c : Char} (hc : c ≠ '\\') (offset : Nat) (rest : List Char) :
    scan offset (c :: rest) = (scan (offset + c.utf8Size) rest).map (.raw c :: ·) := by
  rw [scan, if_neg hc]

/-- After an escape the scan goes on with the text behind it. -/
theorem scan_escape {rest after : List Char} {e : Escape} (h : readEscape rest = .ok (e, after))
    (offset : Nat) :
    scan offset ('\\' :: rest) =
      (scan (offset + byteLength ('\\' :: e.source)) after).map (.escape e :: ·) := by
  rw [scan, if_pos rfl]
  split
  · next h' =>
    rw [h] at h'
    cases h'
    rfl
  · next h' =>
    rw [h] at h'
    cases h'

/-- An escape that cannot be read ends the scan. -/
theorem scan_fault {rest : List Char} {f : EscapeFault} (h : readEscape rest = .error f)
    (offset : Nat) : scan offset ('\\' :: rest) = .error (f.at offset) := by
  rw [scan, if_pos rfl]
  split
  · next h' =>
    rw [h] at h'
    cases h'
  · next h' =>
    rw [h] at h'
    cases h'
    rfl

/-- The element as a part of the text it was read from. -/
def Element.part (e : Element) : Part := ⟨e.source, e.units⟩

/-- A text that the scan accepts splits into the elements it finds. -/
theorem splits_of_scan {offset : Nat} {cs : List Char} {es : List Element}
    (h : scan offset cs = .ok es) : Splits cs (es.map Element.part) := by
  fun_induction scan offset cs generalizing es with
  | case1 offset =>
    cases h
    exact .nil
  | case2 offset rest e after he ih =>
    obtain ⟨es, hes, rfl⟩ := ok_of_map h
    rw [eq_append_of_readEscape he]
    exact .cons (p := Element.part (.escape e)) (spells_of_readEscape he) (ih hes)
  | case3 offset rest f hf => cases h
  | case4 offset c rest hc ih =>
    obtain ⟨es, hes, rfl⟩ := ok_of_map h
    exact .cons (p := Element.part (.raw c)) (.raw hc (encodes_charUnits c)) (ih hes)

/-- A part in front of a text is found as an element, and the scan goes on with the text. -/
theorem exists_scan_part {rest : List Char} {p : Part} (hp : Spells rest p.source p.units)
    (offset : Nat) :
    ∃ e, Element.part e = p ∧
      scan offset (p.source ++ rest) =
        (scan (offset + byteLength p.source) rest).map (e :: ·) := by
  obtain ⟨source, us⟩ := p
  by_cases hraw : source.head? = some '\\'
  · -- an escape, read as such
    obtain ⟨s, rfl⟩ := List.head?_eq_some_iff.mp hraw
    obtain ⟨e, he, rfl, rfl⟩ := readEscape_of_spells hp
    exact ⟨.escape e, rfl, scan_escape he offset⟩
  · -- a character that stands for itself: every other element begins with a backslash
    cases hp with
    | @raw c _ hc hus =>
      obtain rfl : us = charUnits c := encodes_iff.mp hus
      exact ⟨.raw c, rfl, scan_raw hc offset rest⟩
    | _ => exact absurd rfl hraw

/-- The scan accepts every text that splits, and finds its parts. -/
theorem scan_of_splits {cs : List Char} {ps : List Part} (h : Splits cs ps) (offset : Nat) :
    ∃ es, scan offset cs = .ok es ∧ es.map Element.part = ps := by
  induction h generalizing offset with
  | nil => exact ⟨[], scan_nil offset, rfl⟩
  | @cons p rest ps hp hps ih =>
    obtain ⟨e, rfl, he⟩ := exists_scan_part hp offset
    obtain ⟨es, hes, rfl⟩ := ih (offset + byteLength e.part.source)
    exact ⟨e :: es, by rw [he, hes]; rfl, rfl⟩

/-- A text splits in one way at most. -/
theorem Splits.unique {cs : List Char} {ps qs : List Part} (hp : Splits cs ps)
    (hq : Splits cs qs) : ps = qs := by
  obtain ⟨es, hes, rfl⟩ := scan_of_splits hp 0
  obtain ⟨fs, hfs, rfl⟩ := scan_of_splits hq 0
  rw [hes] at hfs
  cases hfs
  rfl

/-- A text without a backslash is all plain characters. -/
theorem scan_of_no_backslash {cs : List Char} (h : '\\' ∉ cs) (offset : Nat) :
    scan offset cs = .ok (cs.map .raw) := by
  induction cs generalizing offset with
  | nil => exact scan_nil offset
  | cons c cs ih =>
    rw [List.mem_cons, not_or] at h
    rw [scan_raw (Ne.symm h.1), ih h.2]
    rfl

/-- The value of a text without a backslash, which is taken from it at once, is the one that its
scan gives. -/
theorem value_interiorValue (cs : List Char) :
    (interiorValue cs).value = (scan 1 cs).map unitsOf := by
  unfold interiorValue
  split
  · rfl
  · next h =>
    rw [scan_of_no_backslash (by simpa using h)]
    simp only [Logged.value_bind, Logged.value_pure, Except.map, unitsOf, UnitString.ofList,
      List.flatMap_map]
    rfl

end Scanning

/-! ## Quotes -/

theorem isQuote_iff {q : Char} : Kind.isQuote q = true ↔ q = '\'' ∨ q = '"' := by
  simp [Kind.isQuote, or_comm]

/-- What stands between the quotes of a lexeme. -/
theorem unquote?_eq_some_iff {lexeme : String} {inner : List Char} :
    unquote? lexeme.toList = some inner ↔ ∃ q, QuotedBy q inner lexeme := by
  unfold QuotedBy
  generalize lexeme.toList = cs
  cases cs with
  | nil => simp [unquote?]
  | cons c cs =>
    -- the last character is the second quote, so one quote alone is no quoted text
    simp only [unquote?]
    refine ⟨?_, ?_⟩
    · intro h
      split at h
      · next hq =>
        rw [Bool.and_eq_true, isQuote_iff, beq_iff_eq] at hq
        obtain ⟨ys, rfl⟩ := List.getLast?_eq_some_iff.mp hq.2
        rw [List.dropLast_concat] at h
        cases h
        exact ⟨c, hq.1, rfl⟩
      · cases h
    · rintro ⟨q, hq, hcs⟩
      obtain ⟨rfl, rfl⟩ := List.cons.inj hcs
      rw [if_pos (by simpa using isQuote_iff.mpr hq), List.dropLast_concat]

/-! ## The value -/

/-- The value of a quoted lexeme is that of the text between the quotes. -/
theorem value_stringValue {q : Char} {inner : List Char} {lexeme : String}
    (h : QuotedBy q inner lexeme) :
    (stringValue lexeme).value = (scan 1 inner).map unitsOf := by
  rw [stringValue, unquote?_eq_some_iff.mpr ⟨q, h⟩, value_interiorValue]

/-- A lexeme that is not quoted has no value. -/
theorem value_stringValue_of_not_quoted {lexeme : String}
    (h : ¬ ∃ q inner, QuotedBy q inner lexeme) :
    (stringValue lexeme).value = .error (.unquoted lexeme) := by
  rw [stringValue]
  split
  · next inner hi =>
    obtain ⟨q, hq⟩ := unquote?_eq_some_iff.mp hi
    exact absurd ⟨q, inner, hq⟩ h
  · rfl

/-- A lexeme with a value is quoted and splits into elements of these units. -/
theorem exists_splits_of_ok {lexeme : String} {u : UnitString}
    (h : (stringValue lexeme).value = .ok u) :
    ∃ q inner ps, QuotedBy q inner lexeme ∧ Splits inner ps ∧ u.units = ps.flatMap Part.units := by
  by_cases hq : ∃ q inner, QuotedBy q inner lexeme
  · obtain ⟨q, inner, hq⟩ := hq
    rw [value_stringValue hq] at h
    obtain ⟨es, hes, rfl⟩ := ok_of_map h
    refine ⟨q, inner, _, hq, splits_of_scan hes, ?_⟩
    rw [List.flatMap_map]
    rfl
  · rw [value_stringValue_of_not_quoted hq] at h
    cases h

/-- **The value of a string literal.** A lexeme has the value `u` just if it is a text between two
equal quotes that splits into elements whose units, in order, are those of `u`; and no text splits
in two ways. -/
theorem stringValue_eq_ok_iff (lexeme : String) (u : UnitString) :
    ((stringValue lexeme).value = .ok u ↔
      ∃ q inner ps, QuotedBy q inner lexeme ∧ Splits inner ps ∧
        u.units = ps.flatMap Part.units) ∧
    ∀ inner, {ps | Splits inner ps}.Subsingleton := by
  refine ⟨⟨exists_splits_of_ok, ?_⟩, fun inner ps hps qs hqs => hps.unique hqs⟩
  rintro ⟨q, inner, ps, hq, hps, hu⟩
  obtain ⟨es, hes, rfl⟩ := scan_of_splits hps 1
  rw [value_stringValue hq, hes]
  refine congrArg Except.ok (UnitString.ext ?_)
  rw [hu, List.flatMap_map]
  rfl

end ScriptLiteral
