import ScriptLiteral.Proofs.StringGrammar

/-!
# Decoding element by element

The value of a string literal is found in one of two ways: a text without a backslash is encoded as
a whole, and any other is split into elements, whose units are put together at the end. Here a third
way stands beside them, which knows no such distinction. `decodeFrom` goes through the text once and
pushes what each element contributes onto the string it has built so far, a character as one unit or
as two.

All three agree. What `decodeFrom` adds to the string it was given is what the elements of the text
contribute (`decodeFrom_eq`), so on a text without a backslash it pushes the units of the text
(`decodeFrom_of_no_backslash`). The main result, `value_eq_decodeValue`, is that the shorter way for
such texts cannot be told from the value or the fault of any lexeme.
-/

namespace ScriptLiteral

/-! ## Decoding with a string so far -/

/-- The string with what an element contributes pushed onto it. -/
def UnitString.pushElement (s : UnitString) : Element → UnitString
  | .raw c => s.pushChar c
  | .escape (.continuation _) => s
  | .escape (.control k) => s.push k.unit
  | .escape (.byte a b) => s.push (hexUnit [a, b])
  | .escape (.unit a b c d) => s.push (hexUnit [a, b, c, d])
  | .escape (.identity c) => s.pushChar c

/-- Goes through a text that starts at the given byte of the lexeme, with the string `s` built from
the text before it. -/
def decodeFrom (s : UnitString) (offset : Nat) (cs : List Char) : Except Fault UnitString :=
  match cs with
  | [] => .ok s
  | c :: rest =>
    if c = '\\' then
      match _h : readEscape rest with
      | .ok (e, after) =>
        decodeFrom (s.pushElement (.escape e)) (offset + byteLength ('\\' :: e.source)) after
      | .error f => .error (f.at offset)
    else decodeFrom (s.pushElement (.raw c)) (offset + c.utf8Size) rest
termination_by cs.length
decreasing_by
  · have := length_lt_of_readEscape ‹_›
    simp only [List.length_cons]
    omega
  · simp

/-- The value or the fault of a lexeme, found in this way whether or not it holds a backslash. Room
is set aside for as many units as the text has bytes. -/
def decodeValue (lexeme : String) : Except Fault UnitString :=
  match unquote? lexeme.toList with
  | some cs => decodeFrom (.withCapacity (byteLength cs)) 1 cs
  | none => .error (.unquoted lexeme)

/-! ## The same string as from the elements -/

section Decoding

variable {s : UnitString} {cs : List Char}

@[simp] theorem UnitString.units_pushElement (s : UnitString) (e : Element) :
    (s.pushElement e).units = s.units ++ e.units := by
  cases e with
  | raw c => rfl
  | escape e =>
    cases e with
    | continuation b => exact (List.append_nil _).symm
    | _ => rfl

/-- What is pushed is what the elements of the text contribute, and a fault is that of the scan. -/
theorem decodeFrom_eq (s : UnitString) (offset : Nat) (cs : List Char) :
    decodeFrom s offset cs =
      (scan offset cs).map fun es => ⟨s.units ++ (unitsOf es).units⟩ := by
  fun_induction decodeFrom s offset cs with
  | case1 s offset =>
    rw [scan_nil]
    exact congrArg Except.ok (UnitString.ext (List.append_nil _).symm)
  | case2 s offset rest e after he ih =>
    rw [ih, scan_escape he]
    -- the units of the escape move from the string so far to the front of those to come
    cases scan (offset + byteLength ('\\' :: e.source)) after with
    | error f => rfl
    | ok es => simp [Except.map, unitsOf]
  | case3 s offset rest f hf =>
    rw [scan_fault hf]
    rfl
  | case4 s offset c rest hc ih =>
    rw [ih, scan_raw hc]
    cases scan (offset + c.utf8Size) rest with
    | error f => rfl
    | ok es => simp [Except.map, unitsOf]

/-- From an empty string, decoding gives the string that the elements make up. -/
theorem decodeFrom_of_units_eq_nil (hs : s.units = []) (offset : Nat) (cs : List Char) :
    decodeFrom s offset cs = (scan offset cs).map unitsOf := by
  rw [decodeFrom_eq, hs]
  rfl

/-- A text without a backslash is pushed character by character, which gives the units of the
text. -/
theorem decodeFrom_of_no_backslash (h : '\\' ∉ cs) (s : UnitString) (offset : Nat) :
    decodeFrom s offset cs = .ok ⟨s.units ++ cs.flatMap charUnits⟩ := by
  rw [decodeFrom_eq, scan_of_no_backslash h, Except.map, unitsOf, List.flatMap_map]
  rfl

/-- **No shorter way shows.** A text without a backslash is decoded without a fault, whatever room was
set aside and wherever it starts, and the string is that of the text. So for every lexeme, quoted or
not, with escapes or without, the value or the fault is the one that decoding all texts alike
gives. -/
theorem value_eq_decodeValue :
    (∀ (room offset : Nat) (t : String), '\\' ∉ t.toList →
      decodeFrom (.withCapacity room) offset t.toList = .ok (.ofText t)) ∧
    ∀ lexeme : String, (stringValue lexeme).value = decodeValue lexeme := by
  refine ⟨fun room offset t ht => decodeFrom_of_no_backslash ht _ offset, fun lexeme => ?_⟩
  unfold stringValue decodeValue
  cases unquote? lexeme.toList with
  | none => rfl
  | some cs =>
    exact (value_interiorValue cs).trans
      (decodeFrom_of_units_eq_nil (UnitString.units_withCapacity _) 1 cs).symm

/-- Quotes, a line feed, a letter of two bytes and a character of two units. -/
theorem value_eq_decodeValue_plain :
    '\\' ∉ "é'\n\"😀".toList ∧
      decodeFrom (.withCapacity 0) 1 "é'\n\"😀".toList = .ok (.ofText "é'\n\"😀") :=
  have h : '\\' ∉ "é'\n\"😀".toList := by decide
  ⟨h, value_eq_decodeValue.1 0 1 _ h⟩

end Decoding

end ScriptLiteral
