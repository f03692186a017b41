import Mathlib.Data.String.Basic
import ScriptLiteral.Proofs.StringGrammar

/-!
# The place of a fault

A string literal without a value is either no quoted text at all, or it holds an escape that
cannot be read. `Refuses` lists the ways in which an escape can be wrong, without a reader, and
`scan_error` shows what the scan answers: the text before the wrong escape splits into elements,
so that escape is the leftmost one, and the offset is the number of bytes in front of it.

From there the main result, `fault_place`, speaks of the bytes of the lexeme alone: the character
at the offset is a backslash, the lexeme cut off there and closed again has a value, and the text
that the fault quotes is the slice of the lexeme that begins there.
-/

namespace ScriptLiteral

/-! ## Escapes that cannot be read -/

/-- The hexadecimal digits in either case. -/
def hexChars : List Char := hexDigits.map Prod.fst

/-- The characters that are taken from a text in search of `n` hexadecimal digits, where it does
not begin with so many. -/
inductive Breaks : Nat → List Char → List Char → Prop
  /-- the text is at its end -/
  | ending {n : Nat} : Breaks (n + 1) [] []
  /-- a character that is no digit is taken and ends the search -/
  | stray {n : Nat} {c : Char} {rest : List Char} (hc : c ∉ hexChars) :
      Breaks (n + 1) (c :: rest) [c]
  /-- a digit is taken and the search goes on -/
  | digit {n : Nat} {c : Char} {rest taken : List Char} (hc : c ∈ hexChars)
      (h : Breaks n rest taken) : Breaks (n + 1) (c :: rest) (c :: taken)

/-- The text after a backslash begins with no escape, for the given reason. -/
inductive Refuses : List Char → EscapeFault → Prop
  /-- nothing stands after the backslash -/
  | dangling : Refuses [] (.broken ['\\'])
  /-- an octal digit stands there -/
  | octal {c : Char} {rest : List Char} (hc : c ∈ octalDigits) : Refuses (c :: rest) (.octal c)
  /-- two digits do not follow the letter `x` -/
  | byte {rest taken : List Char} (h : Breaks 2 rest taken) :
      Refuses ('x' :: rest) (.broken ('\\' :: 'x' :: taken))
  /-- four digits do not follow the letter `u` -/
  | unit {rest taken : List Char} (h : Breaks 4 rest taken) :
      Refuses ('u' :: rest) (.broken ('\\' :: 'u' :: taken))

section Reading

variable {cs rest taken : List Char} {f : EscapeFault} {n : Nat}

theorem HexDigit.mem_hexChars (d : HexDigit) : d.char ∈ hexChars :=
  List.mem_map_of_mem d.mem_hexDigits

/-- A character that is read as no digit is none. -/
theorem HexDigit.not_mem_of_ofChar? {c : Char} (h : ofChar? c = none) : c ∉ hexChars := by
  intro hc
  obtain ⟨⟨c, v⟩, hmem, rfl⟩ := List.mem_map.mp hc
  obtain ⟨d, rfl, -⟩ := exists_of_mem hmem
  rw [ofChar?_char] at h
  cases h

/-- Where one digit cannot be read, the search for `n + 1` ends at once. -/
theorem HexDigit.breaks_of_read {written : List Char} (h : read written cs = .error f) (n : Nat) :
    ∃ taken, Breaks (n + 1) cs taken ∧ f = .broken (written ++ taken) := by
  cases cs with
  | nil =>
    cases h
    exact ⟨[], .ending, by rw [List.append_nil]⟩
  | cons c cs =>
    simp only [read] at h
    split at h
    · cases h
    · next hc =>
      cases h
      exact ⟨[c], .stray (not_mem_of_ofChar? hc), rfl⟩

/-- Where one digit can be read, it is the first character taken. -/
theorem HexDigit.breaks_cons {written : List Char} {d : HexDigit}
    (h : read written cs = .ok (d, rest)) (hb : Breaks n rest taken) :
    Breaks (n + 1) cs (d.char :: taken) := by
  rw [eq_cons_of_read h]
  exact .digit d.mem_hexChars hb

/-- An escape of two digits that cannot be read breaks off. -/
theorem breaks_of_readByte (h : readByte cs = .error f) :
    ∃ taken, Breaks 2 cs taken ∧ f = .broken ('\\' :: 'x' :: taken) := by
  obtain h | ⟨⟨a, cs₁⟩, ha, h⟩ := error_of_bind h
  · exact HexDigit.breaks_of_read h 1
  obtain h | ⟨⟨b, cs₂⟩, hb, h⟩ := error_of_bind h
  · obtain ⟨taken, ht, rfl⟩ := HexDigit.breaks_of_read h 0
    exact ⟨_, HexDigit.breaks_cons ha ht, rfl⟩
  cases h

/-- An escape of four digits that cannot be read breaks off. -/
theorem breaks_of_readUnit (h : readUnit cs = .error f) :
    ∃ taken, Breaks 4 cs taken ∧ f = .broken ('\\' :: 'u' :: taken) := by
  obtain h | ⟨⟨a, cs₁⟩, ha, h⟩ := error_of_bind h
  · exact HexDigit.breaks_of_read h 3
  obtain h | ⟨⟨b, cs₂⟩, hb, h⟩ := error_of_bind h
  · obtain ⟨taken, ht, rfl⟩ := HexDigit.breaks_of_read h 2
    exact ⟨_, HexDigit.breaks_cons ha ht, rfl⟩
  obtain h | ⟨⟨c, cs₃⟩, hc, h⟩ := error_of_bind h
  · obtain ⟨taken, ht, rfl⟩ := HexDigit.breaks_of_read h 1
    exact ⟨_, HexDigit.breaks_cons ha (HexDigit.breaks_cons hb ht), rfl⟩
  obtain h | ⟨⟨d, cs₄⟩, hd, h⟩ := error_of_bind h
  · obtain ⟨taken, ht, rfl⟩ := HexDigit.breaks_of_read h 0
    exact ⟨_, HexDigit.breaks_cons ha (HexDigit.breaks_cons hb (HexDigit.breaks_cons hc ht)), rfl⟩
  cases h

/-- An escape that cannot be read is wrong in one of the listed ways. -/
theorem refuses_of_readEscape (h : readEscape cs = .error f) : Refuses cs f := by
  unfold readEscape at h
  split at h
  · cases h
  · split at h
    · cases h
      exact .dangling
    · next c r =>
      split at h
      · next hx =>
        subst hx
        obtain ⟨taken, ht, rfl⟩ := breaks_of_readByte h
        exact .byte ht
      · split at h
        · next hu =>
          subst hu
          obtain ⟨taken, ht, rfl⟩ := breaks_of_readUnit h
          exact .unit ht
        · split at h
          · next hoct =>
            cases h
            exact .octal (isOctalDigit_iff.mp hoct)
          · split at h <;> cases h

end Reading

/-! ## The leftmost wrong escape -/

/-- An element stays one in front of another text, unless it is a carriage return and that text
begins with a line feed where the old one does not. -/
theorem Spells.of_head {rest rest' source : List Char} {us : List UInt16}
    (hhead : source = ['\\', '\r'] → rest'.head? = some '\n' → rest.head? = some '\n')
    (h : Spells rest source us) : Spells rest' source us := by
  cases h with
  | raw hc hus => exact .raw hc hus
  | lineBreak hc => exact .lineBreak hc
  | crlf => exact .crlf
  | cr hrest => exact .cr fun hlf => hrest (hhead rfl hlf)
  | control hc => exact .control hc
  | byte ha hb hu => exact .byte ha hb hu
  | unit ha hb hc hd hu => exact .unit ha hb hc hd hu
  | identity hc hus => exact .identity hc hus

/-- An element stays one when the text after it is cut off somewhere. -/
theorem Spells.of_append {rest after source : List Char} {us : List UInt16}
    (h : Spells (rest ++ after) source us) : Spells rest source us := by
  refine h.of_head fun _ hlf => ?_
  obtain ⟨tail, rfl⟩ := List.head?_eq_some_iff.mp hlf
  rfl

theorem byteLength_append (cs ds : List Char) :
    byteLength (cs ++ ds) = byteLength cs + byteLength ds := by
  simp [byteLength]

theorem byteLength_cons (c : Char) (cs : List Char) :
    byteLength (c :: cs) = c.utf8Size + byteLength cs := by
  simp [byteLength]

/-- A scan that fails has come to an escape that cannot be read, and the text before that escape
splits. -/
theorem scan_error {offset : Nat} {cs : List Char} {f : Fault} (h : scan offset cs = .error f) :
    ∃ before after ps ef, cs = before ++ '\\' :: after ∧ Splits before ps ∧ Refuses after ef ∧
      f = ef.at (offset + byteLength before) := by
  fun_induction scan offset cs with
  | case1 offset => cases h
  | case2 offset rest e after he ih =>
    obtain ⟨before, tail, ps, ef, rfl, hps, hef, rfl⟩ := ih (error_of_map h)
    -- the escape was read with the whole text after it, and stays one with the part that is good
    have hp : Spells before (Element.escape e).source e.units :=
      (spells_of_readEscape he).of_append
    refine ⟨_, tail, _, ef, ?_, hps.cons (p := Element.part (.escape e)) hp, hef, ?_⟩
    · rw [eq_append_of_readEscape he]
      simp [Element.part, Element.source]
    · rw [byteLength_append, Nat.add_assoc]
      rfl
  | case3 offset rest ef hef =>
    cases h
    exact ⟨[], rest, [], ef, rfl, .nil, refuses_of_readEscape hef, rfl⟩
  | case4 offset c rest hc ih =>
    obtain ⟨before, tail, ps, ef, rfl, hps, hef, rfl⟩ := ih (error_of_map h)
    refine ⟨_, tail, _, ef, ?_, hps.cons (p := Element.part (.raw c)) (.raw hc (encodes_charUnits c)),
      hef, ?_⟩
    · rfl
    · rw [byteLength_append, Nat.add_assoc, Element.part, Element.source, byteLength_cons]
      rfl

/-! ## Bytes of the lexeme -/

/-- The character at a byte of a text, if one begins there. -/
def charAt? (s : String) (start : Nat) : Option Char := String.Pos.Raw.get? s ⟨start⟩

/-- The text between two bytes of a text. -/
def slice (s : String) (start stop : Nat) : String := String.Pos.Raw.extract s ⟨start⟩ ⟨stop⟩

theorem byteLength_eq_utf8ByteSize (cs : List Char) :
    byteLength cs = (String.ofList cs).utf8ByteSize := by
  rw [String.utf8ByteSize_ofList]
  induction cs with
  | nil => rfl
  | cons c cs ih => rw [byteLength_cons, ih, String.utf8Len_cons, Nat.add_comm]

/-- The character behind the first part of a text stands at the byte that the part is long. -/
theorem charAt?_of_append {s : String} {cs ds : List Char} (h : s.toList = cs ++ ds) :
    charAt? s (byteLength cs) = ds.head? := by
  rw [charAt?, ← String.ofList_toList (s := s), h, byteLength_eq_utf8ByteSize,
    String.utf8ByteSize_ofList]
  exact String.get?_of_valid cs ds

/-- The middle part of a text is its slice from the end of the first part on. -/
theorem slice_of_append {s : String} {cs ds rest : List Char} (h : s.toList = cs ++ ds ++ rest) :
    slice s (byteLength cs) (byteLength cs + byteLength ds) = String.ofList ds := by
  rw [slice, ← String.ofList_toList (s := s), h]
  simp only [byteLength_eq_utf8ByteSize, String.utf8ByteSize_ofList]
  exact String.extract_of_valid cs ds rest

/-! ## What a fault says -/

/-- The escape is broken: a backslash alone, or the mark of a hexadecimal escape and too few
digits, and then nothing more, which only happens at the end of the text, or a character that is
no digit. -/
def IsBroken (source : List Char) (atEnd : Prop) : Prop :=
  source = ['\\'] ∧ atEnd ∨
    ∃ mark count digits stray, (mark, count) ∈ [('x', 2), ('u', 4)] ∧
      source = '\\' :: mark :: (digits ++ stray) ∧ digits.length < count ∧
      (∀ d ∈ digits, d ∈ hexChars) ∧ (stray = [] ∧ atEnd ∨ ∃ c, stray = [c] ∧ c ∉ hexChars)

/-- A search for digits that ends early takes some digits and at most one other character. -/
theorem Breaks.exists_digits {n : Nat} {cs taken : List Char} (h : Breaks n cs taken) :
    ∃ digits stray tail, cs = taken ++ tail ∧ taken = digits ++ stray ∧ digits.length < n ∧
      (∀ d ∈ digits, d ∈ hexChars) ∧ (stray = [] ∧ tail = [] ∨ ∃ c, stray = [c] ∧ c ∉ hexChars) := by
  induction h with
  | ending => exact ⟨[], [], [], rfl, rfl, Nat.succ_pos _, by simp, .inl ⟨rfl, rfl⟩⟩
  | @stray n c rest hc =>
    exact ⟨[], [c], rest, rfl, rfl, Nat.succ_pos _, by simp, .inr ⟨c, rfl, hc⟩⟩
  | @digit n c rest taken hc h ih =>
    obtain ⟨digits, stray, tail, rfl, rfl, hlen, hdigits, hend⟩ := ih
    exact ⟨c :: digits, stray, tail, rfl, rfl, Nat.succ_lt_succ hlen,
      List.forall_mem_cons.mpr ⟨hc, hdigits⟩, hend⟩

/-- The text that is quoted with a broken escape begins at its backslash. -/
theorem Refuses.isBroken {after source : List Char} (h : Refuses after (.broken source)) :
    ∃ tail, '\\' :: after = source ++ tail ∧ IsBroken source (tail = []) := by
  cases h with
  | dangling => exact ⟨[], rfl, .inl ⟨rfl, rfl⟩⟩
  | byte h =>
    obtain ⟨digits, stray, tail, rfl, rfl, hlen, hdigits, hend⟩ := h.exists_digits
    exact ⟨tail, rfl, .inr ⟨'x', 2, digits, stray, by simp, rfl, hlen, hdigits, hend⟩⟩
  | unit h =>
    obtain ⟨digits, stray, tail, rfl, rfl, hlen, hdigits, hend⟩ := h.exists_digits
    exact ⟨tail, rfl, .inr ⟨'u', 4, digits, stray, by simp, rfl, hlen, hdigits, hend⟩⟩

theorem IsBroken.imp {source : List Char} {p q : Prop} (hpq : p → q) (h : IsBroken source p) :
    IsBroken source q := by
  obtain ⟨hs, hp⟩ | ⟨mark, count, digits, stray, hmark, hs, hlen, hdigits, hend⟩ := h
  · exact .inl ⟨hs, hpq hp⟩
  · exact .inr ⟨mark, count, digits, stray, hmark, hs, hlen, hdigits, hend.imp_left (.imp_right hpq)⟩

/-- The fault of a quoted lexeme lies at the first escape that cannot be read. -/
theorem exists_refuses {q : Char} {inner : List Char} {lexeme : String} {f : Fault}
    (hq : QuotedBy q inner lexeme) (h : (stringValue lexeme).value = .error f) :
    ∃ before after ps ef, inner = before ++ '\\' :: after ∧ Splits before ps ∧
      Refuses after ef ∧ f = ef.at (byteLength (q :: before)) := by
  rw [value_stringValue hq] at h
  obtain ⟨before, after, ps, ef, rfl, hps, hef, rfl⟩ := scan_error (error_of_map h)
  refine ⟨before, after, ps, ef, rfl, hps, hef, ?_⟩
  rw [byteLength_cons]
  obtain ⟨rfl | rfl, -⟩ := hq <;> rfl

section Place

variable {q : Char} {inner before after : List Char} {lexeme : String} {f : Fault}

theorem QuotedBy.utf8Size_eq_one (hq : QuotedBy q inner lexeme) : q.utf8Size = 1 := by
  obtain ⟨rfl | rfl, -⟩ := hq <;> rfl

/-- The quotes are two bytes of the lexeme. -/
theorem QuotedBy.utf8ByteSize_eq (hq : QuotedBy q inner lexeme) :
    lexeme.utf8ByteSize = byteLength inner + 2 := by
  have hlen := congrArg byteLength hq.2
  rw [byteLength_eq_utf8ByteSize, String.ofList_toList, byteLength_cons, byteLength_append,
    byteLength_cons, hq.utf8Size_eq_one] at hlen
  change _ = 1 + (byteLength inner + (1 + 0)) at hlen
  omega

/-- A fault between quotes lies at a backslash, and the text in front of it has a value. -/
theorem backslash_place (hq : QuotedBy q inner lexeme)
    (h : (stringValue lexeme).value = .error f) :
    ∃ o, f.offset? = some o ∧ 1 ≤ o ∧ o < lexeme.utf8ByteSize - 1 ∧
      charAt? lexeme o = some '\\' ∧
      ∃ u, (stringValue (q.toString ++ slice lexeme 1 o ++ q.toString)).value = .ok u := by
  obtain ⟨before, after, ps, ef, rfl, hps, -, rfl⟩ := exists_refuses hq h
  have hone := hq.utf8Size_eq_one
  have hsize := hq.utf8ByteSize_eq
  rw [byteLength_append, byteLength_cons] at hsize
  have hbackslash : ('\\' : Char).utf8Size = 1 := rfl
  refine ⟨byteLength (q :: before), by cases ef <;> rfl, ?_, ?_, ?_, ?_⟩
  · rw [byteLength_cons]
    omega
  · rw [byteLength_cons]
    omega
  · have hl : lexeme.toList = (q :: before) ++ ('\\' :: after ++ [q]) := by
      rw [hq.2, List.cons_append, List.append_assoc]
    exact charAt?_of_append hl
  · -- cut off there and closed again, the text is `before` between quotes
    have hslice : slice lexeme 1 (byteLength (q :: before)) = String.ofList before := by
      have hl : lexeme.toList = [q] ++ before ++ ('\\' :: after ++ [q]) := by
        rw [hq.2, List.append_assoc, List.append_assoc]
        rfl
      have hq1 : byteLength [q] = 1 := by rw [byteLength_cons, hone]; rfl
      rw [byteLength_cons, hone, ← hq1]
      exact slice_of_append hl
    have hquoted : QuotedBy q before (q.toString ++ slice lexeme 1 (byteLength (q :: before)) ++
        q.toString) := by
      refine ⟨hq.1, ?_⟩
      rw [hslice]
      simp
    obtain ⟨es, hes, -⟩ := scan_of_splits hps 1
    exact ⟨unitsOf es, by rw [value_stringValue hquoted, hes]; rfl⟩

/-- An octal digit that a fault names stands between the quotes, after the backslash. -/
theorem octal_place (hq : QuotedBy q inner lexeme) {digit : Char} {o : Nat}
    (h : (stringValue lexeme).value = .error (.octalEscape digit o)) :
    digit ∈ octalDigits ∧ charAt? lexeme (o + 1) = some digit ∧
      o + 1 < lexeme.utf8ByteSize - 1 := by
  obtain ⟨before, after, ps, ef, rfl, -, hef, hf⟩ := exists_refuses hq h
  cases hef with
  | @octal c rest hc =>
    cases hf
    refine ⟨hc, ?_, ?_⟩
    · have hl : lexeme.toList = (q :: before ++ ['\\']) ++ (digit :: rest ++ [q]) := by
        rw [hq.2]
        simp
      have hat := charAt?_of_append hl
      rw [byteLength_append] at hat
      exact hat
    · have hpos := Char.utf8Size_pos digit
      rw [hq.utf8ByteSize_eq, byteLength_append, byteLength_cons, byteLength_cons, byteLength_cons,
        hq.utf8Size_eq_one]
      have hbackslash : ('\\' : Char).utf8Size = 1 := rfl
      omega
  | _ => cases hf

/-- The text that a fault quotes is a slice of the lexeme between the quotes, and a broken
escape. -/
theorem broken_place (hq : QuotedBy q inner lexeme) {source : String} {o : Nat}
    (h : (stringValue lexeme).value = .error (.brokenEscape source o)) :
    slice lexeme o (o + source.utf8ByteSize) = source ∧
      o + source.utf8ByteSize ≤ lexeme.utf8ByteSize - 1 ∧
      IsBroken source.toList (o + source.utf8ByteSize = lexeme.utf8ByteSize - 1) := by
  obtain ⟨before, after, ps, ef, rfl, -, hef, hf⟩ := exists_refuses hq h
  cases ef with
  | octal c => cases hf
  | broken chars =>
    cases hf
    obtain ⟨tail, htail, hbroken⟩ := hef.isBroken
    have hsize := hq.utf8ByteSize_eq
    rw [htail, byteLength_append, byteLength_append] at hsize
    have hone := hq.utf8Size_eq_one
    rw [← byteLength_eq_utf8ByteSize, byteLength_cons, String.toList_ofList]
    refine ⟨?_, by omega, hbroken.imp fun ht => ?_⟩
    · have hl : lexeme.toList = (q :: before) ++ chars ++ (tail ++ [q]) := by
        rw [hq.2, htail]
        simp
      have hslice := slice_of_append hl
      rw [byteLength_cons] at hslice
      exact hslice
    · have hnil : byteLength tail = 0 := by rw [ht]; rfl
      omega

end Place

/-- **The place of a fault.** A lexeme has the fault of not being quoted just if it is not, and
the fault then holds the lexeme. Any other fault gives the byte of a backslash between the quotes,
and the text from the opening quote up to that byte, closed by the same quote, has a value. An
octal digit that it names stands after that backslash; the text that it quotes is the slice of the
lexeme that begins there, it ends before the closing quote, and it is a broken escape. -/
theorem fault_place {lexeme : String} {f : Fault} (h : (stringValue lexeme).value = .error f) :
    ((∃ text, f = .unquoted text) ↔ ¬ ∃ q inner, QuotedBy q inner lexeme) ∧
    (∀ text, f = .unquoted text → text = lexeme) ∧
    (∀ q inner, QuotedBy q inner lexeme → ∃ o, f.offset? = some o ∧ 1 ≤ o ∧
      o < lexeme.utf8ByteSize - 1 ∧ charAt? lexeme o = some '\\' ∧
      ∃ u, (stringValue (q.toString ++ slice lexeme 1 o ++ q.toString)).value = .ok u) ∧
    (∀ digit o, f = .octalEscape digit o → digit ∈ octalDigits ∧
      charAt? lexeme (o + 1) = some digit ∧ o + 1 < lexeme.utf8ByteSize - 1) ∧
    (∀ source o, f = .brokenEscape source o →
      slice lexeme o (o + source.utf8ByteSize) = source ∧
      o + source.utf8ByteSize ≤ lexeme.utf8ByteSize - 1 ∧
      IsBroken source.toList (o + source.utf8ByteSize = lexeme.utf8ByteSize - 1)) := by
  by_cases hq : ∃ q inner, QuotedBy q inner lexeme
  · have hnot : ∀ text, f ≠ .unquoted text := by
      obtain ⟨q, inner, hq⟩ := hq
      obtain ⟨o, ho, -⟩ := backslash_place hq h
      rintro text rfl
      cases ho
    refine ⟨⟨fun ⟨text, ht⟩ => absurd ht (hnot text), fun hn => absurd hq hn⟩,
      fun text ht => absurd ht (hnot text), fun q inner hq => backslash_place hq h, ?_, ?_⟩
    · rintro digit o rfl
      obtain ⟨q, inner, hq⟩ := hq
      exact octal_place hq h
    · rintro source o rfl
      obtain ⟨q, inner, hq⟩ := hq
      exact broken_place hq h
  · rw [value_stringValue_of_not_quoted hq] at h
    cases h
    refine ⟨⟨fun _ => hq, fun _ => ⟨_, rfl⟩⟩, ?_, fun q inner hqi => absurd ⟨q, inner, hqi⟩ hq, ?_, ?_⟩
    · rintro text ht
      cases ht
      rfl
    · intro digit o hf
      cases hf
    · intro source o hf
      cases hf

/-- A letter of two bytes in place of the third digit is quoted with the escape, which begins after
another such letter. -/
theorem fault_place_stray_letter :
    (stringValue "'é\\u00ñ'").value = .error (.brokenEscape "\\u00ñ" 3) ∧
      slice "'é\\u00ñ'" 3 (3 + "\\u00ñ".utf8ByteSize) = "\\u00ñ" ∧
      3 + "\\u00ñ".utf8ByteSize ≤ "'é\\u00ñ'".utf8ByteSize - 1 := by
  have h : (stringValue "'é\\u00ñ'").value = .error (.brokenEscape "\\u00ñ" 3) := by decide +kernel
  obtain ⟨-, -, -, -, hbroken⟩ := fault_place h
  obtain ⟨hslice, hend, -⟩ := hbroken _ _ rfl
  exact ⟨h, hslice, hend⟩

end ScriptLiteral
