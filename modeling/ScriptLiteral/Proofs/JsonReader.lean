import ScriptLiteral.Json.Quoted
import ScriptLiteral.Proofs.Notation

/-!
# Reading JSON

A strict reader for JSON objects whose members are strings, numbers and `null`. White space is
allowed nowhere, control characters must be escaped, and numerals must be as JSON has them. A string
is read character by character, an escape by its table or its number; the writer has a table of its
own, and `escapeChar_cases` says what it makes of each character.

Each reader takes what it reads from the front of a text and leaves the rest, and what the writer
wrote is read back whatever follows it (`readString?_escaped`, `readNumeral?_text`), up to an object
of any members (`readObject?_object`).
-/

namespace ScriptLiteral.Json

/-! ## Characters of strings -/

/-- The letters of the short escapes, with the characters they stand for. -/
def shortEscapes : List (Char × Char) :=
  [('"', '"'), ('\\', '\\'), ('/', '/'), ('b', '\x08'), ('f', '\x0c'), ('n', '\n'), ('r', '\r'),
    ('t', '\t')]

/-- Reads the four digits of an escape by number. The number of a surrogate is refused. -/
def readCode? : List Char → Option (Char × List Char)
  | a :: b :: c :: d :: cs =>
    match digits? 16 [a, b, c, d] with
    | some ds =>
      if (ofDigits ds).isValidChar then some (Char.ofNat (ofDigits ds), cs) else none
    | none => none
  | _ => none

/-- Reads an escape after its backslash. -/
def readEscape? : List Char → Option (Char × List Char)
  | [] => none
  | l :: cs => if l = 'u' then readCode? cs else (shortEscapes.lookup l).map (·, cs)

/-- Reads one character of a string. -/
def readChar? : List Char → Option (Char × List Char)
  | [] => none
  | c :: cs =>
    if c = '\\' then readEscape? cs
    else if c.toNat < 0x20 then none
    else some (c, cs)

section Characters

variable {c : Char} {cs rest : List Char}

theorem length_lt_of_readCode (h : readCode? cs = some (c, rest)) : rest.length < cs.length := by
  unfold readCode? at h
  split at h
  · split at h
    · split at h
      · cases h
        simp only [List.length_cons]
        omega
      · cases h
    · cases h
  · cases h

/-- A character takes something of the text. -/
theorem length_lt_of_readChar (h : readChar? cs = some (c, rest)) : rest.length < cs.length := by
  cases cs with
  | nil => cases h
  | cons d cs =>
    rw [readChar?] at h
    split at h
    · cases cs with
      | nil => cases h
      | cons l cs =>
        rw [readEscape?] at h
        split at h
        · have hcode := length_lt_of_readCode h
          simp only [List.length_cons]
          omega
        · obtain ⟨_, _, heq⟩ := Option.map_eq_some_iff.mp h
          cases heq
          simp only [List.length_cons]
          omega
    · split at h
      · cases h
      · cases h
        simp

/-- A lower-case digit is one of the table. -/
theorem hexChar_mem_hexDigits {n : ℕ} (h : n < 16) : (hexChar n, n) ∈ hexDigits := by
  have hall : ∀ n < 16, (hexChar n, n) ∈ hexDigits := by decide
  exact hall n h

/-- What is written for a character: an escape of the table, one by number, or the character. -/
theorem escapeChar_cases (c : Char) :
    (∃ l, (l, c) ∈ shortEscapes ∧ escapeChar c = ['\\', l]) ∨
      c.toNat < 0x20 ∧
        escapeChar c = ['\\', 'u', '0', '0', hexChar (c.toNat / 16), hexChar (c.toNat % 16)] ∨
      0x20 ≤ c.toNat ∧ c ≠ '"' ∧ c ≠ '\\' ∧ escapeChar c = [c] := by
  have hshort : ∀ p ∈ shortEscapes, p.2 ≠ '/' → escapeChar p.2 = ['\\', p.1] := by decide
  by_cases hc : ∃ p ∈ shortEscapes, p.2 = c ∧ c ≠ '/'
  · obtain ⟨p, hp, rfl, hne⟩ := hc
    exact .inl ⟨p.1, hp, hshort p hp hne⟩
  · -- the writer has no short escapes but those of the table
    have hne : ∀ d, (∃ p ∈ shortEscapes, p.2 = d ∧ d ≠ '/') → c ≠ d := fun d hd h => hc (h ▸ hd)
    have h₁ := hne '"' (by decide)
    have h₂ := hne '\\' (by decide)
    have h₃ := hne '\x08' (by decide)
    have h₄ := hne '\t' (by decide)
    have h₅ := hne '\n' (by decide)
    have h₆ := hne '\x0c' (by decide)
    have h₇ := hne '\r' (by decide)
    rw [escapeChar, if_neg h₁, if_neg h₂, if_neg h₃, if_neg h₄, if_neg h₅, if_neg h₆, if_neg h₇]
    split
    · next hlt => exact .inr (.inl ⟨hlt, rfl⟩)
    · next hle => exact .inr (.inr ⟨Nat.le_of_not_lt hle, h₁, h₂, rfl⟩)

/-- The number of a control character, as its escape has it, is read as the character. -/
theorem readCode?_of_lt (h : c.toNat < 0x20) :
    readCode? ('0' :: '0' :: hexChar (c.toNat / 16) :: hexChar (c.toNat % 16) :: rest) =
      some (c, rest) := by
  have hdigit : ∀ n (hn : n < 16), digit? 16 (hexChar n) = some ⟨n, hn⟩ :=
    fun n hn => digit?_eq_some_iff.mpr (hexChar_mem_hexDigits hn)
  have hzero : digit? 16 '0' = some 0 := by decide
  have hds : digits? 16 ['0', '0', hexChar (c.toNat / 16), hexChar (c.toNat % 16)] =
      some [0, 0, ⟨c.toNat / 16, by omega⟩, ⟨c.toNat % 16, by omega⟩] := by
    simp only [digits?, hzero, hdigit _ (show c.toNat / 16 < 16 by omega),
      hdigit _ (show c.toNat % 16 < 16 by omega)]
  have hvalue : ofDigits [0, 0, (⟨c.toNat / 16, by omega⟩ : Fin 16), ⟨c.toNat % 16, by omega⟩] =
      c.toNat := by
    simp only [ofDigits, List.foldl_cons, List.foldl_nil]
    simp
    omega
  rw [readCode?, hds]
  simp only [hvalue]
  rw [if_pos (.inl (by omega)), Char.ofNat_toNat]

/-- **Characters** are read back, whatever follows. -/
theorem readChar?_escapeChar (c : Char) (rest : List Char) :
    readChar? (escapeChar c ++ rest) = some (c, rest) := by
  rcases escapeChar_cases c with ⟨l, hl, hc⟩ | ⟨hlt, hc⟩ | ⟨hle, -, hne, hc⟩
  · have hall : ∀ p ∈ shortEscapes, p.1 ≠ 'u' ∧ shortEscapes.lookup p.1 = some p.2 := by decide
    obtain ⟨hu, hlookup⟩ := hall (l, c) hl
    rw [hc]
    simp [readChar?, readEscape?, hu, hlookup]
  · rw [hc]
    simp [readChar?, readEscape?, readCode?_of_lt hlt]
  · rw [hc]
    simp [readChar?, hne, Nat.not_lt.mpr hle]

/-- What is written for a character does not begin with the closing quote. -/
theorem head?_escapeChar_append (c : Char) (rest : List Char) :
    (escapeChar c ++ rest).head? ≠ some '"' := by
  rcases escapeChar_cases c with ⟨l, -, hc⟩ | ⟨-, hc⟩ | ⟨-, hne, -, hc⟩
  · simp [hc]
  · simp [hc]
  · simpa [hc] using hne

end Characters

/-! ## Strings -/

/-- Reads the characters of a string up to the closing quote. -/
def readString? (cs : List Char) : Option (List Char × List Char) :=
  if cs.head? = some '"' then some ([], cs.tail)
  else
    match h : readChar? cs with
    | none => none
    | some (c, rest) =>
      have := length_lt_of_readChar h
      (readString? rest).map fun p => (c :: p.1, p.2)
termination_by cs.length

section Strings

variable {s cs rest : List Char}

/-- A string goes on up to the closing quote. -/
theorem readString?_eq (cs : List Char) :
    readString? cs =
      if cs.head? = some '"' then some ([], cs.tail)
      else
        match readChar? cs with
        | none => none
        | some (c, rest) => (readString? rest).map fun p => (c :: p.1, p.2) := by
  rw [readString?]
  split
  · rfl
  · split <;> simp_all

/-- **Strings** are read back up to the closing quote. -/
theorem readString?_escaped (s rest : List Char) :
    readString? (s.flatMap escapeChar ++ '"' :: rest) = some (s, rest) := by
  induction s with
  | nil =>
    rw [readString?_eq]
    rfl
  | cons c s ih =>
    rw [List.flatMap_cons, List.append_assoc, readString?_eq,
      if_neg (head?_escapeChar_append c _), readChar?_escapeChar]
    simp only [ih, Option.map_some]

/-- A string leaves no more than there was. -/
theorem length_le_of_readString (h : readString? cs = some (s, rest)) :
    rest.length ≤ cs.length := by
  induction cs using readString?.induct generalizing s rest with
  | case1 cs hhead =>
    rw [readString?_eq, if_pos hhead] at h
    cases h
    exact List.length_tail ▸ Nat.sub_le _ _
  | case2 cs hhead hnone =>
    rw [readString?_eq, if_neg hhead, hnone] at h
    cases h
  | case3 cs hhead c tail hsome _ ih =>
    rw [readString?_eq, if_neg hhead, hsome] at h
    obtain ⟨p, hp, heq⟩ := Option.map_eq_some_iff.mp h
    cases heq
    exact (ih hp).trans (length_lt_of_readChar hsome).le

end Strings

/-! ## Numbers -/

/-- Whether a decimal numeral is one of JSON: there are digits before the point, with no idle zero
in front, and after it if it is written. -/
def isStrict (cs : List Char) : Bool :=
  let (whole, rest) := spanDigits cs
  !whole.isEmpty && (whole.head? ≠ some 0 || whole.length = 1) &&
    (rest.head? ≠ some '.' || !(Decimal.spanFraction rest).1.isEmpty)

/-- Reads a numeral, as far as its characters go. -/
def readNumeral? (cs : List Char) : Option (Decimal × List Char) :=
  let numeral := cs.takeWhile (· ∈ numeralChars)
  if isStrict numeral then
    (Decimal.read? numeral).map (·, cs.dropWhile (· ∈ numeralChars))
  else none

/-- The text does not go on with a character of numerals. -/
def EndsNumeral (rest : List Char) : Prop := ∀ c ∈ rest.head?, c ∉ numeralChars

section Numbers

variable {p : NumeralParts} {d : Decimal} {c : Char} {cs rest : List Char}

theorem endsNumeral_cons (h : c ∉ numeralChars) : EndsNumeral (c :: rest) := by
  intro d hd
  cases hd
  exact h

theorem length_le_of_readNumeral (h : readNumeral? cs = some (d, rest)) :
    rest.length ≤ cs.length := by
  rw [readNumeral?] at h
  split at h
  · obtain ⟨_, _, heq⟩ := Option.map_eq_some_iff.mp h
    cases heq
    exact (List.dropWhile_suffix _).length_le
  · cases h

/-- Strict parts make up a numeral of JSON. -/
theorem isStrict_text (hp : p.IsStrict) : isStrict p.text = true := by
  have hwhole : p.whole.head? ≠ some 0 ∨ p.whole.length = 1 := by
    by_cases hhead : p.whole.head? = some 0
    · exact .inr (by rw [hp.head_ne hhead]; rfl)
    · exact .inl hhead
  have hfraction : (p.fractionText ++ p.exponentText).head? ≠ some '.' ∨ p.fraction ≠ [] := by
    by_cases hnil : p.fraction = []
    · rw [NumeralParts.fractionText, if_pos hnil]
      exact .inl p.isExponent_exponentText.follows.2
    · exact .inr hnil
  simp only [isStrict, p.spanDigits_text, p.spanFraction_text, Bool.and_eq_true, Bool.or_eq_true,
    Bool.not_eq_true', List.isEmpty_eq_false_iff, decide_eq_true_eq]
  exact ⟨⟨hp.ne_nil, hwhole⟩, hfraction⟩

/-- **Numerals** are read back up to a character that is none of theirs. -/
theorem readNumeral?_text (hp : p.IsStrict) (hrest : EndsNumeral rest) :
    readNumeral? (p.text ++ rest) = some (p.decimal, rest) := by
  have hchars : ∀ c ∈ p.text, decide (c ∈ numeralChars) = true :=
    fun c hc => decide_eq_true (NumeralParts.mem_numeralChars hc)
  have hspan : rest.takeWhile (· ∈ numeralChars) = [] ∧
      rest.dropWhile (· ∈ numeralChars) = rest := by
    cases rest with
    | nil => exact ⟨rfl, rfl⟩
    | cons c rest =>
      have hc : c ∉ numeralChars := hrest c rfl
      exact ⟨List.takeWhile_cons_of_neg (by simpa using hc),
        List.dropWhile_cons_of_neg (by simpa using hc)⟩
  rw [readNumeral?, List.takeWhile_append_of_pos hchars, List.dropWhile_append_of_pos hchars,
    hspan.1, hspan.2, List.append_nil, if_pos (isStrict_text hp),
    NumeralParts.read?_text hp.ne_nil]
  rfl

end Numbers

/-! ## Members -/

/-- The value of a member of an object. -/
inductive Datum
  /-- the word `null` -/
  | null
  /-- a number, with its sign apart, as zero may have one -/
  | number (negative : Bool) (d : Decimal)
  /-- a string -/
  | string (s : String)
deriving DecidableEq

/-- Reads a value. -/
def readDatum? : List Char → Option (Datum × List Char)
  | 'n' :: 'u' :: 'l' :: 'l' :: cs => some (.null, cs)
  | '"' :: cs => (readString? cs).map fun p => (.string (String.ofList p.1), p.2)
  | '-' :: cs => (readNumeral? cs).map fun p => (.number true p.1, p.2)
  | cs => (readNumeral? cs).map fun p => (.number false p.1, p.2)

/-- Reads a member: its name as a string, a colon and its value. -/
def readMember? : List Char → Option ((String × Datum) × List Char)
  | '"' :: cs =>
    match readString? cs with
    | some (name, ':' :: rest) =>
      (readDatum? rest).map fun p => ((String.ofList name, p.1), p.2)
    | _ => none
  | _ => none

/-- The text is a value as it is written, whatever follows it but characters of numerals. -/
def Writes (text : List Char) (d : Datum) : Prop :=
  ∀ rest, EndsNumeral rest → readDatum? (text ++ rest) = some (d, rest)

section Members

variable {p : NumeralParts} {d : Datum} {m : String × Datum} {cs rest : List Char}

theorem length_le_of_readDatum (h : readDatum? cs = some (d, rest)) : rest.length ≤ cs.length := by
  unfold readDatum? at h
  split at h
  · cases h
    simp only [List.length_cons]
    omega
  · obtain ⟨p, hp, heq⟩ := Option.map_eq_some_iff.mp h
    cases heq
    exact (length_le_of_readString hp).trans (Nat.le_succ _)
  · obtain ⟨p, hp, heq⟩ := Option.map_eq_some_iff.mp h
    cases heq
    exact (length_le_of_readNumeral hp).trans (Nat.le_succ _)
  · obtain ⟨p, hp, heq⟩ := Option.map_eq_some_iff.mp h
    cases heq
    exact length_le_of_readNumeral hp

/-- A member takes something of the text. -/
theorem length_lt_of_readMember (h : readMember? cs = some (m, rest)) :
    rest.length < cs.length := by
  unfold readMember? at h
  split at h
  · split at h
    · next hname =>
      obtain ⟨p, hp, heq⟩ := Option.map_eq_some_iff.mp h
      cases heq
      have hdatum := length_le_of_readDatum hp
      have hstring := length_le_of_readString hname
      simp only [List.length_cons] at hstring ⊢
      omega
    · cases h
  · cases h

theorem writes_null : Writes "null".toList .null := fun _ _ => rfl

/-- A quoted text is a string. -/
theorem writes_quote (s : String) : Writes (quote s).toList (.string s) := by
  intro rest _
  have hread := readString?_escaped s.toList rest
  simp [quote, quoteChars, readDatum?, hread]

/-- A numeral is a number. -/
theorem writes_numeral (hp : p.IsStrict) : Writes p.text (.number false p.decimal) := by
  intro rest hrest
  obtain ⟨d, cs, hcs⟩ := NumeralParts.exists_head_text hp.ne_nil
  have hd : digitChar d ≠ 'n' ∧ digitChar d ≠ '"' ∧ digitChar d ≠ '-' := by
    clear hcs
    revert d
    decide
  have hread := readNumeral?_text hp hrest
  rw [hcs, List.cons_append] at hread ⊢
  simp [readDatum?, hd, hread]

/-- With a minus sign it is a negative one. -/
theorem writes_minus (hp : p.IsStrict) : Writes ('-' :: p.text) (.number true p.decimal) := by
  intro rest hrest
  rw [List.cons_append, readDatum?, readNumeral?_text hp hrest]
  rfl

/-- A member is read back. -/
theorem readMember?_text {m : Member} (h : Writes m.value.toList d) (hrest : EndsNumeral rest) :
    readMember? (m.text.toList ++ rest) = some ((m.name, d), rest) := by
  have hname := readString?_escaped m.name.toList (':' :: (m.value.toList ++ rest))
  have hvalue := h rest hrest
  simp [Member.text, quote, quoteChars, readMember?, hname, hvalue]

end Members

/-! ## Objects -/

/-- Reads members with commas between them, up to the brace that closes the object. -/
def readMembers? (cs : List Char) : Option (List (String × Datum) × List Char) :=
  match h : readMember? cs with
  | some (m, ',' :: rest) =>
    have := length_lt_of_readMember h
    (readMembers? rest).map fun p => (m :: p.1, p.2)
  | some (m, '\x7d' :: rest) => some ([m], rest)
  | _ => none
termination_by cs.length
decreasing_by
  simp only [List.length_cons] at this
  omega

/-- Reads a text that is one object. -/
def readObject? : List Char → Option (List (String × Datum))
  | ['\x7b', '\x7d'] => some []
  | '\x7b' :: cs =>
    match readMembers? cs with
    | some (ms, []) => some ms
    | _ => none
  | _ => none

section Objects

/-- What follows a member tells whether there are more. -/
theorem readMembers?_eq (cs : List Char) :
    readMembers? cs =
      match readMember? cs with
      | some (m, ',' :: rest) => (readMembers? rest).map fun p => (m :: p.1, p.2)
      | some (m, '\x7d' :: rest) => some ([m], rest)
      | _ => none := by
  rw [readMembers?]
  split <;> simp_all

/-- Members are read back up to the closing brace. -/
theorem readMembers?_text (p : Member × Datum) (ps : List (Member × Datum))
    (h : ∀ q ∈ p :: ps, Writes q.1.value.toList q.2) :
    readMembers? ([','].intercalate ((p :: ps).map fun q => q.1.text.toList) ++ ['\x7d']) =
      some ((p :: ps).map fun q => (q.1.name, q.2), []) := by
  induction ps generalizing p with
  | nil =>
    have hread : readMember? (p.1.text.toList ++ ['\x7d']) = some ((p.1.name, p.2), ['\x7d']) :=
      readMember?_text (h p (List.mem_singleton_self p)) (endsNumeral_cons (by decide))
    rw [List.map_singleton, List.intercalate_singleton, readMembers?_eq, hread]
    rfl
  | cons q ps ih =>
    obtain ⟨hp, hps⟩ := List.forall_mem_cons.mp h
    have hread : ∀ rest, readMember? (p.1.text.toList ++ ',' :: rest) =
        some ((p.1.name, p.2), ',' :: rest) :=
      fun rest => readMember?_text hp (endsNumeral_cons (by decide))
    have hne : ((q :: ps).map fun q => q.1.text.toList) ≠ [] := List.cons_ne_nil _ _
    rw [List.map_cons, List.intercalate_cons_of_ne_nil hne, List.append_assoc, List.append_assoc,
      List.singleton_append, readMembers?_eq, hread]
    simp only [ih q hps]
    rfl

/-- **Objects** are read back, whatever their members. -/
theorem readObject?_object (ps : List (Member × Datum))
    (h : ∀ p ∈ ps, Writes p.1.value.toList p.2) :
    readObject? (object (ps.map Prod.fst)).toList = some (ps.map fun p => (p.1.name, p.2)) := by
  have htext : (object (ps.map Prod.fst)).toList =
      '\x7b' :: ([','].intercalate (ps.map fun p => p.1.text.toList) ++ ['\x7d']) := by
    have hmap : (ps.map Prod.fst).map (fun m => m.text.toList) = ps.map fun p => p.1.text.toList :=
      List.map_map
    simp [object, String.toList_intercalate, ← hmap]
    rfl
  rw [htext]
  cases ps with
  | nil => rfl
  | cons p ps =>
    have hread := readMembers?_text p ps h
    unfold readObject?
    split
    · next heq =>
      -- no member is read of a closing brace
      rw [(List.cons.inj heq).2, readMembers?_eq] at hread
      cases hread
    · next heq =>
      cases heq
      rw [hread]
    · next hbrace => exact absurd rfl (hbrace _)

end Objects

/-! ## Control characters -/

/-- The text holds no control character. -/
def IsPrintable (cs : List Char) : Prop := ∀ c ∈ cs, 0x20 ≤ c.toNat

theorem isPrintable_of_all {cs : List Char} (h : cs.all (0x20 ≤ ·.toNat) = true) :
    IsPrintable cs :=
  fun c hc => of_decide_eq_true (List.all_eq_true.mp h c hc)

theorem isPrintable_append {cs ds : List Char} (hcs : IsPrintable cs) (hds : IsPrintable ds) :
    IsPrintable (cs ++ ds) :=
  List.forall_mem_append.mpr ⟨hcs, hds⟩

/-- A text without control characters stays on its line. -/
theorem IsPrintable.not_mem {cs : List Char} (h : IsPrintable cs) : '\n' ∉ cs := fun hmem =>
  absurd (h _ hmem) (by decide)

/-- Escapes hold no control character. -/
theorem isPrintable_escapeChar (c : Char) : IsPrintable (escapeChar c) := by
  have hletters : ∀ p ∈ shortEscapes, 0x20 ≤ p.1.toNat := by decide
  have hdigits : ∀ p ∈ hexDigits, 0x20 ≤ p.1.toNat := by decide
  rcases escapeChar_cases c with ⟨l, hl, hc⟩ | ⟨hlt, hc⟩ | ⟨hle, -, -, hc⟩
  · have hletter : 0x20 ≤ l.toNat := hletters (l, c) hl
    rw [hc]
    simp [IsPrintable, hletter]
  · have hhigh := hdigits _ (hexChar_mem_hexDigits (by omega : c.toNat / 16 < 16))
    have hlow := hdigits _ (hexChar_mem_hexDigits (by omega : c.toNat % 16 < 16))
    rw [hc]
    simp [IsPrintable, hhigh, hlow]
  · rw [hc]
    simpa [IsPrintable] using hle

/-- Nor do quoted texts, whatever they quote. -/
theorem isPrintable_quote (s : String) : IsPrintable (quote s).toList := by
  have hquote : IsPrintable ['"'] := isPrintable_of_all (by decide)
  have htext : IsPrintable (s.toList.flatMap escapeChar) := by
    intro c hc
    obtain ⟨d, -, hd⟩ := List.mem_flatMap.mp hc
    exact isPrintable_escapeChar d c hd
  rw [quote, quoteChars, String.toList_ofList]
  exact isPrintable_append (isPrintable_append hquote htext) hquote

theorem isPrintable_intercalate {ls : List (List Char)} (h : ∀ cs ∈ ls, IsPrintable cs) :
    IsPrintable ([','].intercalate ls) := by
  have hcomma : IsPrintable [','] := isPrintable_of_all (by decide)
  induction ls with
  | nil => exact fun c hc => absurd hc List.not_mem_nil
  | cons cs ls ih =>
    obtain ⟨hcs, hls⟩ := List.forall_mem_cons.mp h
    by_cases hnil : ls = []
    · rw [hnil, List.intercalate_singleton]
      exact hcs
    · rw [List.intercalate_cons_of_ne_nil hnil]
      exact isPrintable_append (isPrintable_append hcs hcomma) (ih hls)

/-- An object holds none if the values of its members hold none. -/
theorem isPrintable_object {ms : List Member} (h : ∀ m ∈ ms, IsPrintable m.value.toList) :
    IsPrintable (object ms).toList := by
  have hbraces : IsPrintable "\x7b".toList ∧ IsPrintable "\x7d".toList :=
    ⟨isPrintable_of_all (by decide), isPrintable_of_all (by decide)⟩
  have hcolon : IsPrintable ":".toList := isPrintable_of_all (by decide)
  rw [object, String.toList_append, String.toList_append, String.toList_intercalate]
  refine isPrintable_append (isPrintable_append hbraces.1 (isPrintable_intercalate ?_)) hbraces.2
  intro cs hcs
  obtain ⟨t, ht, rfl⟩ := List.mem_map.mp hcs
  obtain ⟨m, hm, rfl⟩ := List.mem_map.mp ht
  rw [Member.text, String.toList_append, String.toList_append]
  exact isPrintable_append (isPrintable_append (isPrintable_quote m.name) hcolon) (h m hm)

end ScriptLiteral.Json
