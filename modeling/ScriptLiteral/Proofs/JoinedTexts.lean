import ScriptLiteral.Proofs.FaultyEscape

/-!
# Texts one after the other

What becomes of the value of a string literal when its text is continued. A text that splits keeps
its parts in front of any other text (`Splits.append`), with one exception: a backslash and a
carriage return at its end take a line feed behind them along. So the value of the whole is that of
the first text with that of the second behind it, and a fault in the second lies later by the bytes
of the first (`scan_append`).

A fault in the first text stays what it is if more text cannot mend it: an octal digit, or a
character in place of a hexadecimal digit (`Fault.IsSettled`). An escape that only breaks off where
the text ends may go on in the second one.

The main result, `textValue_append`, says all this of the literals themselves.
-/

namespace ScriptLiteral

/-! ## Parts in front of another text -/

section Parts

variable {a b rest source : List Char} {us : List UInt16} {ps qs : List Part} {p : Part}

/-- An element stays one when more text follows, unless it is a carriage return at the end and a
line feed comes next. -/
theorem Spells.append (h : Spells rest source us)
    (hb : source = ['\\', '\r'] → rest = [] → b.head? ≠ some '\n') :
    Spells (rest ++ b) source us := by
  refine h.of_head fun hsource hlf => ?_
  cases rest with
  | nil => exact absurd hlf (hb hsource rfl)
  | cons c rest => exact hlf

/-- The text may stand in front of the other one: it does not end with a backslash and a carriage
return where the other begins with a line feed. -/
def Joins (ps : List Part) (b : List Char) : Prop :=
  ∀ p ∈ ps.getLast?, p.source = ['\\', '\r'] → b.head? ≠ some '\n'

theorem Joins.tail (h : Joins (p :: ps) b) : Joins ps b := by
  intro r hr
  refine h r ?_
  cases ps with
  | nil => cases hr
  | cons q ps => exact hr

/-- The first of several parts stays one when more text follows. -/
theorem Spells.append_of_joins (hp : Spells rest p.source p.units) (hps : Splits rest ps)
    (h : Joins (p :: ps) b) : Spells (rest ++ b) p.source p.units := by
  refine hp.append fun hsource hrest => ?_
  -- nothing comes after the part, so it is the last one
  subst hrest
  obtain rfl := hps.unique .nil
  exact h p rfl hsource

/-- **Parts one after the other.** Two texts that split, one after the other, split into the parts
of both. -/
theorem Splits.append (ha : Splits a ps) (hb : Splits b qs) (h : Joins ps b) :
    Splits (a ++ b) (ps ++ qs) := by
  induction ha with
  | nil => exact hb
  | @cons p rest ps hp hps ih =>
    rw [List.append_assoc, List.cons_append]
    exact .cons (hp.append_of_joins hps h) (ih h.tail)

/-- The text without its last part splits into the parts before it. -/
theorem Splits.exists_of_concat (h : Splits a (ps ++ [p])) :
    ∃ before, a = before ++ p.source ∧ Splits before ps ∧ Spells [] p.source p.units := by
  induction ps generalizing a with
  | nil =>
    cases h with
    | @cons _ rest _ hp hps =>
      cases hps
      exact ⟨[], by simp, .nil, hp⟩
  | cons r ps ih =>
    cases h with
    | @cons _ rest _ hr hps =>
      obtain ⟨before, rfl, hbefore, hp⟩ := ih hps
      exact ⟨r.source ++ before, by simp, .cons hr.of_append hbefore, hp⟩

/-- The last element of the text is a backslash and a carriage return. -/
def EndsInReturn (cs : List Char) : Prop :=
  ∃ ps p, Splits cs (ps ++ [p]) ∧ p.source = ['\\', '\r']

theorem Joins.of_not_endsInReturn (ha : Splits a ps)
    (h : ¬ (EndsInReturn a ∧ b.head? = some '\n')) : Joins ps b := by
  intro p hp hsource hlf
  obtain ⟨before, rfl⟩ := List.getLast?_eq_some_iff.mp hp
  exact h ⟨⟨before, p, ha, hsource⟩, hlf⟩

/-- With a line feed behind it, a carriage return at the end becomes a longer line break, which
contributes nothing either. -/
theorem EndsInReturn.exists_splits (h : EndsInReturn a) :
    ∃ ps qs, Splits a ps ∧ Splits (a ++ ['\n']) qs ∧
      qs.flatMap Part.units = ps.flatMap Part.units ∧ ∀ b, Joins qs b := by
  obtain ⟨ps, p, hsplits, hsource⟩ := h
  obtain ⟨before, rfl, hbefore, hp⟩ := hsplits.exists_of_concat
  obtain ⟨source, us⟩ := p
  subst hsource
  obtain rfl : us = [] := by
    cases hp with
    | cr => rfl
    | lineBreak hc => rfl
    | control hc => exact absurd hc (by simp [controlUnits])
    | identity hc => exact absurd (by decide) hc
  have hbreak : Splits ['\\', '\r', '\n'] [⟨['\\', '\r', '\n'], []⟩] :=
    Splits.cons (p := ⟨['\\', '\r', '\n'], []⟩) .crlf .nil
  refine ⟨_, ps ++ [⟨['\\', '\r', '\n'], []⟩], hsplits, ?_, by simp, ?_⟩
  · rw [List.append_assoc]
    refine hbefore.append hbreak fun q _ _ hlf => ?_
    exact absurd hlf (by decide)
  · intro b q hq hsource
    rw [List.getLast?_concat] at hq
    cases hq
    cases hsource

end Parts

/-! ## The scan of a longer text -/

section Scan

variable {a b : List Char} {ps : List Part}

/-- The fault as it is when so many bytes more stand before it. -/
def Fault.later (n : Nat) : Fault → Fault
  | octalEscape digit offset => .octalEscape digit (offset + n)
  | brokenEscape source offset => .brokenEscape source (offset + n)
  | unquoted text => .unquoted text
  | unsupported kind => .unsupported kind

/-- The value of a text, or its fault, when the string `u`, written in `n` bytes, stands before
it. -/
def behind (u : UnitString) (n : Nat) : Except Fault UnitString → Except Fault UnitString
  | .ok v => .ok ⟨u.units ++ v.units⟩
  | .error f => .error (f.later n)

theorem EscapeFault.at_add (f : EscapeFault) (offset n : Nat) :
    f.at (offset + n) = (f.at offset).later n := by
  cases f <;> rfl

/-- Where a text starts makes no difference but to the place of its fault. -/
theorem scan_add (offset n : Nat) (cs : List Char) :
    scan (offset + n) cs = (scan offset cs).mapError (Fault.later n) := by
  fun_induction scan offset cs with
  | case1 offset => rw [scan_nil]; rfl
  | case2 offset rest e after he ih =>
    rw [scan_escape he, Nat.add_right_comm, ih]
    cases scan (offset + byteLength ('\\' :: e.source)) after <;> rfl
  | case3 offset rest f hf => rw [scan_fault hf, EscapeFault.at_add]; rfl
  | case4 offset c rest hc ih =>
    rw [scan_raw hc, Nat.add_right_comm, ih]
    cases scan (offset + c.utf8Size) rest <;> rfl

/-- The units of elements are those of their parts. -/
theorem units_unitsOf (es : List Element) :
    (unitsOf es).units = (es.map Element.part).flatMap Part.units := by
  rw [List.flatMap_map]
  rfl

/-- The scan of two texts finds the elements of the first and goes on with the second. -/
theorem exists_scan_append (ha : Splits a ps) (h : Joins ps b) (offset : Nat) :
    ∃ es, es.map Element.part = ps ∧
      scan offset (a ++ b) = (scan (offset + byteLength a) b).map (es ++ ·) := by
  induction ha generalizing offset with
  | nil =>
    refine ⟨[], rfl, ?_⟩
    change scan offset b = (scan offset b).map id
    cases scan offset b <;> rfl
  | @cons p rest ps hp hps ih =>
    obtain ⟨e, rfl, he⟩ := exists_scan_part (hp.append_of_joins hps h) offset
    obtain ⟨es, rfl, hes⟩ := ih h.tail (offset + byteLength e.part.source)
    refine ⟨e :: es, rfl, ?_⟩
    rw [List.append_assoc, he, hes, byteLength_append, Nat.add_assoc]
    cases scan (offset + (byteLength e.part.source + byteLength rest)) b <;> rfl

/-- **The scan of two texts.** The value of the whole is that of the first text with that of the
second behind it. -/
theorem scan_append (ha : Splits a ps) (h : Joins ps b) (offset : Nat) :
    (scan offset (a ++ b)).map unitsOf =
      behind ⟨ps.flatMap Part.units⟩ (byteLength a) ((scan offset b).map unitsOf) := by
  obtain ⟨es, rfl, hes⟩ := exists_scan_append ha h offset
  rw [hes, scan_add, ← units_unitsOf]
  cases scan offset b with
  | error f => rfl
  | ok fs =>
    refine congrArg Except.ok (UnitString.ext ?_)
    exact List.flatMap_append

end Scan

/-! ## Faults that no text mends -/

section Settled

variable {cs b taken : List Char} {f : EscapeFault} {n : Nat}

/-- More text does not mend the fault: it is due to a character that is there, an octal digit or one
where a hexadecimal digit had to be. -/
inductive Fault.IsSettled : Fault → Prop
  /-- a digit that would begin an octal escape -/
  | octal {digit : Char} {offset : Nat} : IsSettled (.octalEscape digit offset)
  /-- after the letter of the escape, a character that is no hexadecimal digit ends what was read -/
  | stray {letter c : Char} {digits : List Char} {offset : Nat} (hc : c ∉ hexChars) :
      IsSettled (.brokenEscape (String.ofList ('\\' :: letter :: (digits ++ [c]))) offset)

theorem Fault.IsSettled.exists_of_broken {source : List Char} {offset : Nat}
    (h : ((EscapeFault.broken source).at offset).IsSettled) :
    ∃ letter digits c, source = '\\' :: letter :: (digits ++ [c]) ∧ c ∉ hexChars := by
  generalize hg : (EscapeFault.broken source).at offset = g at h
  cases h with
  | octal => cases hg
  | stray hc => exact ⟨_, _, _, String.ofList_inj.mp (Fault.brokenEscape.inj hg).1, hc⟩

/-- A search for digits that a character has ended is ended by it in a longer text too. -/
theorem Breaks.append (h : Breaks n cs taken) (htaken : ∃ c ∈ taken, c ∉ hexChars)
    (b : List Char) : Breaks n (cs ++ b) taken := by
  induction h with
  | ending =>
    obtain ⟨c, hc, -⟩ := htaken
    cases hc
  | stray hc => exact .stray hc
  | digit hc h ih =>
    refine .digit hc (ih ?_)
    obtain ⟨d, hd, hhex⟩ := htaken
    obtain rfl | hd := List.mem_cons.mp hd
    · exact absurd hc hhex
    · exact ⟨d, hd, hhex⟩

/-- An escape with a settled fault has the same fault in a longer text. -/
theorem Refuses.append (h : Refuses cs f) {offset : Nat} (hf : (f.at offset).IsSettled)
    (b : List Char) : Refuses (cs ++ b) f := by
  cases h with
  | dangling =>
    obtain ⟨letter, digits, c, hsource, -⟩ := hf.exists_of_broken
    cases hsource
  | octal hc => exact .octal hc
  | byte h =>
    obtain ⟨letter, digits, c, hsource, hc⟩ := hf.exists_of_broken
    obtain ⟨rfl, rfl⟩ : 'x' = letter ∧ _ = digits ++ [c] := by simpa using hsource
    exact .byte (h.append ⟨c, by simp, hc⟩ b)
  | unit h =>
    obtain ⟨letter, digits, c, hsource, hc⟩ := hf.exists_of_broken
    obtain ⟨rfl, rfl⟩ : 'u' = letter ∧ _ = digits ++ [c] := by simpa using hsource
    exact .unit (h.append ⟨c, by simp, hc⟩ b)

/-- A search for digits ends at the first character, or that is a digit and the search goes on. -/
theorem HexDigit.read_of_breaks (h : Breaks (n + 1) cs taken) (written : List Char) :
    read written cs = .error (.broken (written ++ taken)) ∨
      ∃ d rest next, read written cs = .ok (d, rest) ∧ taken = d.char :: next ∧
        Breaks n rest next := by
  cases h with
  | ending => exact .inl (by rw [List.append_nil]; rfl)
  | @stray _ c rest hc =>
    refine .inl ?_
    cases hd : ofChar? c with
    | none => simp only [read, hd]
    | some d =>
      rw [← char_of_ofChar? hd] at hc
      exact absurd d.mem_hexChars hc
  | @digit _ c rest next hc h =>
    obtain ⟨⟨c, v⟩, hmem, rfl⟩ := List.mem_map.mp hc
    obtain ⟨d, rfl, -⟩ := exists_of_mem hmem
    exact .inr ⟨d, rest, next, d.read_char written, rfl, h⟩

theorem readByte_of_breaks (h : Breaks 2 cs taken) :
    readByte cs = .error (.broken ('\\' :: 'x' :: taken)) := by
  simp only [readByte, bind, Except.bind]
  obtain ha | ⟨a, cs₁, taken₁, ha, rfl, h₁⟩ := HexDigit.read_of_breaks h ['\\', 'x']
  · simp only [ha, List.cons_append, List.nil_append]
  obtain hb | ⟨b, cs₂, taken₂, -, -, h₂⟩ := HexDigit.read_of_breaks h₁ ['\\', 'x', a.char]
  · simp only [ha, hb, List.cons_append, List.nil_append]
  · cases h₂

theorem readUnit_of_breaks (h : Breaks 4 cs taken) :
    readUnit cs = .error (.broken ('\\' :: 'u' :: taken)) := by
  simp only [readUnit, bind, Except.bind]
  obtain ha | ⟨a, cs₁, taken₁, ha, rfl, h₁⟩ := HexDigit.read_of_breaks h ['\\', 'u']
  · simp only [ha, List.cons_append, List.nil_append]
  obtain hb | ⟨b, cs₂, taken₂, hb, rfl, h₂⟩ := HexDigit.read_of_breaks h₁ ['\\', 'u', a.char]
  · simp only [ha, hb, List.cons_append, List.nil_append]
  obtain hc | ⟨c, cs₃, taken₃, hc, rfl, h₃⟩ :=
    HexDigit.read_of_breaks h₂ ['\\', 'u', a.char, b.char]
  · simp only [ha, hb, hc, List.cons_append, List.nil_append]
  obtain hd | ⟨d, cs₄, taken₄, -, -, h₄⟩ :=
    HexDigit.read_of_breaks h₃ ['\\', 'u', a.char, b.char, c.char]
  · simp only [ha, hb, hc, hd, List.cons_append, List.nil_append]
  · cases h₄

/-- Whatever is wrong in one of the listed ways cannot be read, and that is the fault. -/
theorem readEscape_of_refuses (h : Refuses cs f) : readEscape cs = .error f := by
  cases h with
  | dangling => rfl
  | @octal c rest hc =>
    have hall : octalDigits.all (fun c => c ∉ lineBreaks ∧ c ≠ 'x' ∧ c ≠ 'u') = true := by decide
    obtain ⟨hbreak, hx, hu⟩ := of_decide_eq_true (List.all_eq_true.mp hall c hc)
    rw [readEscape_cons hbreak, if_neg hx, if_neg hu, if_pos (isOctalDigit_iff.mpr hc)]
  | byte h =>
    rw [readEscape_cons (by decide), if_pos rfl]
    exact readByte_of_breaks h
  | unit h =>
    rw [readEscape_cons (by decide), if_neg (by decide), if_pos rfl]
    exact readUnit_of_breaks h

/-- **A settled fault stays.** Where the scan of a text fails for good, the scan of every longer text
does. -/
theorem scan_append_of_settled {a : List Char} {offset : Nat} {g : Fault}
    (ha : scan offset a = .error g) (hg : g.IsSettled) (b : List Char) :
    scan offset (a ++ b) = .error g := by
  obtain ⟨before, after, ps, ef, rfl, hps, hef, rfl⟩ := scan_error ha
  -- a backslash comes after the parts before the fault, so they stay as they are
  have hjoins : Joins ps ('\\' :: (after ++ b)) := by
    intro p _ _ hlf
    cases hlf
  obtain ⟨es, -, hes⟩ := exists_scan_append hps hjoins offset
  rw [List.append_assoc, List.cons_append, hes,
    scan_fault (readEscape_of_refuses (hef.append hg b))]
  rfl

end Settled

/-! ## Literals -/

/-- The value or the fault of the literal with the given text between two quotes. -/
def textValue (q : Char) (t : String) : Except Fault UnitString :=
  (stringValue (q.toString ++ t ++ q.toString)).value

section Literal

variable {q : Char}

theorem textValue_eq (hq : q = '\'' ∨ q = '"') (t : String) :
    textValue q t = (scan 1 t.toList).map unitsOf :=
  value_stringValue ⟨hq, by simp⟩

theorem byteLength_toList (t : String) : byteLength t.toList = t.utf8ByteSize := by
  rw [byteLength_eq_utf8ByteSize, String.ofList_toList]

/-- A literal with a value has a text that splits, and its parts contribute the value. -/
theorem exists_splits_of_textValue (hq : q = '\'' ∨ q = '"') {t : String} {u : UnitString}
    (h : textValue q t = .ok u) :
    ∃ ps, Splits t.toList ps ∧ u = ⟨ps.flatMap Part.units⟩ := by
  rw [textValue_eq hq] at h
  obtain ⟨es, hes, rfl⟩ := ok_of_map h
  exact ⟨_, splits_of_scan hes, UnitString.ext (units_unitsOf es)⟩

/-- **Texts one after the other.** Where the text `a` has a value, the value of `a` and `b` between
quotes is that of `a` with that of `b` behind it, and a fault in `b` lies later by the bytes of `a`.
In one case the line feed at the front of `b` belongs to `a` and is left out with its byte: where the
last element of `a` is a backslash and a carriage return. Where `a` has a fault that more text does
not mend, `a` and `b` have the same fault. -/
theorem textValue_append (hq : q = '\'' ∨ q = '"') (a b : String) :
    (∀ u, textValue q a = .ok u →
      (¬ (EndsInReturn a.toList ∧ b.toList.head? = some '\n') →
        textValue q (a ++ b) = behind u a.utf8ByteSize (textValue q b)) ∧
      (EndsInReturn a.toList → ∀ b', b = "\n" ++ b' →
        textValue q (a ++ b) = behind u (a.utf8ByteSize + 1) (textValue q b'))) ∧
    ∀ f, textValue q a = .error f → f.IsSettled → textValue q (a ++ b) = .error f := by
  simp only [textValue_eq hq, String.toList_append, ← byteLength_toList]
  refine ⟨fun u hu => ?_, fun f hf hsettled => ?_⟩
  · rw [← textValue_eq hq] at hu
    obtain ⟨ps, hps, rfl⟩ := exists_splits_of_textValue hq hu
    refine ⟨fun h => scan_append hps (.of_not_endsInReturn hps h) 1, ?_⟩
    rintro hend b' rfl
    obtain ⟨ps', qs, hps', hqs, hunits, hjoins⟩ := hend.exists_splits
    obtain rfl := hps.unique hps'
    have hnewline : byteLength (a.toList ++ ['\n']) = byteLength a.toList + 1 :=
      byteLength_append a.toList ['\n']
    rw [String.toList_append, ← List.append_assoc, ← hunits, ← hnewline]
    exact scan_append hqs (hjoins _) 1
  · rw [scan_append_of_settled (error_of_map hf) hsettled]
    rfl

/-- A broken line, continued by a line feed and by another character, and an escape that nothing
completes. -/
theorem textValue_append_broken_line :
    textValue '"' "é\\\r" = .ok ⟨[0xE9]⟩ ∧ EndsInReturn "é\\\r".toList ∧
      textValue '"' ("é\\\r" ++ "\nx\\7") = .error (.octalEscape '7' 7) ∧
      textValue '"' ("é\\\r" ++ "x\\7") = .error (.octalEscape '7' 6) ∧
      textValue '"' ("\\u0é" ++ "041") = .error (.brokenEscape "\\u0é" 1) := by
  have hvalue : textValue '"' "é\\\r" = .ok ⟨[0xE9]⟩ := by decide +kernel
  have hrest : textValue '"' "x\\7" = .error (.octalEscape '7' 2) := by decide +kernel
  have hfault : textValue '"' "\\u0é" = .error (.brokenEscape "\\u0é" 1) := by decide +kernel
  have hend : EndsInReturn "é\\\r".toList :=
    ⟨[⟨['é'], [0xE9]⟩], ⟨['\\', '\r'], []⟩,
      Splits.cons (p := ⟨['é'], [0xE9]⟩) (.raw (by decide) (.unit rfl))
        (Splits.cons (p := ⟨['\\', '\r'], []⟩) (.cr (by decide)) .nil), rfl⟩
  have hstray : Fault.IsSettled (.brokenEscape "\\u0é" 1) :=
    @Fault.IsSettled.stray 'u' 'é' ['0'] 1 (by decide)
  refine ⟨hvalue, hend, ?_, ?_, ?_⟩
  · have happend := textValue_append (.inr rfl) "é\\\r" "\nx\\7"
    rw [(happend.1 _ hvalue).2 hend "x\\7" rfl, hrest]
    decide
  · rw [((textValue_append (.inr rfl) _ _).1 _ hvalue).1 (fun h => absurd h.2 (by decide)), hrest]
    decide
  · exact (textValue_append (.inr rfl) _ _).2 _ hfault hstray

end Literal

end ScriptLiteral
