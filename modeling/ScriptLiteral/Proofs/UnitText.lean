import ScriptLiteral.Proofs.Surrogates

/-!
# Strings of units and their texts

`Spelled` says which units spell a text, a character after the other by what `Encodes` allows for
it. A string of units has a text just if its units spell one, and then it has that one and no other
(`UnitString.charsOf?_eq_some_iff`): so building the string of a text and asking a string for its
text undo each other, and comparing a string with a text is the same as asking.

It does not matter in which pieces the units came. `Push` is one step of building, and what a row of
steps builds is told by the units of all of them together (`UnitString.units_pushAll`), be a pair of
surrogates pushed as one character or half by half.
-/

namespace ScriptLiteral

/-! ## Spelling -/

/-- The units spell the characters, one after the other. -/
inductive Spelled : List Char → List UInt16 → Prop
  /-- no character takes no unit -/
  | nil : Spelled [] []
  /-- a character stands in front with units that stand for it -/
  | cons {c : Char} {cs : List Char} {us vs : List UInt16} (hc : Encodes c us)
      (hcs : Spelled cs vs) : Spelled (c :: cs) (us ++ vs)

/-- Characters are spelled by their units one after the other, and in no other way. -/
theorem spelled_iff {cs : List Char} {us : List UInt16} :
    Spelled cs us ↔ us = cs.flatMap charUnits := by
  refine ⟨fun h => ?_, ?_⟩
  · induction h with
    | nil => rfl
    | cons hc hcs ih => rw [List.flatMap_cons, ← encodes_iff.mp hc, ih]
  · rintro rfl
    induction cs with
    | nil => exact .nil
    | cons c cs ih => exact .cons (encodes_charUnits c) ih

namespace UnitString

/-! ## Asking for the text -/

section Text

variable {u v : UInt16} {us : List UInt16} {cs : List Char} {s : UnitString} {t : String}

theorem charsOf?_cons_unit (hh : isHighSurrogate u = false) (hl : isLowSurrogate u = false)
    (us : List UInt16) : charsOf? (u :: us) = (charsOf? us).map (unitChar u :: ·) := by
  cases us <;> simp [charsOf?, hh, hl]

theorem charsOf?_cons_pair (hu : isHighSurrogate u = true) (hv : isLowSurrogate v = true)
    (us : List UInt16) : charsOf? (u :: v :: us) = (charsOf? us).map (pairChar u v :: ·) := by
  simp [charsOf?, hu, hv]

/-- The units of characters are read as these characters. -/
theorem charsOf?_flatMap (cs : List Char) : charsOf? (cs.flatMap charUnits) = some cs := by
  induction cs with
  | nil => rfl
  | cons c cs ih =>
    rw [List.flatMap_cons]
    rcases charUnits_cases c with ⟨u, hc, hh, hl, rfl⟩ | ⟨u, v, hc, hu, hv, rfl⟩
    · rw [hc, List.singleton_append, charsOf?_cons_unit hh hl, ih, Option.map_some]
    · rw [hc, List.cons_append, List.singleton_append, charsOf?_cons_pair hu hv, ih,
        Option.map_some]

/-- Characters that are read have the units they were read from. -/
theorem flatMap_of_charsOf? (h : charsOf? us = some cs) : cs.flatMap charUnits = us := by
  induction us using charsOf?.induct generalizing cs with
  | case1 =>
    cases h
    rfl
  | case2 u hu => simp [charsOf?, hu] at h
  | case3 u hu =>
    rw [Bool.or_eq_true, not_or, Bool.not_eq_true, Bool.not_eq_true] at hu
    rw [charsOf?_cons_unit hu.1 hu.2] at h
    cases h
    rw [List.flatMap_cons, charUnits_unitChar hu.1 hu.2]
    rfl
  | case4 u v us hu hv ih =>
    rw [charsOf?_cons_pair hu hv] at h
    obtain ⟨rest, hrest, rfl⟩ := Option.map_eq_some_iff.mp h
    rw [List.flatMap_cons, charUnits_pairChar hu hv, ih hrest]
    rfl
  | case5 u v us hu hv => simp [charsOf?, hu, hv] at h
  | case6 u v us hu hl => simp [charsOf?, hu, hl] at h
  | case7 u v us hu hl ih =>
    rw [Bool.not_eq_true] at hu hl
    rw [charsOf?_cons_unit hu hl] at h
    obtain ⟨rest, hrest, rfl⟩ := Option.map_eq_some_iff.mp h
    rw [List.flatMap_cons, charUnits_unitChar hu hl, ih hrest]
    rfl

/-- **Reading is the inverse of spelling.** -/
theorem charsOf?_eq_some_iff : charsOf? us = some cs ↔ Spelled cs us := by
  rw [spelled_iff]
  refine ⟨fun h => (flatMap_of_charsOf? h).symm, ?_⟩
  rintro rfl
  exact charsOf?_flatMap cs

/-- A string has the text that its units spell. -/
theorem text?_eq_some_iff : s.text? = some t ↔ Spelled t.toList s.units := by
  rw [text?, Option.map_eq_some_iff, ← charsOf?_eq_some_iff]
  refine ⟨?_, fun h => ⟨_, h, String.ofList_toList⟩⟩
  rintro ⟨cs, hcs, rfl⟩
  rw [hcs, String.toList_ofList]

/-- The units of a text spell it, and no others do. -/
theorem eq_ofText_iff : s = ofText t ↔ Spelled t.toList s.units := by
  rw [spelled_iff, UnitString.ext_iff]
  rfl

/-- A string has a text just if its surrogates are paired. -/
theorem isSome_text?_iff : s.text?.isSome = true ↔ IsPaired s.units := by
  rw [Option.isSome_iff_exists]
  refine ⟨?_, fun h => ⟨s.lossy, ?_⟩⟩
  · rintro ⟨t, ht⟩
    rw [spelled_iff.mp (text?_eq_some_iff.mp ht)]
    exact isPaired_flatMap _
  · rw [text?_eq_some_iff, ← eq_ofText_iff]
    exact (ofText_lossy_eq_iff.mpr h).symm

/-- To compare a string with a text is to ask for its text. -/
theorem matchesText_iff : s.matchesText t = true ↔ s.text? = some t := by
  rw [matchesText, beq_iff_eq, text?_eq_some_iff, spelled_iff]

end Text

/-! ## Building -/

/-- What is put at the end of a string in one step. -/
inductive Push
  /-- a single unit -/
  | unit (u : UInt16)
  /-- a character -/
  | char (c : Char)
  /-- all characters of a text -/
  | text (t : String)

/-- The units that a step adds. -/
def Push.units : Push → List UInt16
  | unit u => [u]
  | char c => charUnits c
  | text t => (ofText t).units

/-- The string after one step. -/
def pushOne (s : UnitString) : Push → UnitString
  | .unit u => s.push u
  | .char c => s.pushChar c
  | .text t => s.append t

/-- The string after several steps. -/
def pushAll (s : UnitString) (ps : List Push) : UnitString := ps.foldl pushOne s

section Building

variable {s : UnitString} {ps : List Push} {t : String}

@[simp] theorem units_pushOne (p : Push) : (s.pushOne p).units = s.units ++ p.units := by
  cases p <;> rfl

/-- **What is built** has the units of all steps in order. -/
theorem units_pushAll (s : UnitString) (ps : List Push) :
    (s.pushAll ps).units = s.units ++ ps.flatMap Push.units := by
  induction ps generalizing s with
  | nil => simp [pushAll]
  | cons p ps ih =>
    rw [pushAll, List.foldl_cons, ← pushAll, ih, units_pushOne, List.flatMap_cons,
      List.append_assoc]

/-- From an empty string, the string of a text is built by the steps whose units spell it. -/
theorem pushAll_eq_ofText_iff (hs : s.units = []) :
    s.pushAll ps = ofText t ↔ Spelled t.toList (ps.flatMap Push.units) := by
  rw [eq_ofText_iff, units_pushAll, hs, List.nil_append]

end Building

/-- **Texts are exact.** Every text is had back from its string, and its string is built, with or
without room set aside, by just those steps whose units together spell the text. A string has a text
just if every high surrogate has a low one right after it and every low one a high one right before
it; the string of that text is the one that was asked, and it is the one text that the string
compares equal with. -/
theorem text_exact :
    (∀ t : String, (ofText t).text? = some t) ∧
    (∀ (room : Nat) (ps : List Push) (t : String),
      (empty.pushAll ps = ofText t ↔ Spelled t.toList (ps.flatMap Push.units)) ∧
      ((withCapacity room).pushAll ps = ofText t ↔ Spelled t.toList (ps.flatMap Push.units))) ∧
    ∀ s : UnitString,
      (s.text?.isSome = true ↔ IsPaired s.units) ∧
      (∀ t, s.text? = some t → ofText t = s) ∧
      ∀ t, s.matchesText t = true ↔ s.text? = some t := by
  refine ⟨fun t => text?_eq_some_iff.mpr (eq_ofText_iff.mp rfl), fun room ps t => ?_, fun s => ?_⟩
  · exact ⟨pushAll_eq_ofText_iff units_empty, pushAll_eq_ofText_iff (units_withCapacity room)⟩
  · refine ⟨isSome_text?_iff, fun t ht => ?_, fun t => matchesText_iff⟩
    exact (eq_ofText_iff.mpr (text?_eq_some_iff.mp ht)).symm

/-- A face pushed half by half after a letter, and the same without its second half. -/
example :
    (empty.pushAll [.char 'a', .unit 0xD83D, .unit 0xDE00]).text? = some "a😀" ∧
      (empty.pushAll [.text "a", .unit 0xD83D]).text? = none := by
  decide

end UnitString

end ScriptLiteral
