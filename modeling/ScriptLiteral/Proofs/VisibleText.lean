import ScriptLiteral.Text.Split
import ScriptLiteral.Text.Visible
import ScriptLiteral.Proofs.Significand
import ScriptLiteral.Proofs.UnitText

/-!
# Text that developers see

What a developer sees of a string tells which string it is. There are two cases, and two layouts of
each.

A string with a text is shown by that text, each character by itself or by one of its escapes, as
`Shows` lists them. Where a character ends and the next one begins can be told from the front, and
no two characters are shown alike (`Shows.unique`). Which characters count as invisible, unassigned
or combining has no part in this, so the tables of these properties may change.

A string without a text is shown by the list of its units. In both layouts the units are the runs of
digits in the list (`TellsUnits`), whatever stands between them. As a list begins with a bracket and
a text with a quote, neither is taken for the other.
-/

namespace ScriptLiteral

/-! ## Visible characters -/

/-- The letters of the short escapes, with the characters they stand for. -/
def visibleEscapes : List (Char × Char) :=
  [('"', '"'), ('\\', '\\'), ('t', '\t'), ('r', '\r'), ('n', '\n'), ('0', '\x00')]

/-- The ways to show a character. -/
inductive Shows (c : Char) : List Char → Prop
  /-- a backslash and the letter of a short escape -/
  | letter {l : Char} (h : (l, c) ∈ visibleEscapes) : Shows c ['\\', l]
  /-- its number, in hexadecimal digits between braces -/
  | number {ds : List Char} (h : Denotes 16 ds c.toNat) :
      Shows c ('\\' :: 'u' :: '\x7b' :: (ds ++ ['\x7d']))
  /-- the character itself, unless it has a meaning of its own -/
  | raw (hquote : c ≠ '"') (hescape : c ≠ '\\') : Shows c [c]

/-- The hexadecimal digits that are written for a number denote it. -/
theorem denotes_toDigits (n : ℕ) : Denotes 16 (Nat.toDigits 16 n) n := by
  have hall : ∀ v < 16, (Nat.digitChar v, v) ∈ hexDigits := by decide
  induction n using Nat.strong_induction_on with
  | h n ih =>
    rw [Nat.toDigits_eq_if (by decide)]
    split
    · next hlt =>
      have hone := Denotes.nil.concat (hall n hlt) hlt
      rwa [zero_mul, zero_add] at hone
    · have hmod : n % 16 < 16 := Nat.mod_lt n (by decide)
      have hconcat := (ih (n / 16) (by omega)).concat (hall _ hmod) hmod
      rwa [Nat.div_add_mod'] at hconcat

theorem shows_visibleChar (c : Char) : Shows c (visibleChar c) := by
  have hescapes : ∀ p ∈ visibleEscapes, visibleChar p.2 = ['\\', p.1] := by decide
  by_cases hc : ∃ p ∈ visibleEscapes, p.2 = c
  · obtain ⟨p, hp, rfl⟩ := hc
    rw [hescapes p hp]
    exact .letter hp
  · -- no short escape: then it is no matter which property makes the character invisible
    have hne : ∀ d, (∃ p ∈ visibleEscapes, p.2 = d) → c ≠ d := fun d hd h => hc (h ▸ hd)
    have hquote := hne '"' (by decide)
    have hescape := hne '\\' (by decide)
    rw [visibleChar, if_neg hquote, if_neg hescape, if_neg (hne '\t' (by decide)),
      if_neg (hne '\r' (by decide)), if_neg (hne '\n' (by decide)),
      if_neg (hne '\x00' (by decide))]
    split
    · exact .raw hquote hescape
    · split
      · exact .number (denotes_toDigits c.toNat)
      · exact .raw hquote hescape

/-- **Characters are told apart**, and where each ends, in whichever way they are shown. -/
theorem Shows.unique {c d : Char} {cs ds s t : List Char} (hc : Shows c cs) (hd : Shows d ds)
    (h : cs ++ s = ds ++ t) : c = d ∧ s = t := by
  have htable : ∀ p ∈ visibleEscapes, ∀ q ∈ visibleEscapes, p.1 = q.1 → p.2 = q.2 := by decide
  have hu : ∀ p ∈ visibleEscapes, p.1 ≠ 'u' := by decide
  cases hc with
  | letter hl =>
    cases hd with
    | letter hl' =>
      cases h
      exact ⟨htable _ hl _ hl' rfl, rfl⟩
    | number =>
      cases h
      exact absurd rfl (hu _ hl)
    | raw hquote hescape =>
      cases h
      exact absurd rfl hescape
  | number hn =>
    cases hd with
    | letter hl' =>
      cases h
      exact absurd rfl (hu _ hl')
    | number hn' =>
      -- both numbers end at the first brace
      have hbrace : digit? 16 '\x7d' = none := by decide
      simp only [List.cons_append, List.append_assoc, List.nil_append, List.cons.injEq, true_and]
        at h
      have hsplit := congrArg (splitAtFirst '\x7d') h
      rw [splitAtFirst_append (hn.not_mem hbrace), splitAtFirst_append (hn'.not_mem hbrace)]
        at hsplit
      cases hsplit
      exact ⟨Char.toNat_inj.mp (hn.unique hn'), rfl⟩
    | raw hquote hescape =>
      cases h
      exact absurd rfl hescape
  | raw hquote hescape =>
    cases hd with
    | letter | number =>
      cases h
      exact absurd rfl hescape
    | raw =>
      cases h
      exact ⟨rfl, rfl⟩

theorem flatMap_visibleChar_inj {cs ds : List Char} :
    cs.flatMap visibleChar = ds.flatMap visibleChar ↔ cs = ds := by
  have hne : ∀ c, visibleChar c ≠ [] := by
    intro c h
    have hc := shows_visibleChar c
    rw [h] at hc
    cases hc
  refine ⟨fun h => ?_, fun h => by rw [h]⟩
  induction cs generalizing ds with
  | nil =>
    cases ds with
    | nil => rfl
    | cons d ds => exact absurd (List.append_eq_nil_iff.mp h.symm).1 (hne d)
  | cons c cs ih =>
    cases ds with
    | nil => exact absurd (List.append_eq_nil_iff.mp h).1 (hne c)
    | cons d ds =>
      obtain ⟨rfl, hrest⟩ := (shows_visibleChar c).unique (shows_visibleChar d) h
      rw [ih hrest]

/-- **Texts are told apart** by what is shown of them. -/
theorem visible_inj {s t : String} : visible s = visible t ↔ s = t := by
  rw [visible, visible, String.ofList_inj, List.append_left_inj, List.cons.injEq,
    flatMap_visibleChar_inj, String.toList_inj]
  exact and_iff_right rfl

/-! ## Runs of digits -/

/-- The runs of digits in a text, in order. -/
def digitRuns (cs : List Char) : List (List Char) :=
  (cs.splitOnP fun c => (digit? 10 c).isNone).filter (· ≠ [])

section Runs

variable {c : Char} {front : List Char} {ds : List (Fin 10)}

theorem digitRuns_cons (hc : digit? 10 c = none) (cs : List Char) :
    digitRuns (c :: cs) = digitRuns cs := by
  rw [digitRuns, List.splitOnP_cons_eq_if_modifyHead, hc]
  rfl

/-- What is no digit stands between the runs. -/
theorem digitRuns_append (h : front.all (fun c => (digit? 10 c).isNone) = true)
    (rest : List Char) : digitRuns (front ++ rest) = digitRuns rest := by
  induction front with
  | nil => rfl
  | cons c front ih =>
    rw [List.all_cons, Bool.and_eq_true, Option.isNone_iff_eq_none] at h
    rw [List.cons_append, digitRuns_cons h.1, ih h.2]

/-- Digits up to a character that is none are a run. -/
theorem digitRuns_digits (hne : ds ≠ []) (hc : digit? 10 c = none) (cs : List Char) :
    digitRuns (ds.map digitChar ++ c :: cs) = ds.map digitChar :: digitRuns cs := by
  have hdigits : ∀ d ∈ ds.map digitChar, (digit? 10 d).isNone = false := by
    intro d hd
    obtain ⟨e, -, rfl⟩ := List.mem_map.mp hd
    rw [digit?_eq_some_iff.mpr (digitChar_mem_hexDigits e)]
    rfl
  have hend : (digit? 10 c).isNone = true := by
    rw [hc]
    rfl
  have hrun : ds.map digitChar ≠ [] := mt List.map_eq_nil_iff.mp hne
  rw [digitRuns, List.splitOnP_append_cons_of_forall_mem hdigits c hend]
  exact List.filter_cons_of_pos (decide_eq_true hrun)

end Runs

/-! ## Lists of units -/

namespace UnitString

/-- The digits of a unit. -/
def unitDigits (u : UInt16) : List Char := (toDigits u.toNat).map digitChar

theorem toList_toString_unit (u : UInt16) : (toString u).toList = unitDigits u :=
  toList_toString u.toNat

theorem unitDigits_inj {u v : UInt16} : unitDigits u = unitDigits v ↔ u = v := by
  refine ⟨fun h => ?_, fun h => by rw [h]⟩
  have hu := denotes_map_digitChar (toDigits u.toNat)
  have hv := denotes_map_digitChar (toDigits v.toNat)
  rw [ofDigits_toDigits] at hu hv
  rw [← unitDigits] at hu hv
  rw [← h] at hv
  exact UInt16.toNat_inj.mp (hu.unique hv)

theorem digitRuns_unit (u : UInt16) {c : Char} (hc : digit? 10 c = none) (cs : List Char) :
    digitRuns (unitDigits u ++ c :: cs) = unitDigits u :: digitRuns cs :=
  digitRuns_digits (toDigits_ne_nil _) hc cs

/-- A way to write the units of a string: a bracket first, and then the units are the runs of
digits. -/
structure TellsUnits (list : UnitString → String) : Prop where
  /-- the list begins with a bracket -/
  head_eq : ∀ s, (list s).toList.head? = some '['
  /-- its runs of digits are the units -/
  runs_eq : ∀ s, digitRuns (list s).toList = s.units.map unitDigits

/-- On one line the units stand between commas. -/
theorem tellsUnits_unitList : TellsUnits unitList := by
  refine ⟨fun s => by simp [unitList], fun s => ?_⟩
  have hopen : digit? 10 '[' = none := by decide
  have hclose : digit? 10 ']' = none := by decide
  have hcomma : digit? 10 ',' = none := by decide
  have hspace : digit? 10 ' ' = none := by decide
  have hlist : ∀ us : List UInt16,
      digitRuns ([',', ' '].intercalate (us.map unitDigits) ++ [']']) = us.map unitDigits := by
    intro us
    induction us with
    | nil => decide
    | cons u us ih =>
      cases us with
      | nil =>
        rw [List.map_singleton, List.intercalate_singleton, digitRuns_unit u hclose]
        rfl
      | cons v us =>
        rw [List.map_cons, List.map_cons, List.intercalate_cons_cons, List.append_assoc,
          List.append_assoc, List.cons_append, List.cons_append, List.nil_append,
          digitRuns_unit u hcomma, digitRuns_cons hspace]
        exact congrArg _ ih
  have hmap : s.units.map (String.toList ∘ toString) = s.units.map unitDigits :=
    List.map_congr_left fun u _ => toList_toString_unit u
  have htext : s.unitList.toList =
      '[' :: ([',', ' '].intercalate (s.units.map unitDigits) ++ [']']) := by
    simp [unitList, String.toList_intercalate, hmap]
  rw [htext, digitRuns_cons hopen, hlist]

/-- The line of a unit in a list over several lines. -/
def unitLine (u : UInt16) : List Char := List.replicate 8 ' ' ++ (unitDigits u ++ [',', '\n'])

/-- The digits of the unit are the only ones in its line. -/
theorem digitRuns_unitLine (u : UInt16) (cs : List Char) :
    digitRuns (unitLine u ++ cs) = unitDigits u :: digitRuns cs := by
  have hcomma : digit? 10 ',' = none := by decide
  have hbreak : digit? 10 '\n' = none := by decide
  rw [unitLine, List.append_assoc, List.append_assoc, digitRuns_append (by decide),
    List.cons_append, digitRuns_unit u hcomma, List.cons_append, digitRuns_cons hbreak,
    List.nil_append]

/-- Over several lines each unit stands between its indent and a comma. -/
theorem tellsUnits_indentedUnitList : TellsUnits indentedUnitList := by
  refine ⟨fun s => by simp [indentedUnitList], fun s => ?_⟩
  have hlist : ∀ us : List UInt16,
      digitRuns (us.flatMap unitLine ++ "    ]".toList) = us.map unitDigits := by
    intro us
    induction us with
    | nil => decide
    | cons u us ih =>
      rw [List.flatMap_cons, List.append_assoc, digitRuns_unitLine, ih, List.map_cons]
  have htext : s.indentedUnitList.toList =
      ['[', '\n'] ++ (s.units.flatMap unitLine ++ "    ]".toList) := by
    simp [indentedUnitList, List.flatMap_map, toList_toString_unit]
    rfl
  rw [htext, digitRuns_append (by decide), hlist]

/-! ## Strings -/

/-- What is shown of a string: its text, or the list of its units if it has none. -/
def shown (list : UnitString → String) (s : UnitString) : String :=
  match s.text? with
  | some t => visible t
  | none => list s

section Shown

variable {list : UnitString → String} {s t : UnitString}

theorem shown_of_text (list : UnitString → String) {r : String} (h : s.text? = some r) :
    s.shown list = visible r := by
  rw [shown, h]

theorem shown_of_no_text (list : UnitString → String) (h : s.text? = none) :
    s.shown list = list s := by
  rw [shown, h]

/-- A text is not taken for a list. -/
theorem TellsUnits.visible_ne (h : TellsUnits list) (r : String) (s : UnitString) :
    visible r ≠ list s := by
  intro heq
  have hhead : (visible r).toList.head? = some '"' := by simp [visible]
  rw [heq, h.head_eq] at hhead
  cases hhead

/-- **Strings are told apart** by what is shown of them. -/
theorem TellsUnits.shown_inj (h : TellsUnits list) :
    s.shown list = t.shown list ↔ s.units = t.units := by
  refine ⟨fun heq => ?_, fun heq => by rw [UnitString.ext heq]⟩
  cases hs : s.text? with
  | some a =>
    rw [shown_of_text list hs] at heq
    cases ht : t.text? with
    | some b =>
      rw [shown_of_text list ht, visible_inj] at heq
      rw [heq] at hs
      rw [spelled_iff.mp (text?_eq_some_iff.mp hs), spelled_iff.mp (text?_eq_some_iff.mp ht)]
    | none =>
      rw [shown_of_no_text list ht] at heq
      exact absurd heq (h.visible_ne a t)
  | none =>
    rw [shown_of_no_text list hs] at heq
    cases ht : t.text? with
    | some b =>
      rw [shown_of_text list ht] at heq
      exact absurd heq.symm (h.visible_ne b s)
    | none =>
      rw [shown_of_no_text list ht] at heq
      have hruns := congrArg (fun r => digitRuns r.toList) heq
      simp only [h.runs_eq] at hruns
      exact List.map_injective_iff.mpr (fun u v => unitDigits_inj.mp) hruns

end Shown

theorem debug_eq (s : UnitString) : s.debug = "JsString(" ++ s.shown unitList ++ ")" := by
  unfold debug shown
  cases s.text? <;> rfl

theorem debugIndented_eq (s : UnitString) :
    s.debugIndented = "JsString(\n    " ++ s.shown indentedUnitList ++ ",\n)" := by
  unfold debugIndented shown
  cases s.text? <;> rfl

/-- **What a developer sees is exact.** On one line as over several, two strings look the same to a
developer just if they have the same units. -/
theorem debug_exact (s t : UnitString) :
    (s.debug = t.debug ↔ s.units = t.units) ∧
      (s.debugIndented = t.debugIndented ↔ s.units = t.units) := by
  rw [debug_eq, debug_eq, debugIndented_eq, debugIndented_eq, String.append_left_inj,
    String.append_right_inj, String.append_left_inj, String.append_right_inj,
    tellsUnits_unitList.shown_inj, tellsUnits_indentedUnitList.shown_inj]
  exact ⟨Iff.rfl, Iff.rfl⟩

/-- A surrogate without its half and the replacement character look the same to others only. -/
example : display ⟨[0xD800]⟩ = display ⟨[0xFFFD]⟩ ∧ debug ⟨[0xD800]⟩ ≠ debug ⟨[0xFFFD]⟩ := by
  decide +kernel

end UnitString

end ScriptLiteral
