import Mathlib.Data.List.DropRight
import ScriptLiteral.Proofs.LexemeLines

/-!
# Line endings

Every text has its lexemes, one on each line that is not blank. A line ends in any number of carriage
returns and a line feed, the line feed can be missing after the last line, and a blank line can hold
any white space. `OnLines` says of a text that it was written in that way.

A text is taken a line at a time (`lineInduction`), and a line adds its own lexeme, or none, to those
of the rest (`lexemesOf_append`). So every text is `OnLines` for its own lexemes (`onLines_lexemesOf`)
and for no others (`OnLines.lexemesOf_eq`).

Carriage returns can go in two steps, the one before a line feed together with it and the others
after that. The last line, when no line feed ends it, goes through the second step alone. This comes
to the same lexemes (`lexemesOf_eq_filter_terminatedLines`).

The main result is `lexemes_on_lines`.
-/

namespace ScriptLiteral

/-! ## Carriage returns at the end of a line -/

/-- The given number of carriage returns. -/
def returns (n : Nat) : List Char := List.replicate n '\r'

section Returns

variable {line : List Char} {n : Nat}

theorem trimReturns_eq_rdropWhile (line : List Char) :
    trimReturns line = line.rdropWhile (· = '\r') := rfl

/-- A line is what is left of it and carriage returns. -/
theorem exists_trimReturns (line : List Char) : ∃ n, line = trimReturns line ++ returns n := by
  refine ⟨(line.rtakeWhile (· = '\r')).length, ?_⟩
  have hreturns : line.rtakeWhile (· = '\r') = returns (line.rtakeWhile (· = '\r')).length :=
    List.eq_replicate_of_mem fun c hc => by simpa using List.mem_rtakeWhile_imp hc
  rw [← hreturns, trimReturns_eq_rdropWhile, List.rdropWhile_append_rtakeWhile]

/-- Nothing is left to be taken away. -/
theorem getLast?_trimReturns (line : List Char) : (trimReturns line).getLast? ≠ some '\r' := by
  intro h
  have hne : trimReturns line ≠ [] := fun hnil => by simp [hnil] at h
  have hlast := (List.getLast_eq_iff_getLast?_eq_some hne).mpr h
  exact List.rdropWhile_last_not _ line hne (decide_eq_true hlast)

theorem trimReturns_append_return (line : List Char) :
    trimReturns (line ++ ['\r']) = trimReturns line := by
  rw [trimReturns_eq_rdropWhile, List.rdropWhile_concat_pos _ _ _ (by simp)]
  rfl

theorem trimReturns_append_returns (line : List Char) (n : Nat) :
    trimReturns (line ++ returns n) = trimReturns line := by
  induction n with
  | zero => rw [returns, List.replicate_zero, List.append_nil]
  | succ n ih =>
    rw [returns, List.replicate_succ', ← List.append_assoc, trimReturns_append_return, ← returns, ih]

/-- A carriage return is white space. -/
theorem isBlank_append_returns (line : List Char) (n : Nat) :
    isBlank (line ++ returns n) = isBlank line := by
  have hreturns : isBlank (returns n) = true :=
    List.all_eq_true.mpr fun c hc => by rw [List.eq_of_mem_replicate hc]; rfl
  rw [isBlank, List.all_append, ← isBlank, ← isBlank, hreturns, Bool.and_true]

/-- So a line is blank before and after they are taken away. -/
theorem isBlank_trimReturns (line : List Char) : isBlank (trimReturns line) = isBlank line := by
  obtain ⟨n, hn⟩ := exists_trimReturns line
  conv_rhs => rw [hn, isBlank_append_returns]

theorem not_mem_returns : '\n' ∉ returns n := fun h => by
  simpa using List.eq_of_mem_replicate h

theorem not_mem_trimReturns (h : '\n' ∉ line) : '\n' ∉ trimReturns line :=
  fun hmem => h ((List.rdropWhile_prefix _ line).subset hmem)

end Returns

/-! ## A line at a time -/

/-- **Induction over the lines of a text**: the text is one line, or it begins with a line and a line
feed. -/
@[elab_as_elim]
theorem lineInduction {motive : List Char → Prop}
    (last : ∀ line, '\n' ∉ line → motive line)
    (line : ∀ line rest, '\n' ∉ line → motive rest → motive (line ++ '\n' :: rest))
    (text : List Char) : motive text := by
  by_cases hmem : '\n' ∈ text
  · obtain ⟨front, rest, htext, hfront⟩ := List.eq_append_cons_of_mem hmem
    have hlt : rest.length < text.length := by
      rw [htext, List.length_append, List.length_cons]
      omega
    rw [htext]
    exact line front rest hfront (lineInduction last line rest)
  · exact last text hmem
termination_by text.length

/-- The lines are the pieces between line feeds. -/
theorem splitLines_eq_splitOn (text : List Char) : splitLines text = text.splitOn '\n' := by
  induction text using lineInduction with
  | last line h => rw [splitLines_of_not_mem h, List.splitOn_eq_singleton h]
  | line line rest h ih =>
    rw [splitLines_append h, List.splitOn_append_cons_self, List.splitOn_eq_singleton h, ih]
    rfl

section Line

variable {line : List Char} {lexeme : String} {n : Nat}

theorem lexemesOf_of_not_mem (h : '\n' ∉ line) :
    lexemesOf line = if isBlank line then [] else [trimReturns line] := by
  rw [lexemesOf, splitLines_of_not_mem h, List.map_singleton, List.filter_singleton,
    isBlank_trimReturns]
  cases isBlank line <;> rfl

/-- A line that is not blank has a lexeme, which can stand on a line. -/
theorem isLine_trimReturns (h : '\n' ∉ line) (hblank : isBlank line = false) :
    IsLine (String.ofList (trimReturns line)) where
  not_blank := by rw [String.toList_ofList, isBlank_trimReturns, hblank]
  not_mem := by
    rw [String.toList_ofList]
    exact not_mem_trimReturns h
  getLast_ne := by
    rw [String.toList_ofList]
    exact getLast?_trimReturns line

theorem IsLine.not_mem_append_returns (h : IsLine lexeme) :
    '\n' ∉ lexeme.toList ++ returns n := by
  rw [List.mem_append, not_or]
  exact ⟨h.not_mem, not_mem_returns⟩

/-- A lexeme is read as it is, however many carriage returns are behind it. -/
theorem IsLine.lexemesOf_append_returns (h : IsLine lexeme) :
    lexemesOf (lexeme.toList ++ returns n) = [lexeme.toList] := by
  rw [lexemesOf_of_not_mem h.not_mem_append_returns, isBlank_append_returns, h.not_blank,
    if_neg Bool.false_ne_true, trimReturns_append_returns, trimReturns_eq_self h.getLast_ne]

end Line

/-! ## Lexemes on lines of any ending -/

/-- A line of white space. -/
structure IsBlankLine (line : List Char) : Prop where
  /-- it is one line -/
  not_mem : '\n' ∉ line
  /-- there is nothing else than white space -/
  blank : isBlank line = true

theorem IsBlankLine.lexemesOf_eq {line : List Char} (h : IsBlankLine line) :
    lexemesOf line = [] := by
  rw [lexemesOf_of_not_mem h.not_mem, if_pos h.blank]

/-- The text holds the lexemes one on each line that is not blank. Before the end of a line there can
be any number of carriage returns. -/
inductive OnLines : List String → List Char → Prop
  /-- a blank line that no line feed ends, such as the empty one -/
  | lastBlank {line : List Char} (h : IsBlankLine line) : OnLines [] line
  /-- a lexeme that no line feed ends -/
  | last {lexeme : String} (h : IsLine lexeme) (n : Nat) :
      OnLines [lexeme] (lexeme.toList ++ returns n)
  /-- a blank line in front -/
  | blank {line text : List Char} {lexemes : List String} (h : IsBlankLine line)
      (hrest : OnLines lexemes text) : OnLines lexemes (line ++ '\n' :: text)
  /-- a line with a lexeme in front -/
  | lexeme {lexeme : String} {text : List Char} {lexemes : List String} (h : IsLine lexeme) (n : Nat)
      (hrest : OnLines lexemes text) :
      OnLines (lexeme :: lexemes) (lexeme.toList ++ returns n ++ '\n' :: text)

section OnLines

variable {lexemes : List String} {text : List Char}

/-- What stands on lines is read back. -/
theorem OnLines.lexemesOf_eq (h : OnLines lexemes text) :
    lexemesOf text = lexemes.map String.toList := by
  induction h with
  | lastBlank h => exact h.lexemesOf_eq
  | last h n => exact h.lexemesOf_append_returns
  | blank h hrest ih => rw [lexemesOf_append h.not_mem, h.lexemesOf_eq, ih, List.nil_append]
  | lexeme h n hrest ih =>
    rw [lexemesOf_append h.not_mem_append_returns, h.lexemesOf_append_returns, ih]
    rfl

/-- The lexemes of a text stand on its lines. -/
theorem onLines_lexemesOf (text : List Char) :
    OnLines ((lexemesOf text).map String.ofList) text := by
  induction text using lineInduction with
  | last line h =>
    rw [lexemesOf_of_not_mem h]
    cases hblank : isBlank line with
    | true => exact .lastBlank ⟨h, hblank⟩
    | false =>
      obtain ⟨n, hn⟩ := exists_trimReturns line
      have hlast := OnLines.last (isLine_trimReturns h hblank) n
      rwa [String.toList_ofList, ← hn] at hlast
  | line line rest h ih =>
    rw [lexemesOf_append h, lexemesOf_of_not_mem h]
    cases hblank : isBlank line with
    | true => exact .blank ⟨h, hblank⟩ ih
    | false =>
      obtain ⟨n, hn⟩ := exists_trimReturns line
      have hfront := OnLines.lexeme (isLine_trimReturns h hblank) n ih
      rwa [String.toList_ofList, ← hn] at hfront

/-- Each of them can stand on a line. -/
theorem OnLines.isLine (h : OnLines lexemes text) : ∀ lexeme ∈ lexemes, IsLine lexeme := by
  induction h with
  | lastBlank => exact List.forall_mem_nil _
  | last h => exact List.forall_mem_singleton.mpr h
  | blank _ _ ih => exact ih
  | lexeme h _ _ ih => exact List.forall_mem_cons.mpr ⟨h, ih⟩

/-- So a text is on lines for its own lexemes alone. -/
theorem onLines_iff :
    OnLines lexemes text ↔ lexemes = (lexemesOf text).map String.ofList := by
  constructor
  · intro h
    rw [h.lexemesOf_eq, List.map_map]
    simp
  · rintro rfl
    exact onLines_lexemesOf text

end OnLines

/-! ## One carriage return with the line feed -/

/-- The lines of a text, each with the line feed that ends it. -/
def inclusiveLines : List Char → List (List Char)
  | [] => []
  | c :: cs =>
    if c = '\n' then ['\n'] :: inclusiveLines cs
    else
      match inclusiveLines cs with
      | [] => [[c]]
      | line :: lines => (c :: line) :: lines

/-- A line without the carriage return at its end. -/
def withoutReturn (line : List Char) : List Char :=
  if line.getLast? = some '\r' then line.dropLast else line

/-- A line without its line feed and the carriage return before that. What no line feed ends is left
as it is. -/
def withoutEnd (line : List Char) : List Char :=
  if line.getLast? = some '\n' then withoutReturn line.dropLast else line

/-- The lines of a text without their ends. -/
def terminatedLines (text : List Char) : List (List Char) := (inclusiveLines text).map withoutEnd

section Terminated

variable {line rest : List Char}

theorem inclusiveLines_append (h : '\n' ∉ line) :
    inclusiveLines (line ++ '\n' :: rest) = (line ++ ['\n']) :: inclusiveLines rest := by
  induction line with
  | nil => rfl
  | cons c line ih =>
    rw [List.mem_cons, not_or] at h
    rw [List.cons_append, inclusiveLines, if_neg (Ne.symm h.1), ih h.2]
    rfl

/-- There is no empty line after the last line feed. -/
theorem inclusiveLines_of_not_mem (h : '\n' ∉ line) :
    inclusiveLines line = if line = [] then [] else [line] := by
  induction line with
  | nil => rfl
  | cons c line ih =>
    rw [List.mem_cons, not_or] at h
    rw [inclusiveLines, if_neg (Ne.symm h.1), ih h.2, if_neg (List.cons_ne_nil c line)]
    cases line <;> rfl

theorem withoutEnd_of_not_mem (h : '\n' ∉ line) : withoutEnd line = line :=
  if_neg fun hlast => h (List.mem_of_getLast? hlast)

theorem withoutEnd_append (line : List Char) : withoutEnd (line ++ ['\n']) = withoutReturn line := by
  rw [withoutEnd, if_pos List.getLast?_concat, List.dropLast_concat]

/-- Whether one of the carriage returns goes first does not matter. -/
theorem trimReturns_withoutReturn (line : List Char) :
    trimReturns (withoutReturn line) = trimReturns line := by
  rw [withoutReturn]
  split
  case isTrue h =>
    obtain ⟨front, rfl⟩ := List.getLast?_eq_some_iff.mp h
    rw [List.dropLast_concat, trimReturns_append_return]
  case isFalse => rfl

/-- The lexemes are the same in two steps. -/
theorem lexemesOf_eq_filter_terminatedLines (text : List Char) :
    lexemesOf text = ((terminatedLines text).map trimReturns).filter (!isBlank ·) := by
  induction text using lineInduction with
  | last line h =>
    rw [terminatedLines, inclusiveLines_of_not_mem h]
    split
    case isTrue h => rw [h]; rfl
    case isFalse =>
      rw [List.map_singleton, withoutEnd_of_not_mem h, lexemesOf, splitLines_of_not_mem h]
  | line line rest h ih =>
    rw [terminatedLines, inclusiveLines_append h, List.map_cons, ← terminatedLines,
      withoutEnd_append, List.map_cons, trimReturns_withoutReturn, lexemesOf_append h, ih,
      lexemesOf, splitLines_of_not_mem h, List.map_singleton, ← List.filter_append,
      List.singleton_append]

end Terminated

/-- **Lexemes stand on lines.** Every text can be read. Its lexemes are the pieces between the line
feeds, without the carriage returns at their ends, that hold something else than white space. Taking
one carriage return away with each line feed and the others afterwards is the same. No lexeme is
blank, holds a line feed or ends in a carriage return, and lexemes are read from a text just when it
was written with one of them on each line, whatever the ends of the lines are and wherever blank lines
are put in. -/
theorem lexemes_on_lines (text : String) :
    ∃ lexemes, lexemesOfContent (.ok text.toUTF8) = .ok lexemes ∧
      lexemes.map String.toList =
        ((text.toList.splitOn '\n').map (·.rdropWhile (· = '\r'))).filter
          (·.any (!isWhiteSpace ·)) ∧
      lexemes.map String.toList =
        ((terminatedLines text.toList).map trimReturns).filter (!isBlank ·) ∧
      (∀ lexeme ∈ lexemes, IsLine lexeme) ∧
      ∀ others, OnLines others text.toList ↔ others = lexemes := by
  have hchars : ((lexemesOf text.toList).map String.ofList).map String.toList =
      lexemesOf text.toList := by
    rw [List.map_map]
    simp
  refine ⟨(lexemesOf text.toList).map String.ofList, ?_, ?_, ?_, ?_, fun others => onLines_iff⟩
  · simp only [lexemesOfContent, fromUTF8?_toUTF8]
  · rw [hchars, lexemesOf, splitLines_eq_splitOn, funext trimReturns_eq_rdropWhile]
    congr 1
    funext line
    rw [isBlank, List.not_all_eq_any_not]
  · rw [hchars, lexemesOf_eq_filter_terminatedLines]
  · exact (onLines_lexemesOf text.toList).isLine

-- a line feed alone, two carriage returns before one, a line of white space, and none at the end
example : lexemesOf "1\n2\r\r\n \t\r\n '\rb' \r".toList =
    ["1".toList, "2".toList, " '\rb' ".toList] := by decide

end ScriptLiteral
