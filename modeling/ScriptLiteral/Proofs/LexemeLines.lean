import ScriptLiteral.Listing.Lexemes

/-!
# Lexemes on lines

Lexemes are written to a file one on each line, and they are read back as they were if no line is
blank and none would be cut: a lexeme must not hold a line feed nor end in a carriage return
(`lexemesOfContent_of_isListed`). The line feed after the last line may be left out.
-/

namespace ScriptLiteral

/-! ## Splitting into lines -/

/-- Lines with a line feed after each. -/
def linesText (lines : List String) : String := String.join (lines.map (· ++ "\n"))

@[simp] theorem linesText_nil : linesText [] = "" := rfl

theorem linesText_cons (line : String) (lines : List String) :
    linesText (line :: lines) = line ++ "\n" ++ linesText lines := by
  rw [linesText, List.map_cons, String.join_cons]
  rfl

theorem linesText_append (as bs : List String) :
    linesText (as ++ bs) = linesText as ++ linesText bs := by
  rw [linesText, List.map_append, String.join_append]
  rfl

section Split

variable {line rest : List Char}

/-- A line ends at the first line feed. -/
theorem splitLines_append (h : '\n' ∉ line) :
    splitLines (line ++ '\n' :: rest) = line :: splitLines rest := by
  induction line with
  | nil => rfl
  | cons c line ih =>
    rw [List.mem_cons, not_or] at h
    rw [List.cons_append, splitLines, if_neg (Ne.symm h.1), ih h.2]

/-- Without a line feed there is one line. -/
theorem splitLines_of_not_mem (h : '\n' ∉ line) : splitLines line = [line] := by
  induction line with
  | nil => rfl
  | cons c line ih =>
    rw [List.mem_cons, not_or] at h
    rw [splitLines, if_neg (Ne.symm h.1), ih h.2]

end Split

/-- A text is read back from its bytes. -/
theorem fromUTF8?_toUTF8 (text : String) : String.fromUTF8? text.toUTF8 = some text :=
  dif_pos text.isValidUTF8

/-! ## Lexemes of lines -/

/-- A lexeme that can stand on a line of its own. -/
structure IsLine (lexeme : String) : Prop where
  /-- there is something else than white space -/
  not_blank : isBlank lexeme.toList = false
  /-- no line ends in it -/
  not_mem : '\n' ∉ lexeme.toList
  /-- nothing at its end belongs to the end of the line -/
  getLast_ne : lexeme.toList.getLast? ≠ some '\r'

/-- The text holds the lexemes one on each line, with or without a line feed after the last. -/
def IsListed (lexemes : List String) (text : String) : Prop :=
  text = linesText lexemes ∨ text = "\n".intercalate lexemes

section Lexemes

variable {lexeme text : String} {lexemes : List String}

/-- Carriage returns are left out at the end alone. -/
theorem trimReturns_eq_self {line : List Char} (h : line.getLast? ≠ some '\r') :
    trimReturns line = line := by
  rw [← List.head?_reverse] at h
  rw [trimReturns]
  cases hreverse : line.reverse with
  | nil => rw [List.dropWhile_nil, ← hreverse, List.reverse_reverse]
  | cons c cs =>
    have hc : c ≠ '\r' := by
      rintro rfl
      exact h (by rw [hreverse, List.head?_cons])
    rw [List.dropWhile_cons_of_neg (by simpa using hc), ← hreverse, List.reverse_reverse]

/-- A line adds its own lexeme, or none, to those of the rest. -/
theorem lexemesOf_append {line : List Char} (h : '\n' ∉ line) (rest : List Char) :
    lexemesOf (line ++ '\n' :: rest) = lexemesOf line ++ lexemesOf rest := by
  rw [lexemesOf, splitLines_append h, List.map_cons, ← List.singleton_append, List.filter_append,
    ← lexemesOf, ← List.map_singleton, ← splitLines_of_not_mem h, ← lexemesOf]

/-- A lexeme on a line is read as it is. -/
theorem IsLine.lexemesOf_eq (h : IsLine lexeme) :
    lexemesOf lexeme.toList = [lexeme.toList] := by
  rw [lexemesOf, splitLines_of_not_mem h.not_mem, List.map_singleton,
    trimReturns_eq_self h.getLast_ne, List.filter_cons_of_pos (by simp [h.not_blank])]
  rfl

/-- Lexemes with a line feed after each are read back. -/
theorem lexemesOf_linesText (h : ∀ lexeme ∈ lexemes, IsLine lexeme) :
    lexemesOf (linesText lexemes).toList = lexemes.map String.toList := by
  induction lexemes with
  | nil => rfl
  | cons lexeme lexemes ih =>
    rw [List.forall_mem_cons] at h
    rw [linesText_cons, String.toList_append, String.toList_append, List.append_assoc,
      show "\n".toList = ['\n'] from rfl, List.singleton_append, lexemesOf_append h.1.not_mem,
      h.1.lexemesOf_eq, ih h.2, List.map_cons, List.singleton_append]

/-- So are lexemes with line feeds between them. -/
theorem lexemesOf_intercalate (h : ∀ lexeme ∈ lexemes, IsLine lexeme) :
    lexemesOf ("\n".intercalate lexemes).toList = lexemes.map String.toList := by
  induction lexemes with
  | nil => rfl
  | cons lexeme lexemes ih =>
    rw [List.forall_mem_cons] at h
    cases lexemes with
    | nil => rw [String.intercalate_singleton, h.1.lexemesOf_eq, List.map_singleton]
    | cons next lexemes =>
      rw [String.intercalate_cons_cons, String.toList_append, String.toList_append,
        List.append_assoc, show "\n".toList = ['\n'] from rfl, List.singleton_append,
        lexemesOf_append h.1.not_mem, h.1.lexemesOf_eq, ih h.2]
      rfl

/-- **Lexemes on lines** are read back from the bytes of the text. -/
theorem lexemesOfContent_of_isListed (h : ∀ lexeme ∈ lexemes, IsLine lexeme)
    (htext : IsListed lexemes text) : lexemesOfContent (.ok text.toUTF8) = .ok lexemes := by
  have hlexemes : lexemesOf text.toList = lexemes.map String.toList := by
    rcases htext with rfl | rfl
    · exact lexemesOf_linesText h
    · exact lexemesOf_intercalate h
  simp only [lexemesOfContent, fromUTF8?_toUTF8, hlexemes]
  simp

end Lexemes

end ScriptLiteral
