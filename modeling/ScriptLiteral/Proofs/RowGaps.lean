import ScriptLiteral.Proofs.FullSink
import ScriptLiteral.Proofs.NumberText
import ScriptLiteral.Proofs.RowLayout

/-!
# Gaps between the cells of a row

A row of a listing holds a lexeme, the name of its kind and its result. What stands between two of
them is a run of spaces, or a line break where the column is too narrow. Only a text that is just as
wide as its column is followed by nothing at all (`Cell.exists_gap`). No name of a kind is as wide as
the column for them, but a lexeme can be: the column is two wider than the longest lexeme as long as
that is within bounds, and otherwise it has the greatest width, which some of the lexemes may have as
well (`length_eq_lexemeColumn_iff`).

So the cells of a listing are kept apart just if no lexeme has that one length (`rows_gapped`).
-/

namespace ScriptLiteral

/-! ## Gaps -/

/-- What keeps two cells apart. -/
inductive IsGap : List Char → Prop
  /-- spaces, at least one -/
  | spaces (n : Nat) : IsGap (spaces (n + 1))
  /-- a line break and the indent after it -/
  | wrap (n : Nat) : IsGap ('\n' :: ScriptLiteral.spaces n)

/-- **A cell ends in a gap** if its text is not just as wide as its column, and with its text if it
is. -/
theorem Cell.exists_gap {c : Cell} (hw : 0 < c.width) (last : Nat) :
    ∃ gap, c.written last = c.text ++ gap ∧
      (IsGap gap ∧ c.text.length ≠ c.width.natAbs ∨
        gap = [] ∧ c.text.length = c.width.natAbs) := by
  have h := c.standsAs_written last
  generalize c.written last = added at h
  cases h with
  | @left n _ hn =>
    refine ⟨spaces n, rfl, ?_⟩
    cases n with
    | zero => exact .inr ⟨rfl, hn⟩
    | succ n => exact .inl ⟨.spaces n, by omega⟩
  | right hneg => omega
  | unbounded hzero => omega
  | wrapped _ hlt => exact ⟨_, rfl, .inl ⟨.wrap last, by omega⟩⟩

/-- White space at the end is that of the last part which holds something else. -/
theorem trimEnd_append {text more : List Char} (h : ∃ c ∈ more, isWhiteSpace c = false) :
    trimEnd (text ++ more) = text ++ trimEnd more := by
  have hne : more.reverse.dropWhile isWhiteSpace ≠ [] := by
    obtain ⟨c, hc, hwhite⟩ := h
    rw [Ne, List.dropWhile_eq_nil_iff]
    intro hall
    rw [hall c (List.mem_reverse.mpr hc)] at hwhite
    cases hwhite
  rw [trimEnd, List.reverse_append, List.dropWhile_append, if_neg (by simpa using hne),
    List.reverse_append, List.reverse_reverse]
  rfl

/-! ## Results -/

/-- The text of a number holds a character that is no white space. -/
theorem Binary64.exists_not_whiteSpace (x : Binary64) :
    ∃ c ∈ x.text.toList, isWhiteSpace c = false := by
  have hdigit : ∀ d : Fin 10, isWhiteSpace (digitChar d) = false := by decide
  rcases x.kinds with h | h | h | ⟨h, h0⟩
  · exact ⟨'N', by rw [text_of_isNaN h]; decide⟩
  · exact ⟨'0', by rw [text_of_isZero h]; decide⟩
  · refine ⟨'I', ?_⟩
    rw [text_of_isInfinite h]
    cases x.negative <;> decide
  · have hnormal := isNormal_significand (magnitude_lt_of_isFinite h).le (magnitude_ne_zero h0)
    obtain ⟨d, cs, hcs⟩ := NumeralParts.exists_head_text (hnormal.isStrict_parts .script).ne_nil
    refine ⟨digitChar d, ?_, hdigit d⟩
    rw [text_of_isFinite h h0, withSign, Significand.write_eq_text .script hnormal.ne_nil, hcs,
      String.toList_ofList]
    split
    · exact List.mem_cons_of_mem _ List.mem_cons_self
    · exact List.mem_cons_self

namespace Entry

/-- The result of an entry is more than white space. -/
theorem exists_not_whiteSpace (e : Entry) :
    ∃ c ∈ e.resultText.toList, isWhiteSpace c = false := by
  unfold resultText
  cases e.result with
  | error d =>
    have htext : (s!"error: {d.message}").toList = "error: ".toList ++ d.message.toList :=
      String.toList_append
    exact ⟨'e', htext ▸ List.mem_append_left _ (by decide), by decide⟩
  | ok v =>
    cases v with
    | null => exact ⟨'n', by decide⟩
    | number x => exact x.exists_not_whiteSpace
    | string s => exact ⟨'"', by simp [valueText, Json.quote, Json.quoteChars], by decide⟩

/-- **The cells of an entry**: the lexeme, the kind and the result, with a gap after each of the first
two, unless the lexeme fills its column. -/
theorem exists_rowText_eq (e : Entry) {column : Nat} (hcolumn : 0 < column) :
    ∃ gap kindGap, e.rowText column = String.ofList (e.lexeme.toList ++ gap ++
        e.kind.name.toList ++ kindGap ++ trimEnd e.resultText.toList) ∧
      IsGap kindGap ∧
      (IsGap gap ∧ e.lexeme.length ≠ column ∨ gap = [] ∧ e.lexeme.length = column) := by
  have hname : ∀ k : Kind, k.name.toList.length ≠ kindColumn.natAbs := by
    intro k
    cases k <;> decide
  obtain ⟨gap, hlexeme, hgap⟩ :=
    Cell.exists_gap (c := ⟨e.lexeme.toList, column⟩) (Int.natCast_pos.mpr hcolumn) column
  obtain ⟨kindGap, hkind, hkindGap⟩ :=
    Cell.exists_gap (c := ⟨e.kind.name.toList, kindColumn⟩) (show 0 < kindColumn by decide)
      (column + kindColumn.natAbs)
  have hresult : Cell.written ⟨e.resultText.toList, 0⟩ (column + kindColumn.natAbs) =
      e.resultText.toList := Cell.written_of_unbounded rfl _
  refine ⟨gap, kindGap, ?_, ?_, ?_⟩
  · rw [rowText, row, rowFrom_cons, rowFrom_cons, rowFrom_cons, Nat.zero_add, Int.natAbs_natCast,
      hlexeme, hkind]
    simp only [Int.natAbs_zero, Nat.add_zero, hresult, rowFrom, List.append_nil]
    rw [← List.append_assoc, ← List.append_assoc, trimEnd_append e.exists_not_whiteSpace]
  · exact hkindGap.elim And.left fun h => absurd h.2 (hname e.kind)
  · rwa [Int.natAbs_natCast, String.length_toList] at hgap

end Entry

/-! ## Listings -/

theorem le_foldl_max {n m : Nat} {ns : List Nat} (h : n ≤ m ∨ n ∈ ns) : n ≤ ns.foldl max m := by
  induction ns generalizing m with
  | nil => exact h.resolve_right List.not_mem_nil
  | cons k ns ih =>
    rcases h with hm | hmem
    · exact ih (.inl (Nat.le_trans hm (Nat.le_max_left m k)))
    · rcases List.mem_cons.mp hmem with rfl | hns
      · exact ih (.inl (Nat.le_max_right m n))
      · exact ih (.inr hns)

namespace Listing

variable {l : Listing} {lexeme : String} {lexemes : List String}

theorem lexemeColumn_pos (lexemes : List String) : 0 < lexemeColumn lexemes := Nat.succ_pos _

/-- A lexeme fills the column just if it is as long as the column can be wide. -/
theorem length_eq_lexemeColumn_iff (h : lexeme ∈ lexemes) :
    lexeme.length = lexemeColumn lexemes ↔ lexeme.length = widestColumn + 2 := by
  have hle : lexeme.length ≤ (lexemes.map String.length).foldl max 0 :=
    le_foldl_max (.inr (List.mem_map_of_mem h))
  unfold lexemeColumn
  omega

/-- In every row, a gap follows the lexeme and another one the name of its kind. -/
def KeepsApart (l : Listing) (lexemes : List String) : Prop :=
  ∀ i lexeme, lexemes[i]? = some lexeme → ∃ gap kindGap result, IsGap gap ∧ IsGap kindGap ∧
    (l.lines lexemes)[i]? = some (String.ofList (lexeme.toList ++ gap ++
      (l.literal i lexeme).kind.name.toList ++ kindGap ++ result))

/-- **The cells of a line**, for each lexeme of a listing. -/
theorem exists_line_eq (hform : l.form = .rows) {i : Nat} (h : lexemes[i]? = some lexeme) :
    ∃ gap kindGap, (l.lines lexemes)[i]? = some (String.ofList (lexeme.toList ++ gap ++
        (l.literal i lexeme).kind.name.toList ++ kindGap ++
        trimEnd (l.entry i lexeme).value.resultText.toList)) ∧
      IsGap kindGap ∧
      (IsGap gap ∧ lexeme.length ≠ widestColumn + 2 ∨
        gap = [] ∧ lexeme.length = widestColumn + 2) := by
  obtain ⟨gap, kindGap, hrow, hkindGap, hgap⟩ :=
    (l.entry i lexeme).value.exists_rowText_eq (lexemeColumn_pos lexemes)
  rw [lexeme_entry, kind_entry] at hrow
  rw [lexeme_entry, Ne, length_eq_lexemeColumn_iff (List.mem_of_getElem? h)] at hgap
  refine ⟨gap, kindGap, ?_, hkindGap, hgap⟩
  rw [lines, List.getElem?_mapIdx, h, Option.map_some, line, hform, ← hrow]
  rfl

/-- **Touching cells**: a lexeme that fills its column is followed by the name of its kind. -/
theorem not_keepsApart (hform : l.form = .rows) (h : lexeme ∈ lexemes)
    (hlength : lexeme.length = widestColumn + 2) : ¬ l.KeepsApart lexemes := by
  intro happart
  obtain ⟨i, hi⟩ := List.mem_iff_getElem?.mp h
  obtain ⟨gap, kindGap, result, hgap, -, hline⟩ := happart i lexeme hi
  obtain ⟨none, kindGap', hline', -, ⟨-, hne⟩ | ⟨rfl, -⟩⟩ := exists_line_eq hform hi
  · exact hne hlength
  · -- what follows the lexeme would have to begin both with a gap and with a letter
    have htext := String.ofList_injective (Option.some.inj (hline.symm.trans hline'))
    simp only [List.append_assoc, List.append_cancel_left_eq, List.nil_append] at htext
    have hletter : ∀ k : Kind, k.name.toList.head? ≠ some ' ' ∧ k.name.toList.head? ≠ some '\n' ∧
        k.name.toList ≠ [] := by
      intro k
      cases k <;> decide
    obtain ⟨hspace, hbreak, hne⟩ := hletter (l.literal i lexeme).kind
    have hhead := congrArg List.head? htext
    obtain ⟨c, cs, hcs⟩ := List.exists_cons_of_ne_nil hne
    rw [hcs] at hspace hbreak hhead
    cases hgap with
    | spaces n => exact hspace hhead.symm
    | wrap n => exact hbreak hhead.symm

end Listing

/-- A lexeme of twenty-six characters stands right before the name of its kind. -/
theorem touching_cells :
    let l : Listing := ⟨none, .rows⟩
    let lexeme := "'abcdefghijklmnopqrstuvwx'"
    l.lines [lexeme] = [lexeme ++ "string   \"abcdefghijklmnopqrstuvwx\""] ∧
      ¬ l.KeepsApart [lexeme] := by
  intro l lexeme
  exact ⟨by decide +kernel, Listing.not_keepsApart rfl (List.mem_singleton_self lexeme) (by decide)⟩

/-- **Rows have gaps.** In the form of rows, the output is a line for each lexeme. It holds the
lexeme, the name of its kind and its result without white space at the end. After the name there is
always a gap. After the lexeme there is one just if the lexeme is not as long as the column for it is
at most wide; if it is, the name follows at once. -/
theorem rows_gapped (kind : Option Kind) (lexemes : List String) :
    let l : Listing := ⟨kind, .rows⟩
    (l.run lexemes .unlimited).value.2.written = (linesText (l.lines lexemes)).toUTF8 ∧
      (∀ i lexeme, lexemes[i]? = some lexeme →
        ∃ gap kindGap, (l.lines lexemes)[i]? = some (String.ofList (lexeme.toList ++ gap ++
            (kind.getD (Kind.guess lexeme)).name.toList ++ kindGap ++
            trimEnd (l.entry i lexeme).value.resultText.toList)) ∧
          IsGap kindGap ∧
          (IsGap gap ∧ lexeme.length ≠ Listing.widestColumn + 2 ∨
            gap = [] ∧ lexeme.length = Listing.widestColumn + 2)) ∧
      (l.KeepsApart lexemes ↔ ∀ lexeme ∈ lexemes, lexeme.length ≠ Listing.widestColumn + 2) := by
  intro l
  refine ⟨congrArg (·.2.written) (l.value_run_all lexemes),
    fun i lexeme h => Listing.exists_line_eq rfl h, fun happart lexeme h hlength =>
      Listing.not_keepsApart rfl h hlength happart, fun hall i lexeme h => ?_⟩
  obtain ⟨gap, kindGap, hline, hkindGap, ⟨hgap, -⟩ | ⟨-, hlength⟩⟩ :=
    Listing.exists_line_eq (l := l) rfl h
  · exact ⟨gap, kindGap, _, hgap, hkindGap, hline⟩
  · exact absurd hlength (hall lexeme (List.mem_of_getElem? h))

end ScriptLiteral
