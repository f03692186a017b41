import Mathlib.Data.List.FinRange
import Mathlib.Data.List.Indexes
import Mathlib.Data.List.Perm.Basic
import ScriptLiteral.Proofs.Invocations
import ScriptLiteral.Proofs.RecordLines

/-!
# Reports of runs

A listing goes through its lexemes with counts, a number for the next lexeme and a column as wide as
the longest of all needs. What is written of a lexeme depends on little of that. The counts grow by
what the lexemes resolve to (`Listing.tallyFrom_eq`), in either form. A record depends on the number
of the lexeme in nothing but the member that tells it, so the records of two lists one after the
other are those of the first and those of the second moved on (`Listing.lines_append`). A row does
not depend on the number, and the width of the column not on the order, so to permute the lexemes is
to permute the rows (`Listing.lines_permuted`).
-/

namespace ScriptLiteral

/-- The entry, if so many lexemes more stand before it. -/
def Entry.movedBy (n : Nat) (e : Entry) : Entry := { e with line := UInt32.ofNat (e.line.toNat + n) }

/-- The record, if so many lexemes more stand before it. -/
def Record.movedBy (n : Nat) (r : Record) : Record := { r with line := r.line + n }

/-- What is numbered and then mapped is mapped with its numbers. -/
theorem map_mapIdx {α β γ : Type} (g : β → γ) (f : Nat → α → β) (as : List α) :
    (as.mapIdx f).map g = as.mapIdx fun i a => g (f i a) := by
  refine List.ext_getElem? fun i => ?_
  rw [List.getElem?_map, List.getElem?_mapIdx, List.getElem?_mapIdx, Option.map_map]
  rfl

namespace Listing

variable {l : Listing} {before other : Nat} {lexeme : String}

/-! ## What an entry is written from -/

/-- The last cell of the row of an entry. -/
theorem resultText_entry (l : Listing) (before : Nat) (lexeme : String) :
    (l.entry before lexeme).value.resultText =
      match (l.literal before lexeme).resolve.value with
      | .ok v => Entry.valueText v
      | .error f => s!"error: {f.message}" := by
  rw [Entry.resultText, result_entry]
  cases (l.literal before lexeme).resolve.value <;> rfl

/-- The last member of the record of an entry. -/
theorem resultMember_entry (l : Listing) (before : Nat) (lexeme : String) :
    (l.entry before lexeme).value.resultMember =
      match (l.literal before lexeme).resolve.value with
      | .ok v => ⟨"value", v.json⟩
      | .error f => ⟨"error", Json.quote f.message⟩ := by
  rw [Entry.resultMember, result_entry]
  cases (l.literal before lexeme).resolve.value <;> rfl

/-- **A row** does not depend on the number of the lexeme. -/
theorem rowText_entry (l : Listing) (before other column : Nat) (lexeme : String) :
    (l.entry before lexeme).value.rowText column = (l.entry other lexeme).value.rowText column := by
  rw [Entry.rowText, Entry.rowText, resultText_entry, resultText_entry]
  simp only [lexeme_entry, kind_entry]
  rfl

/-- **A record** depends on the number of the lexeme just as far as it tells it. -/
theorem record_entry_add {n : Nat} (h : before + 1 < 2 ^ 32) :
    (l.entry (before + n) lexeme).value.record =
      ((l.entry before lexeme).value.movedBy n).record := by
  have hline : (l.entry (before + n) lexeme).value.line =
      ((l.entry before lexeme).value.movedBy n).line := by
    rw [Entry.movedBy, toNat_line_entry l lexeme h, line_entry, Nat.add_right_comm]
  have hmember : (l.entry (before + n) lexeme).value.resultMember =
      ((l.entry before lexeme).value.movedBy n).resultMember := by
    change _ = (l.entry before lexeme).value.resultMember
    rw [resultMember_entry, resultMember_entry]
    rfl
  rw [Entry.record, Entry.record, hline, hmember]
  simp only [Entry.movedBy, lexeme_entry, kind_entry]
  rfl

/-! ## Concatenation -/

variable {xs ys : List String}

/-- The entries for all lexemes of a listing. -/
def entries (l : Listing) (lexemes : List String) : List Entry :=
  lexemes.mapIdx fun i lexeme => (l.entry i lexeme).value

theorem map_record_entries (l : Listing) (lexemes : List String) :
    (l.entries lexemes).map Entry.record = lexemes.mapIdx l.record :=
  map_mapIdx _ _ lexemes

/-- The entries of a list after another are numbered on from the length of that one. -/
theorem toNat_line_movedBy (l : Listing) (h : (xs ++ ys).length < 2 ^ 32) :
    ((l.entries ys).map (Entry.movedBy xs.length)).map (·.line.toNat) =
      (l.entries ys).map (·.line.toNat + xs.length) := by
  rw [List.map_map]
  refine List.map_congr_left fun e he => ?_
  obtain ⟨i, hi, rfl⟩ := List.mem_mapIdx.mp he
  rw [List.length_append] at h
  have hline := toNat_line_entry l ys[i] (show i + 1 < 2 ^ 32 by omega)
  rw [Function.comp_apply, Entry.movedBy, UInt32.toNat_ofNat', hline]
  exact Nat.mod_eq_of_lt (by omega)

/-- **Records of a list after another** are the same but for their numbers. -/
theorem lines_append (hform : l.form = .records) (h : ys.length < 2 ^ 32) :
    l.lines (xs ++ ys) =
      l.lines xs ++ ((l.entries ys).map (Entry.movedBy xs.length)).map Entry.record := by
  rw [lines_records hform, lines_records hform, List.mapIdx_append]
  refine congrArg (xs.mapIdx l.record ++ ·) ?_
  rw [entries, map_mapIdx, map_mapIdx]
  refine List.mapIdx_eq_mapIdx_iff.mpr fun i hi => ?_
  exact record_entry_add (by omega)

/-- What is read from them is moved on as well. -/
theorem recorded_append (l : Listing) (xs ys : List String) :
    (xs ++ ys).mapIdx l.recorded =
      xs.mapIdx l.recorded ++ (ys.mapIdx l.recorded).map (Record.movedBy xs.length) := by
  rw [List.mapIdx_append, map_mapIdx]
  refine congrArg (_ ++ ·) (congrArg (List.mapIdx · ys) ?_)
  funext i lexeme
  have hmoved : i + xs.length + 1 = i + 1 + xs.length := Nat.add_right_comm i xs.length 1
  rw [recorded, hmoved]
  rfl

/-! ## Permutation -/

/-- The width of the column does not depend on the order of the lexemes. -/
theorem lexemeColumn_perm (h : xs.Perm ys) : lexemeColumn xs = lexemeColumn ys := by
  rw [lexemeColumn, lexemeColumn, (h.map String.length).foldl_eq]

/-- In the form of rows a line does not depend on the number of the lexeme. -/
theorem line_rows (hform : l.form = .rows) (column before other : Nat) (lexeme : String) :
    l.line column before lexeme = l.line column other lexeme := by
  rw [line, line, hform]
  exact rowText_entry l before other column lexeme

theorem lines_rows (hform : l.form = .rows) (lexemes : List String) :
    l.lines lexemes = lexemes.map (l.line (lexemeColumn lexemes) 0) := by
  refine List.ext_getElem? fun i => ?_
  rw [lines, List.getElem?_mapIdx, List.getElem?_map]
  exact congrArg (Option.map · lexemes[i]?) (funext (line_rows hform _ i 0))

/-- **Rows of permuted lexemes** are permuted in the same way. -/
theorem lines_permuted (hform : l.form = .rows) (lexemes : List String)
    (σ : Equiv.Perm (Fin lexemes.length)) :
    l.lines (List.ofFn fun i => lexemes[σ i]) =
      List.ofFn fun i => l.line (lexemeColumn lexemes) (σ i) lexemes[σ i] := by
  have hperm : (List.ofFn fun i => lexemes[σ i]).Perm lexemes := by
    have h := Equiv.Perm.ofFn_comp_perm σ lexemes.get
    rwa [List.ofFn_get] at h
  rw [lines_rows hform, lexemeColumn_perm hperm, List.map_ofFn]
  refine congrArg List.ofFn (funext fun i => ?_)
  exact line_rows hform _ 0 (σ i) _

/-! ## Reports -/

/-- What a listing writes without a limit. -/
def output (l : Listing) (lexemes : List String) : ByteArray :=
  (l.run lexemes .unlimited).value.2.written

theorem output_eq (l : Listing) (lexemes : List String) :
    l.output lexemes = (linesText (l.lines lexemes)).toUTF8 :=
  congrArg (·.2.written) (l.value_run_all lexemes)

theorem readRecords?_output (hform : l.form = .records) (h : xs.length < 2 ^ 32) :
    readRecords? (l.output xs) = some (xs.mapIdx l.recorded) := by
  rw [output_eq, lines_records hform]
  exact readRecords?_records xs h

/-- A record tells a value just if there is one. -/
theorem exists_outcome_recorded (l : Listing) (before : Nat) (lexeme : String) :
    (∃ v, (l.recorded before lexeme).outcome = .ok v) ↔ l.hasValue lexeme = true := by
  have hplace : (l.literal before lexeme).outcome = (l.literal 0 lexeme).outcome := rfl
  rw [recorded, hplace, Literal.outcome, hasValue]
  cases (l.literal 0 lexeme).resolve.value <;> simp [Resolution.isOk]

/-- The counts are clean just if every record tells a value. -/
theorem isClean_iff_recorded (l : Listing) (lexemes : List String) :
    (l.tallyFrom 0 .zero lexemes).isClean = true ↔
      ∀ r ∈ lexemes.mapIdx l.recorded, ∃ v, r.outcome = .ok v := by
  rw [isClean_tallyFrom_iff]
  constructor
  · rintro ⟨-, hall⟩ r hr
    obtain ⟨i, hi, rfl⟩ := List.mem_mapIdx.mp hr
    rw [exists_outcome_recorded, hasValue_iff]
    exact hall _ (List.getElem_mem hi)
  · intro hall
    refine ⟨rfl, fun lexeme hlexeme => ?_⟩
    obtain ⟨i, hi, rfl⟩ := List.mem_iff_getElem.mp hlexeme
    rw [← hasValue_iff, ← exists_outcome_recorded l i]
    exact hall _ (List.mem_mapIdx.mpr ⟨i, hi, rfl⟩)

end Listing

/-- **Reports are exact.** In both forms a run without a limit ends with the same counts: of the
lexemes that resolve as literals of their kind, wherever they stand, and of the others. They are
clean just if no record tells of a fault.

The records for two lists, one after the other, are those for the first and then those for the
second, the same but for their numbers, which the length of the first is added to; and so are the
records read from them. The rows for permuted lexemes are the rows for the lexemes, permuted in the
same way. -/
theorem report_exact (kind : Option Kind) (lexemes : List String) (h : lexemes.length < 2 ^ 32) :
    let rows : Listing := ⟨kind, .rows⟩
    let records : Listing := ⟨kind, .records⟩
    (∃ t rs, (rows.run lexemes .unlimited).value.1 = .ok t ∧
      (records.run lexemes .unlimited).value.1 = .ok t ∧
      (∀ span, let resolves (lexeme : String) : Bool :=
          (Literal.resolve ⟨kind.getD (Kind.guess lexeme), lexeme, span⟩).value.isOk
        t.valued = lexemes.countP resolves ∧ t.faulty = lexemes.countP (!resolves ·)) ∧
      t.valued + t.faulty = lexemes.length ∧
      readRecords? (records.output lexemes) = some rs ∧
      (t.isClean = true ↔ ∀ r ∈ rs, ∃ v, r.outcome = .ok v)) ∧
    (∀ xs ys, lexemes = xs ++ ys →
      let es := records.entries ys
      let moved := es.map (Entry.movedBy xs.length)
      records.output ys = (linesText (es.map Entry.record)).toUTF8 ∧
      records.output lexemes =
        records.output xs ++ (linesText (moved.map Entry.record)).toUTF8 ∧
      moved.map (·.line.toNat) = es.map (·.line.toNat + xs.length) ∧
      ∃ rs ss, readRecords? (records.output xs) = some rs ∧
        readRecords? (records.output ys) = some ss ∧
        readRecords? (records.output lexemes) =
          some (rs ++ ss.map (Record.movedBy xs.length))) ∧
    ∀ σ : Equiv.Perm (Fin lexemes.length),
      let row (i : Fin lexemes.length) := rows.line (Listing.lexemeColumn lexemes) i lexemes[i]
      rows.output lexemes = (linesText (List.ofFn row)).toUTF8 ∧
      rows.output (List.ofFn fun i => lexemes[σ i]) =
        (linesText (List.ofFn fun i => row (σ i))).toUTF8 := by
  intro rows records
  have htally : rows.tallyFrom 0 .zero lexemes = records.tallyFrom 0 .zero lexemes := by
    rw [Listing.tallyFrom_eq, Listing.tallyFrom_eq]
    rfl
  refine ⟨⟨records.tallyFrom 0 .zero lexemes, lexemes.mapIdx records.recorded, ?_,
    congrArg Prod.fst (records.value_run_all lexemes), fun span => ?_, ?_,
    Listing.readRecords?_output rfl h, records.isClean_iff_recorded lexemes⟩, ?_, fun σ => ?_⟩
  · rw [← htally]
    exact congrArg Prod.fst (rows.value_run_all lexemes)
  · rw [Listing.tallyFrom_eq]
    exact ⟨Nat.zero_add _, Nat.zero_add _⟩
  · rw [Listing.tallyFrom_eq]
    simp [Tally.zero, List.length_eq_countP_add_countP records.hasValue]
  · rintro xs ys rfl es moved
    have hlength := List.length_append ▸ h
    refine ⟨?_, ?_, records.toNat_line_movedBy h, xs.mapIdx records.recorded,
      ys.mapIdx records.recorded, Listing.readRecords?_output rfl (by omega),
      Listing.readRecords?_output rfl (by omega), ?_⟩
    · rw [Listing.output_eq, Listing.lines_records rfl, Listing.map_record_entries]
    · rw [Listing.output_eq, Listing.output_eq, Listing.lines_append rfl (by omega),
        linesText_append, toUTF8_append]
    · rw [Listing.readRecords?_output rfl h, Listing.recorded_append]
  · intro row
    rw [Listing.output_eq, Listing.output_eq, Listing.lines_permuted rfl lexemes σ, Listing.lines,
      List.mapIdx_eq_ofFn]
    exact ⟨rfl, rfl⟩

/-- A lexeme with a value and one without, in both orders. -/
theorem report_exact_mixed :
    let rows : Listing := ⟨none, .rows⟩
    let records : Listing := ⟨none, .records⟩
    ["null", "'"].length < 2 ^ 32 ∧
      (rows.run ["null", "'"] .unlimited).value.1 = .ok ⟨1, 1⟩ ∧
      (records.run ["null", "'"] .unlimited).value.1 = .ok ⟨1, 1⟩ ∧
      (∃ rs ss, readRecords? (records.output ["null"]) = some rs ∧
        readRecords? (records.output ["'"]) = some ss ∧
        readRecords? (records.output ["null", "'"]) = some (rs ++ ss.map (Record.movedBy 1))) ∧
      rows.output ["'", "null"] = (linesText
        ["'     string   error: String literal is not enclosed in matching quotes: '",
          "null  null     null"]).toUTF8 := by
  intro rows records
  have h : ["null", "'"].length < 2 ^ 32 := by decide
  obtain ⟨⟨t, _, hrows, hrecords, hcounts, -⟩, happend, hpermuted⟩ :=
    report_exact none ["null", "'"] h
  obtain ⟨hvalued, hfaulty⟩ := hcounts (rows.literal 0 "null").span
  have ht : t = ⟨1, 1⟩ :=
    Tally.ext (hvalued.trans (by decide +kernel)) (hfaulty.trans (by decide +kernel))
  rw [ht] at hrows hrecords
  obtain ⟨-, -, -, hread⟩ := happend ["null"] ["'"] rfl
  obtain ⟨-, hswapped⟩ := hpermuted (Equiv.swap 0 1)
  refine ⟨h, hrows, hrecords, hread, hswapped.trans ?_⟩
  exact congrArg (fun lines => (linesText lines).toUTF8) (by decide +kernel)

end ScriptLiteral
