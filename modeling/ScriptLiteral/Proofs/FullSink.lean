import ScriptLiteral.Proofs.LexemeLines
import ScriptLiteral.Proofs.ListingOutput

/-!
# Output cut short

A sink of limited room takes the bytes of a row of chunks up to its room. If there are more, it is
full at the first byte that it does not take, and the chunk which that byte belongs to tells the
failure (`Sink.writeAll_cut`). The chunks of a listing are lines, each a row or a record with a line
feed of its own after it; so the byte stands inside a line or it is the line feed, and by that
failures to write records are told from failures to write plain text (`run_limited`).
-/

namespace ScriptLiteral

/-! ## Bytes up to a place -/

section Cut

variable {as bs : ByteArray} {n : Nat}

/-- Of bytes up to a place within the first part, the second part has none. -/
theorem extract_append_of_le (h : n ≤ as.size) : (as ++ bs).extract 0 n = as.extract 0 n := by
  have hnone : bs.extract (0 - as.size) (n - as.size) = ByteArray.empty :=
    ByteArray.extract_eq_empty_iff.mpr (by omega)
  rw [ByteArray.extract_append, hnone, ByteArray.append_empty]

/-- Of bytes up to a place after the first part, that part has all of its own. -/
theorem extract_append_of_ge (h : as.size ≤ n) :
    (as ++ bs).extract 0 n = as ++ bs.extract 0 (n - as.size) := by
  have hall : as.extract 0 n = as := by
    apply ByteArray.ext
    rw [ByteArray.data_extract]
    exact Array.extract_eq_self_of_le h
  rw [ByteArray.extract_append, hall, Nat.zero_sub]

end Cut

@[simp] theorem size_toUTF8 (text : String) : text.toUTF8.size = text.utf8ByteSize :=
  String.size_toByteArray

@[simp] theorem toUTF8_append (as bs : String) : (as ++ bs).toUTF8 = as.toUTF8 ++ bs.toUTF8 :=
  String.toByteArray_append

/-! ## Chunks in a sink of limited room -/

namespace Sink

/-- The bytes of chunks, one after the other. -/
def bytes (cs : List Chunk) : ByteArray := (String.join (cs.map Chunk.text)).toUTF8

/-- The layer that writes a byte, by the number of bytes before it. -/
def layerAt? : List Chunk → Nat → Option Layer
  | [], _ => none
  | c :: cs, n =>
    if n < c.text.utf8ByteSize then some c.layer else layerAt? cs (n - c.text.utf8ByteSize)

section Chunks

variable {as bs cs : List Chunk} {c : Chunk} {n room : Nat} {written : ByteArray}

@[simp] theorem bytes_nil : bytes [] = ByteArray.empty := rfl

@[simp] theorem bytes_cons : bytes (c :: cs) = c.text.toUTF8 ++ bytes cs := by
  rw [bytes, List.map_cons, String.join_cons, toUTF8_append]
  rfl

theorem size_bytes_cons : (bytes (c :: cs)).size = c.text.utf8ByteSize + (bytes cs).size := by
  rw [bytes_cons, ByteArray.size_append, size_toUTF8]

theorem bytes_append (as bs : List Chunk) : bytes (as ++ bs) = bytes as ++ bytes bs := by
  induction as with
  | nil => simp
  | cons c as ih => rw [List.cons_append, bytes_cons, bytes_cons, ih, ByteArray.append_assoc]

/-- Bytes of later chunks are counted from the end of the earlier ones. -/
theorem layerAt?_append (h : (bytes as).size ≤ n) :
    layerAt? (as ++ bs) n = layerAt? bs (n - (bytes as).size) := by
  induction as generalizing n with
  | nil => rfl
  | cons c as ih =>
    rw [size_bytes_cons] at h ⊢
    rw [List.cons_append, layerAt?, if_neg (by omega), ih (by omega), Nat.sub_sub]

/-- A chunk that fits is written as a whole. -/
theorem write_of_le (h : c.text.utf8ByteSize ≤ room) :
    write ⟨some room, written⟩ c =
      (none, ⟨some (room - c.text.utf8ByteSize), written ++ c.text.toUTF8⟩) := by
  simp only [write, size_toUTF8, if_pos h]

/-- Of a chunk that does not fit, the bytes that do are written. -/
theorem write_of_lt (h : room < c.text.utf8ByteSize) :
    write ⟨some room, written⟩ c =
      (some c.layer.full, ⟨some 0, written ++ c.text.toUTF8.extract 0 room⟩) := by
  simp only [write, size_toUTF8, if_neg (Nat.not_le.mpr h)]

/-- Chunks that fit are written, and the rest of the room is left. -/
theorem writeAll_fits (written : ByteArray) (h : (bytes cs).size ≤ room) :
    writeAll ⟨some room, written⟩ cs =
      (none, ⟨some (room - (bytes cs).size), written ++ bytes cs⟩) := by
  induction cs generalizing room written with
  | nil => simp [writeAll]
  | cons c cs ih =>
    rw [size_bytes_cons] at h ⊢
    rw [writeAll, write_of_le (by omega)]
    simp only
    rw [ih _ (by omega), bytes_cons, ByteArray.append_assoc, Nat.sub_sub]

/-- **A sink is full** at the first byte for which it has no room: it has taken the bytes before
it, and the failure is that of the layer which writes it. -/
theorem writeAll_cut (written : ByteArray) (h : room < (bytes cs).size) :
    ∃ layer, layerAt? cs room = some layer ∧
      writeAll ⟨some room, written⟩ cs =
        (some layer.full, ⟨some 0, written ++ (bytes cs).extract 0 room⟩) := by
  induction cs generalizing room written with
  | nil => simp at h
  | cons c cs ih =>
    rw [size_bytes_cons] at h
    obtain hc | hc := Nat.lt_or_ge room c.text.utf8ByteSize
    · -- the chunk itself does not fit
      refine ⟨c.layer, if_pos hc, ?_⟩
      have hle : room ≤ c.text.toUTF8.size := by
        rw [size_toUTF8]
        exact Nat.le_of_lt hc
      rw [writeAll, write_of_lt hc, bytes_cons, extract_append_of_le hle]
    · obtain ⟨layer, hlayer, hwrite⟩ :=
        @ih (room - c.text.utf8ByteSize) (written ++ c.text.toUTF8) (by omega)
      refine ⟨layer, ?_, ?_⟩
      · rw [layerAt?, if_neg (Nat.not_lt.mpr hc), hlayer]
      · have hle : c.text.toUTF8.size ≤ room := by
          rw [size_toUTF8]
          exact hc
        rw [writeAll, write_of_le hc, bytes_cons, extract_append_of_ge hle, size_toUTF8,
          ← ByteArray.append_assoc]
        exact hwrite

end Chunks

end Sink

/-! ## Lines -/

/-- The number of bytes before a line, by the number of lines before it. -/
def lineStart (lines : List String) (i : Nat) : Nat := (linesText (lines.take i)).utf8ByteSize

/-- The byte of the given number belongs to one of the lines itself. -/
def InLine (lines : List String) (n : Nat) : Prop :=
  ∃ (i : Nat) (line : String), lines[i]? = some line ∧ lineStart lines i ≤ n ∧
    n < lineStart lines i + line.utf8ByteSize

/-- The byte of the given number is the line feed after one of the lines. -/
def AtLineEnd (lines : List String) (n : Nat) : Prop :=
  ∃ (i : Nat) (line : String), lines[i]? = some line ∧
    n = lineStart lines i + line.utf8ByteSize

section Lines

variable {line : String} {lines : List String} {i n : Nat}

theorem utf8ByteSize_linesText_cons :
    (linesText (line :: lines)).utf8ByteSize =
      line.utf8ByteSize + 1 + (linesText lines).utf8ByteSize := by
  rw [linesText_cons, String.utf8ByteSize_append, String.utf8ByteSize_append]
  rfl

theorem lineStart_succ :
    lineStart (line :: lines) (i + 1) = line.utf8ByteSize + 1 + lineStart lines i :=
  utf8ByteSize_linesText_cons

/-- **Every byte of lines** belongs to a line or is a line feed after one. -/
theorem inLine_or_atLineEnd (h : n < (linesText lines).utf8ByteSize) :
    InLine lines n ∨ AtLineEnd lines n := by
  induction lines generalizing n with
  | nil => exact absurd h (Nat.not_lt_zero n)
  | cons line lines ih =>
    rw [utf8ByteSize_linesText_cons] at h
    have hstart : lineStart (line :: lines) 0 = 0 := rfl
    obtain hn | rfl | hn := Nat.lt_trichotomy n line.utf8ByteSize
    · exact .inl ⟨0, line, rfl, by omega, by omega⟩
    · exact .inr ⟨0, line, rfl, by omega⟩
    · obtain ⟨i, later, hi, hle, hlt⟩ | ⟨i, later, hi, heq⟩ :=
        @ih (n - (line.utf8ByteSize + 1)) (by omega)
      · refine .inl ⟨i + 1, later, hi, ?_, ?_⟩ <;> rw [lineStart_succ] <;> omega
      · refine .inr ⟨i + 1, later, hi, ?_⟩
        rw [lineStart_succ]
        omega

end Lines

/-! ## The lines of a listing -/

/-- The layer that writes the lines of a form, but for the line feeds after them. -/
def Form.layer : Form → Layer
  | rows => .plain
  | records => .json

/-- The chunks of a line. -/
def lineChunks (form : Form) (line : String) : List Chunk := [⟨form.layer, line⟩, ⟨.plain, "\n"⟩]

section LineChunks

variable {line : String} {lines : List String} {i n : Nat}

theorem bytes_lineChunks (form : Form) (lines : List String) :
    Sink.bytes (lines.flatMap (lineChunks form)) = (linesText lines).toUTF8 := by
  induction lines with
  | nil => rfl
  | cons line lines ih =>
    rw [List.flatMap_cons, Sink.bytes_append, ih, linesText_cons]
    simp [lineChunks]

/-- Bytes of a line are counted from its start. -/
theorem layerAt?_lineStart_add (h : lines[i]? = some line) (form : Form) (n : Nat) :
    ∃ later, Sink.layerAt? (lines.flatMap (lineChunks form)) (lineStart lines i + n) =
      Sink.layerAt? (⟨form.layer, line⟩ :: ⟨.plain, "\n"⟩ :: later) n := by
  obtain ⟨earlier, later, rfl, rfl⟩ :
      ∃ earlier later, lines = earlier ++ line :: later ∧ i = earlier.length := by
    obtain ⟨hi, rfl⟩ := List.getElem?_eq_some_iff.mp h
    refine ⟨lines.take i, lines.drop (i + 1), ?_, ?_⟩
    · rw [← List.drop_eq_getElem_cons hi, List.take_append_drop]
    · rw [List.length_take, Nat.min_eq_left (Nat.le_of_lt hi)]
  have hsize : (Sink.bytes (earlier.flatMap (lineChunks form))).size =
      lineStart (earlier ++ line :: later) earlier.length := by
    rw [bytes_lineChunks, size_toUTF8, lineStart, List.take_left]
  refine ⟨later.flatMap (lineChunks form), ?_⟩
  rw [List.flatMap_append, Sink.layerAt?_append (by omega), hsize, Nat.add_sub_cancel_left]
  rfl

/-- A byte of a line is written by the layer that writes the line. -/
theorem layerAt?_of_inLine (form : Form) (h : InLine lines n) :
    Sink.layerAt? (lines.flatMap (lineChunks form)) n = some form.layer := by
  obtain ⟨i, line, hline, hle, hlt⟩ := h
  obtain ⟨later, hlater⟩ := layerAt?_lineStart_add hline form (n - lineStart lines i)
  rw [Nat.add_sub_cancel' hle] at hlater
  rw [hlater, Sink.layerAt?, if_pos (Nat.sub_lt_left_of_lt_add hle hlt)]

/-- A line feed after a line is plain text. -/
theorem layerAt?_of_atLineEnd (form : Form) (h : AtLineEnd lines n) :
    Sink.layerAt? (lines.flatMap (lineChunks form)) n = some .plain := by
  obtain ⟨i, line, hline, rfl⟩ := h
  obtain ⟨later, hlater⟩ := layerAt?_lineStart_add hline form line.utf8ByteSize
  rw [hlater, Sink.layerAt?, if_neg (Nat.lt_irrefl _), Nat.sub_self]
  rfl

end LineChunks

/-- The line that is written for an entry. -/
def Entry.lineText (e : Entry) (column : Nat) : Form → String
  | .rows => e.rowText column
  | .records => e.record

theorem Entry.chunks_eq (e : Entry) (column : Nat) (form : Form) :
    e.chunks column form = lineChunks form (e.lineText column form) := by
  cases form <;> rfl

namespace Listing

/-- The line for a lexeme. -/
def line (l : Listing) (column before : Nat) (lexeme : String) : String :=
  (l.entry before lexeme).value.lineText column l.form

/-- The lines for all lexemes of a listing. -/
def lines (l : Listing) (lexemes : List String) : List String :=
  lexemes.mapIdx (l.line (lexemeColumn lexemes))

variable {l : Listing} {lexemes : List String} {room : Nat}

theorem chunksFrom_eq (l : Listing) (column before : Nat) (lexemes : List String) :
    l.chunksFrom column before lexemes =
      (lexemes.mapIdx fun i => l.line column (before + i)).flatMap (lineChunks l.form) := by
  induction lexemes generalizing before with
  | nil => rfl
  | cons lexeme lexemes ih =>
    rw [mapIdx_cons_from, List.flatMap_cons, ← ih (before + 1), chunksFrom, Entry.chunks_eq]
    rfl

/-- **A run writes its lines** and no more. -/
theorem value_run (l : Listing) (lexemes : List String) (sink : Sink) :
    (l.run lexemes sink).value =
      match sink.writeAll ((l.lines lexemes).flatMap (lineChunks l.form)) with
      | (none, sink) => (.ok (l.tallyFrom 0 .zero lexemes), sink)
      | (some failure, sink) => (.error failure, sink) := by
  have hlines := chunksFrom_eq l (lexemeColumn lexemes) 0 lexemes
  simp only [Nat.zero_add] at hlines
  rw [run, value_runFrom, hlines]
  rfl

/-- Without a limit, all lines are written. -/
theorem value_run_all (l : Listing) (lexemes : List String) :
    (l.run lexemes .unlimited).value =
      (.ok (l.tallyFrom 0 .zero lexemes), ⟨none, (linesText (l.lines lexemes)).toUTF8⟩) := by
  rw [value_run, Sink.unlimited, Sink.writeAll_unlimited, ← Sink.bytes, bytes_lineChunks,
    ByteArray.empty_append]

/-- With room for all lines, all of them are written. -/
theorem value_run_fits (h : (linesText (l.lines lexemes)).utf8ByteSize ≤ room) :
    (l.run lexemes (.limited room)).value =
      (.ok (l.tallyFrom 0 .zero lexemes),
        ⟨some (room - (linesText (l.lines lexemes)).utf8ByteSize),
          (linesText (l.lines lexemes)).toUTF8⟩) := by
  rw [← size_toUTF8, ← bytes_lineChunks l.form] at h ⊢
  rw [value_run, Sink.limited, Sink.writeAll_fits _ h, ByteArray.empty_append]

/-- With less room, the bytes that fit are written, and the next byte tells the failure. -/
theorem value_run_cut (h : room < (linesText (l.lines lexemes)).utf8ByteSize) :
    ∃ layer, Sink.layerAt? ((l.lines lexemes).flatMap (lineChunks l.form)) room = some layer ∧
      (l.run lexemes (.limited room)).value =
        (.error layer.full,
          ⟨some 0, (linesText (l.lines lexemes)).toUTF8.extract 0 room⟩) := by
  rw [← size_toUTF8, ← bytes_lineChunks l.form] at h
  obtain ⟨layer, hlayer, hwrite⟩ := Sink.writeAll_cut ByteArray.empty h
  refine ⟨layer, hlayer, ?_⟩
  rw [value_run, Sink.limited, hwrite, bytes_lineChunks, ByteArray.empty_append]

end Listing

/-- Of bytes up to the start of a line, no later line has any. -/
theorem extract_of_le_lineStart {lines : List String} {i n : Nat} (h : n ≤ lineStart lines i) :
    (linesText lines).toUTF8.extract 0 n = (linesText (lines.take i)).toUTF8.extract 0 n := by
  have hsplit : (linesText lines).toUTF8 =
      (linesText (lines.take i)).toUTF8 ++ (linesText (lines.drop i)).toUTF8 := by
    rw [← toUTF8_append, ← linesText_append, List.take_append_drop]
  rw [hsplit, extract_append_of_le (by rwa [size_toUTF8])]

/-- **A full sink cuts the output off** at its room and nowhere else. Let the lines of a listing be
all that it writes without a limit. If they fit, the run ends with the same counts, and the rest of
the room is left. If not, it has written as many of their first bytes as there is room, nothing of
lines that begin later, and it fails: as a writer of records if it writes records and the next byte
belongs to one, as a writer of plain text if that byte is the line feed after one or if it writes
rows. More room never makes a run fail. -/
theorem run_limited (l : Listing) (lexemes : List String) (room : Nat) :
    let full := (l.run lexemes .unlimited).value
    let cut := (l.run lexemes (.limited room)).value
    let lines := l.lines lexemes
    ∃ tally, full = (.ok tally, ⟨none, (linesText lines).toUTF8⟩) ∧
      (full.2.written.size ≤ room →
        cut = (.ok tally, ⟨some (room - full.2.written.size), full.2.written⟩)) ∧
      (room < full.2.written.size →
        cut.2 = ⟨some 0, full.2.written.extract 0 room⟩ ∧
        (∀ i, room ≤ lineStart lines i →
          cut.2.written = (linesText (lines.take i)).toUTF8.extract 0 room) ∧
        (InLine lines room ∨ AtLineEnd lines room) ∧
        (l.form = .records → InLine lines room → cut.1 = .error (.record .full)) ∧
        (l.form = .records → AtLineEnd lines room → cut.1 = .error (.transfer .full)) ∧
        (l.form = .rows → cut.1 = .error (.transfer .full))) ∧
      ∀ more, room ≤ more → cut.1 = .ok tally →
        (l.run lexemes (.limited more)).value.1 = .ok tally := by
  intro full cut lines
  have hfull : full = (.ok (l.tallyFrom 0 .zero lexemes), ⟨none, (linesText lines).toUTF8⟩) :=
    l.value_run_all lexemes
  refine ⟨l.tallyFrom 0 .zero lexemes, hfull, ?_⟩
  rw [hfull]
  simp only [size_toUTF8]
  refine ⟨Listing.value_run_fits, fun h => ?_, fun more hmore hok => ?_⟩
  · obtain ⟨layer, hlayer, hrun⟩ := Listing.value_run_cut h
    have hcut : cut = (.error layer.full, ⟨some 0, (linesText lines).toUTF8.extract 0 room⟩) := hrun
    have hplace := inLine_or_atLineEnd h
    have hin : InLine lines room → layer = l.form.layer := fun h =>
      Option.some.inj (hlayer.symm.trans (layerAt?_of_inLine l.form h))
    have hend : AtLineEnd lines room → layer = .plain := fun h =>
      Option.some.inj (hlayer.symm.trans (layerAt?_of_atLineEnd l.form h))
    rw [hcut]
    refine ⟨rfl, fun i => extract_of_le_lineStart, hplace, fun hform h => ?_, fun hform h => ?_,
      fun hform => ?_⟩
    · rw [hin h, hform]
      rfl
    · rw [hend h]
      rfl
    · rw [hform] at hin
      rw [hplace.elim hin hend]
      rfl
  · obtain h | h := Nat.lt_or_ge room (linesText lines).utf8ByteSize
    · -- a run that was cut off has not ended well
      obtain ⟨layer, -, hrun⟩ := Listing.value_run_cut h
      have hcut : cut.1 = .error layer.full := congrArg Prod.fst hrun
      rw [hcut] at hok
      cases hok
    · exact congrArg Prod.fst (Listing.value_run_fits (Nat.le_trans h hmore))

/-- There is room for the record but not for the line feed after it, or for all of it but a byte. -/
example :
    (Listing.run ⟨none, .records⟩ ["null"] (.limited 50)).value.1 = .error (.transfer .full) ∧
      (Listing.run ⟨none, .records⟩ ["null"] (.limited 49)).value.1 = .error (.record .full) :=
  ⟨rfl, rfl⟩

end ScriptLiteral
