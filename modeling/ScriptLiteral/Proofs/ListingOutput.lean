import ScriptLiteral.Listing.Basic

/-!
# What a listing writes

A listing interleaves finding out what its lexemes stand for with writing about them, but the one
does not depend on the other. The entries can be made beforehand, and a run writes the chunks of all
of them in order, up to the first that does not fit (`Listing.value_runFrom`). The counts are those
of the lexemes that resolve and of the others (`Listing.tallyFrom_eq`).
-/

namespace ScriptLiteral

/-! ## Writing chunks -/

namespace Sink

/-- What is written of two lists of chunks is what is written of the first and, if all of it fits,
then what is written of the second. -/
theorem writeAll_append (s : Sink) (as bs : List Chunk) :
    s.writeAll (as ++ bs) =
      match s.writeAll as with
      | (none, s) => s.writeAll bs
      | (some failure, s) => (some failure, s) := by
  induction as generalizing s with
  | nil => rfl
  | cons c as ih =>
    simp only [List.cons_append, writeAll]
    rcases s.write c with ⟨_ | failure, s⟩
    · exact ih s
    · rfl

/-- A sink without a limit takes all chunks. -/
theorem writeAll_unlimited (written : ByteArray) (cs : List Chunk) :
    writeAll ⟨none, written⟩ cs =
      (none, ⟨none, written ++ (String.join (cs.map Chunk.text)).toUTF8⟩) := by
  induction cs generalizing written with
  | nil => simp [writeAll, String.toUTF8]
  | cons c cs ih =>
    simp only [writeAll, write]
    rw [ih, List.map_cons, String.join_cons, String.toUTF8, String.toUTF8, String.toUTF8,
      String.toByteArray_append, ByteArray.append_assoc]

end Sink

namespace Listing

/-! ## Entries -/

section Entries

variable {l : Listing} {before : Nat} {lexeme : String}

/-- The entry for a lexeme tells its number, its kind and what it resolves to. -/
theorem value_entry (l : Listing) (before : Nat) (lexeme : String) :
    (l.entry before lexeme).value =
      ⟨UInt32.ofNat (before + 1), (l.literal before lexeme).kind, lexeme,
        (l.literal before lexeme).resolve.value.orDiagnostic (l.literal before lexeme).span⟩ := by
  simp only [entry, Logged.value_bind, Token.value_force_of_cell_eq_none Token.cell_ofLiteral,
    Token.literal_ofLiteral]
  -- a fault is told in the log, which has no part in the entry
  cases (l.literal before lexeme).resolve.value <;> rfl

@[simp] theorem line_entry :
    (l.entry before lexeme).value.line = UInt32.ofNat (before + 1) := by
  rw [value_entry]

@[simp] theorem kind_entry :
    (l.entry before lexeme).value.kind = (l.literal before lexeme).kind := by
  rw [value_entry]

@[simp] theorem lexeme_entry : (l.entry before lexeme).value.lexeme = lexeme := by
  rw [value_entry]

theorem result_entry (l : Listing) (before : Nat) (lexeme : String) :
    (l.entry before lexeme).value.result =
      (l.literal before lexeme).resolve.value.orDiagnostic (l.literal before lexeme).span := by
  rw [value_entry]

/-- Whether a lexeme resolves to a value, wherever it stands. -/
def hasValue (l : Listing) (lexeme : String) : Bool := (l.literal 0 lexeme).resolve.value.isOk

/-- An entry has a value just if its lexeme resolves to one. -/
theorem hasValue_entry (l : Listing) (before : Nat) (lexeme : String) :
    (l.entry before lexeme).value.hasValue = l.hasValue lexeme := by
  -- the place of a literal has no part in its value
  have hplace : (l.literal 0 lexeme).resolve = (l.literal before lexeme).resolve := rfl
  rw [Entry.hasValue, result_entry, hasValue, hplace]
  cases (l.literal before lexeme).resolve.value <;> rfl

end Entries

/-- Numbering lexemes from some number on, the first one has that number. -/
theorem mapIdx_cons_from {α : Type} (f : Nat → String → α) (before : Nat) (lexeme : String)
    (lexemes : List String) :
    ((lexeme :: lexemes).mapIdx fun i => f (before + i)) =
      f before lexeme :: lexemes.mapIdx fun i => f (before + 1 + i) := by
  have hshift : (fun i => f (before + (i + 1))) = fun i => f (before + 1 + i) := by
    funext i
    rw [Nat.add_right_comm, Nat.add_assoc]
  rw [List.mapIdx_cons, hshift, Nat.add_zero]

/-- The chunks of all entries. -/
def chunksFrom (l : Listing) (column before : Nat) : List String → List Chunk
  | [] => []
  | lexeme :: lexemes =>
    (l.entry before lexeme).value.chunks column l.form ++ l.chunksFrom column (before + 1) lexemes

/-- The counts after all lexemes. -/
def tallyFrom (l : Listing) (before : Nat) (tally : Tally) : List String → Tally
  | [] => tally
  | lexeme :: lexemes =>
    l.tallyFrom (before + 1) (tally.add (l.entry before lexeme).value.hasValue) lexemes

/-- The counts grow by the lexemes that resolve and by those that do not. -/
theorem tallyFrom_eq (l : Listing) (before : Nat) (tally : Tally) (lexemes : List String) :
    l.tallyFrom before tally lexemes =
      ⟨tally.valued + lexemes.countP l.hasValue, tally.faulty + lexemes.countP (!l.hasValue ·)⟩ := by
  induction lexemes generalizing before tally with
  | nil => rfl
  | cons lexeme lexemes ih =>
    rw [tallyFrom, ih, List.countP_cons, List.countP_cons, hasValue_entry]
    cases l.hasValue lexeme <;> simp [Tally.add] <;> omega

/-! ## Runs -/

/-- **A run writes the chunks of its entries** in order, and fails just if one does not fit. -/
theorem value_runFrom (l : Listing) (column before : Nat) (tally : Tally) (sink : Sink)
    (lexemes : List String) :
    (l.runFrom column before tally sink lexemes).value =
      match sink.writeAll (l.chunksFrom column before lexemes) with
      | (none, sink) => (.ok (l.tallyFrom before tally lexemes), sink)
      | (some failure, sink) => (.error failure, sink) := by
  induction lexemes generalizing before tally sink with
  | nil => rfl
  | cons lexeme lexemes ih =>
    simp only [runFrom, chunksFrom, tallyFrom, Sink.writeAll_append, Logged.value_bind]
    rcases sink.writeAll ((l.entry before lexeme).value.chunks column l.form) with ⟨_ | failure, s⟩
    · exact ih _ _ _
    · rfl

end Listing

end ScriptLiteral
