import ScriptLiteral.Proofs.FullSink
import ScriptLiteral.Proofs.JsonNumbers
import ScriptLiteral.Proofs.JsonReader

/-!
# Records can be read back

In the form of records a listing writes one JSON object for each lexeme on a line of its own. What a
program can find out from such a line is what `readRecord?` does: it takes the members of the object
and reads the value by the kind that stands beside it. A number comes back with all its bits, a
string as the text it was read as (`exists_datum`).

No record holds a control character, so the line feeds of the output are those at the ends of its
lines. From the bytes alone all records are read back, and nothing that a listing finds out is lost
except which unpaired surrogates a string had (`records_faithful`).
-/

namespace ScriptLiteral

open Json (Datum Writes IsPrintable)

/-! ## Numbers in JSON -/

namespace Binary64

variable {x : Binary64}

/-- The number that a value in JSON stands for: a numeral with its sign, or a name. -/
def ofDatum? : Datum → Option Binary64
  | .null => none
  | .number negative d => some (if negative then (ofDecimal d).opposite else ofDecimal d)
  | .string name => ofName? name

/-- A finite number is a number in JSON, with its sign, and is read back. -/
theorem exists_number_json (h : x.isFinite = true) :
    ∃ d, Writes x.json.toList (.number x.negative d) ∧
      ofDatum? (.number x.negative d) = some x := by
  have hm := (magnitude_lt_of_isFinite h).le
  refine ⟨x.jsonParts.decimal, ?_, ?_⟩
  · rw [json_eq h, withSign, String.toList_ofList]
    cases x.negative
    · exact Json.writes_numeral (isStrict_jsonParts h)
    · exact Json.writes_minus (isStrict_jsonParts h)
  · rw [ofDatum?, ofDecimal_jsonParts h]
    cases hneg : x.negative
    · exact congrArg some (ofMagnitude_magnitude hneg hm)
    · exact congrArg some (opposite_ofMagnitude hneg hm)

/-- Any other is the string of its name. -/
theorem json_of_not_isFinite (h : x.isFinite = false) : x.json = Json.quote x.text := by
  rw [json, h, if_neg Bool.false_ne_true]

/-- A number in JSON is read back, except for the bits of one that is none. -/
theorem exists_datum_json (x : Binary64) :
    ∃ d, Writes x.json.toList d ∧ ofDatum? d = some (if x.isNaN then nan else x) := by
  cases h : x.isFinite with
  | true =>
    obtain ⟨d, hd, hvalue⟩ := exists_number_json h
    rw [isNaN_of_isFinite h]
    exact ⟨_, hd, hvalue⟩
  | false =>
    refine ⟨.string x.text, ?_, ?_⟩
    · rw [json_of_not_isFinite h]
      exact Json.writes_quote x.text
    · rw [ofDatum?]
      cases hnan : x.isNaN with
      | true => exact ofName?_of_isNaN hnan
      | false => exact ofName?_of_isInfinite (isInfinite_of_not_isFinite h hnan)

end Binary64

/-! ## Values in JSON -/

/-- The value that the kind of a literal and a value in JSON tell together. -/
def Kind.valueOf? : Kind → Datum → Option Value
  | .null, .null => some .null
  | .number, d => (Binary64.ofDatum? d).map .number
  | .string, .string s => some (.string (.ofText s))
  | _, _ => none

/-- The value with what can be shown of a string in its place: the text it is read as. -/
def Value.legible : Value → Value
  | .string s => .string (.ofText s.lossy)
  | v => v

section Values

variable {l : Literal} {v : Value}

/-- A numeric literal has no other value that is no number than the one of them. -/
theorem value_numberValue_of_isNaN {text : String} (h : (numberValue text).value.isNaN = true) :
    (numberValue text).value = .nan := by
  unfold numberValue at h ⊢
  split
  · next x hx =>
    obtain ⟨v, -, hnear⟩ := numeralValue?_eq_some_iff.mp hx
    rw [hx] at h
    exact absurd h (by simpa using hnear.isNaN_eq_false)
  · rfl

/-- **Values** of literals are read back from JSON by the kind of the literal. -/
theorem exists_datum (h : l.resolve.value = .ok v) :
    ∃ d, Writes v.json.toList d ∧ l.kind.valueOf? d = some v.legible := by
  unfold Literal.resolve at h
  cases hk : l.kind with
  | null =>
    rw [hk] at h
    cases h
    exact ⟨.null, Json.writes_null, rfl⟩
  | number =>
    rw [hk] at h
    cases h
    obtain ⟨d, hd, hvalue⟩ := (numberValue l.text).value.exists_datum_json
    refine ⟨d, hd, ?_⟩
    have hkept : (if (numberValue l.text).value.isNaN then .nan else (numberValue l.text).value) =
        (numberValue l.text).value := by
      split
      · next hnan => exact (value_numberValue_of_isNaN hnan).symm
      · rfl
    rw [hkept] at hvalue
    exact congrArg (Option.map Value.number) hvalue
  | string =>
    simp only [hk, Logged.value_bind, Logged.value_pure] at h
    cases hs : (stringValue l.text).value with
    | error f =>
      rw [hs] at h
      cases h
    | ok s =>
      rw [hs] at h
      cases h
      exact ⟨.string s.lossy, Json.writes_quote s.lossy, rfl⟩
  | regularExpression =>
    rw [hk] at h
    cases h
  | template =>
    rw [hk] at h
    cases h

/-- Numerals hold no control character. -/
theorem isPrintable_of_numeralChars {cs : List Char} (h : ∀ c ∈ cs, c ∈ numeralChars) :
    IsPrintable cs := by
  have hall : IsPrintable numeralChars := Json.isPrintable_of_all (by decide)
  exact fun c hc => hall c (h c hc)

/-- No value in JSON holds a control character. -/
theorem isPrintable_json (v : Value) : IsPrintable v.json.toList := by
  cases v with
  | null => exact Json.isPrintable_of_all (by decide)
  | string s => exact Json.isPrintable_quote s.lossy
  | number x =>
    rw [Value.json]
    cases h : x.isFinite with
    | false =>
      rw [Binary64.json_of_not_isFinite h]
      exact Json.isPrintable_quote x.text
    | true =>
      have hchars : ∀ c ∈ x.jsonParts.text, c ∈ numeralChars :=
        fun c => NumeralParts.mem_numeralChars
      rw [Binary64.json_eq h, Binary64.withSign, String.toList_ofList]
      cases x.negative
      · exact isPrintable_of_numeralChars hchars
      · exact isPrintable_of_numeralChars (List.forall_mem_cons.mpr ⟨by decide, hchars⟩)

end Values

/-! ## Records as objects -/

namespace Entry

/-- The number of a lexeme is written in digits. -/
theorem toList_toString_line (e : Entry) :
    (toString e.line).toList = (NumeralParts.ofNat e.line.toNat).text :=
  (NumeralParts.text_ofNat _).symm

/-- No record holds a control character. -/
theorem isPrintable_record (e : Entry) : IsPrintable e.record.toList := by
  have hline : IsPrintable (toString e.line).toList := by
    rw [toList_toString_line]
    exact isPrintable_of_numeralChars fun c => NumeralParts.mem_numeralChars
  have hresult : IsPrintable e.resultMember.value.toList := by
    unfold resultMember
    cases e.result with
    | ok v => exact isPrintable_json v
    | error d => exact Json.isPrintable_quote d.message
  refine Json.isPrintable_object ?_
  simp only [List.forall_mem_cons]
  exact ⟨Json.isPrintable_quote _, Json.isPrintable_quote _, hline, hresult, by simp⟩

/-- A record is an object of four members, the last of which is for the result. -/
theorem readObject?_record {e : Entry} {name text : String} {d : Datum}
    (hresult : e.resultMember = ⟨name, text⟩) (hd : Writes text.toList d) :
    Json.readObject? e.record.toList =
      some [("raw", .string e.lexeme), ("kind", .string e.kind.tag),
        ("line", .number false ⟨e.line.toNat, 0⟩), (name, d)] := by
  have hline : Writes (toString e.line).toList (.number false ⟨e.line.toNat, 0⟩) := by
    rw [toList_toString_line, ← NumeralParts.decimal_ofNat]
    exact Json.writes_numeral (NumeralParts.isStrict_ofNat _)
  rw [record, hresult]
  refine Json.readObject?_object [(⟨"raw", Json.quote e.lexeme⟩, .string e.lexeme),
    (⟨"kind", e.kind.json⟩, .string e.kind.tag),
    (⟨"line", toString e.line⟩, .number false ⟨e.line.toNat, 0⟩), (⟨name, text⟩, d)] ?_
  simp only [List.forall_mem_cons]
  exact ⟨Json.writes_quote _, Json.writes_quote _, hline, hd, by simp⟩

theorem resultMember_of_ok {e : Entry} {v : Value} (h : e.result = .ok v) :
    e.resultMember = ⟨"value", v.json⟩ := by
  rw [resultMember, h]

theorem resultMember_of_error {e : Entry} {d : Diagnostic} (h : e.result = .error d) :
    e.resultMember = ⟨"error", Json.quote d.message⟩ := by
  rw [resultMember, h]

end Entry

/-! ## What a record says -/

/-- What a record says of a lexeme. -/
structure Record where
  /-- the lexeme -/
  raw : String
  /-- the kind it is taken for -/
  kind : Kind
  /-- its number, from one -/
  line : Nat
  /-- its value, or what is wrong with it -/
  outcome : Except String Value

/-- Reads the last member of a record: the value of a literal of the kind, or a message. -/
def readOutcome? (kind : Kind) : String × Datum → Option (Except String Value)
  | ("value", d) => (kind.valueOf? d).map .ok
  | ("error", .string message) => some (.error message)
  | _ => none

/-- Reads a record. -/
def readRecord? (line : List Char) : Option Record :=
  match Json.readObject? line with
  | some [("raw", .string raw), ("kind", .string tag), ("line", .number false ⟨n, 0⟩), result] =>
    (Kind.ofTag? tag).bind fun kind =>
      (readOutcome? kind result).map fun outcome => ⟨raw, kind, n, outcome⟩
  | _ => none

theorem Kind.ofTag?_tag (k : Kind) : ofTag? k.tag = some k := by
  cases k <;> decide

/-- What a literal resolves to, as far as a record can tell. -/
def Literal.outcome (l : Literal) : Except String Value :=
  match l.resolve.value with
  | .ok v => .ok v.legible
  | .error f => .error f.message

/-- The member is the value of a literal, to be read by its kind, or the message of its fault. -/
def TellsResult (l : Literal) (m : String × Datum) : Prop :=
  match l.resolve.value with
  | .ok v => m.1 = "value" ∧ l.kind.valueOf? m.2 = some v.legible
  | .error f => m = ("error", .string f.message)

theorem TellsResult.readOutcome?_eq {l : Literal} {m : String × Datum} (h : TellsResult l m) :
    readOutcome? l.kind m = some l.outcome := by
  unfold TellsResult at h
  unfold Literal.outcome
  cases hr : l.resolve.value with
  | ok v =>
    rw [hr] at h
    obtain ⟨name, d⟩ := m
    obtain ⟨rfl, hvalue⟩ := h
    exact congrArg (Option.map Except.ok) hvalue
  | error f =>
    rw [hr] at h
    rw [h]
    rfl

namespace Listing

/-- The record that a listing writes for a lexeme. -/
def record (l : Listing) (before : Nat) (lexeme : String) : String :=
  (l.entry before lexeme).value.record

/-- What it is to say. -/
def recorded (l : Listing) (before : Nat) (lexeme : String) : Record :=
  ⟨lexeme, (l.literal before lexeme).kind, before + 1, (l.literal before lexeme).outcome⟩

variable {l : Listing} {before : Nat} {lexeme : String}

/-- Numbers are exact as long as they fit. -/
theorem toNat_line_entry (l : Listing) (lexeme : String) (h : before + 1 < 2 ^ 32) :
    (l.entry before lexeme).value.line.toNat = before + 1 := by
  rw [line_entry, UInt32.toNat_ofNat']
  exact Nat.mod_eq_of_lt h

/-- **The members of a record** are the lexeme, its kind, its number and its result. -/
theorem exists_members (lexeme : String) (h : before + 1 < 2 ^ 32) :
    ∃ m, TellsResult (l.literal before lexeme) m ∧
      Json.readObject? (l.record before lexeme).toList =
        some [("raw", .string lexeme), ("kind", .string (l.literal before lexeme).kind.tag),
          ("line", .number false ⟨before + 1, 0⟩), m] := by
  have hline := toNat_line_entry l lexeme h
  have hentry := result_entry l before lexeme
  unfold TellsResult
  cases hr : (l.literal before lexeme).resolve.value with
  | ok v =>
    rw [hr] at hentry
    obtain ⟨d, hd, hvalue⟩ := exists_datum hr
    have hread := Entry.readObject?_record (Entry.resultMember_of_ok hentry) hd
    rw [lexeme_entry, kind_entry, hline] at hread
    exact ⟨("value", d), ⟨rfl, hvalue⟩, hread⟩
  | error f =>
    rw [hr] at hentry
    have hread := Entry.readObject?_record (Entry.resultMember_of_error hentry)
      (Json.writes_quote f.message)
    rw [lexeme_entry, kind_entry, hline] at hread
    exact ⟨("error", .string f.message), rfl, hread⟩

/-- **A record is read back.** -/
theorem readRecord?_record (h : before + 1 < 2 ^ 32) :
    readRecord? (l.record before lexeme).toList = some (l.recorded before lexeme) := by
  obtain ⟨m, hm, hread⟩ := exists_members (l := l) lexeme h
  rw [readRecord?, hread]
  simp only [Kind.ofTag?_tag, Option.bind_some, hm.readOutcome?_eq, Option.map_some]
  rfl

end Listing

/-! ## Lines of output -/

/-- Reads lines with a record on each and nothing after the last line feed. -/
def readLines? : List (List Char) → Option (List Record)
  | [] => none
  | [[]] => some []
  | line :: lines => (readRecord? line).bind fun r => (readLines? lines).map (r :: ·)

/-- Reads the bytes of an output. -/
def readRecords? (bytes : ByteArray) : Option (List Record) :=
  (String.fromUTF8? bytes).bind fun text => readLines? (splitLines text.toList)

section Lines

variable {line : List Char} {lines : List (List Char)} {r : Record}

/-- A line of output is read as its record. -/
theorem readLines?_cons (h : readRecord? line = some r) :
    readLines? (line :: lines) = (readLines? lines).map (r :: ·) := by
  cases line with
  | nil => cases h
  | cons c line => simp [readLines?, h]

end Lines

namespace Listing

variable {l : Listing}

/-- In the form of records the lines are the records. -/
theorem lines_records (hform : l.form = .records) (lexemes : List String) :
    l.lines lexemes = lexemes.mapIdx l.record := by
  refine congrArg (List.mapIdx · lexemes) ?_
  funext i lexeme
  rw [line, hform]
  rfl

/-- **Lines are read back**, each as the record of its lexeme. -/
theorem readLines?_records (before : Nat) (lexemes : List String)
    (h : before + lexemes.length < 2 ^ 32) :
    readLines? (splitLines (String.join
        ((lexemes.mapIdx fun i => l.record (before + i)).map (· ++ "\n"))).toList) =
      some (lexemes.mapIdx fun i => l.recorded (before + i)) := by
  induction lexemes generalizing before with
  | nil => rfl
  | cons lexeme lexemes ih =>
    rw [List.length_cons] at h
    have hline : '\n' ∉ (l.record before lexeme).toList :=
      (Entry.isPrintable_record _).not_mem
    rw [mapIdx_cons_from, mapIdx_cons_from, List.map_cons, String.join_cons, String.toList_append,
      String.toList_append, List.append_assoc, show "\n".toList = ['\n'] from rfl,
      List.singleton_append, splitLines_append hline, readLines?_cons (readRecord?_record (by omega)),
      ih (before + 1) (by omega), Option.map_some]

/-- **All records are read back** from the bytes of their lines. -/
theorem readRecords?_records (lexemes : List String) (h : lexemes.length < 2 ^ 32) :
    readRecords? (String.join ((lexemes.mapIdx l.record).map (· ++ "\n"))).toUTF8 =
      some (lexemes.mapIdx l.recorded) := by
  have hlines := readLines?_records (l := l) 0 lexemes (by omega)
  simp only [Nat.zero_add] at hlines
  rw [readRecords?, fromUTF8?_toUTF8, Option.bind_some, hlines]

end Listing

/-- **Records are faithful.** Written without a limit, the output is a line for each lexeme, ended
by the only line feed in it. The line is a JSON object of just four members: the lexeme itself, the
tag of its kind, its number from one, and its value, from which the kind makes out all that can be
shown of it, or else the message of its fault. From the bytes alone all of this is read back. -/
theorem records_faithful (kind : Option Kind) (lexemes : List String)
    (h : lexemes.length < 2 ^ 32) :
    let l : Listing := ⟨kind, .records⟩
    let r := (l.run lexemes .unlimited).value
    ∃ (tally : Tally) (lines : List String), r.1 = .ok tally ∧
      r.2.written = (String.join (lines.map (· ++ "\n"))).toUTF8 ∧
      lines.length = lexemes.length ∧ (∀ line ∈ lines, '\n' ∉ line.toList) ∧
      (∀ i lexeme, lexemes[i]? = some lexeme → ∃ line m, lines[i]? = some line ∧
        Json.readObject? line.toList =
          some [("raw", .string lexeme), ("kind", .string (kind.getD (Kind.guess lexeme)).tag),
            ("line", .number false ⟨i + 1, 0⟩), m] ∧
        TellsResult (l.literal i lexeme) m) ∧
      readRecords? r.2.written = some (lexemes.mapIdx l.recorded) := by
  intro l r
  have hrun : r = (.ok (l.tallyFrom 0 .zero lexemes), ⟨none,
      (String.join ((lexemes.mapIdx l.record).map (· ++ "\n"))).toUTF8⟩) := by
    rw [← Listing.lines_records rfl]
    exact l.value_run_all lexemes
  rw [hrun]
  refine ⟨_, lexemes.mapIdx l.record, rfl, rfl, List.length_mapIdx, fun line hline => ?_,
    fun i lexeme hlexeme => ?_, Listing.readRecords?_records lexemes h⟩
  · obtain ⟨i, hi, rfl⟩ := List.mem_mapIdx.mp hline
    exact (Entry.isPrintable_record _).not_mem
  · obtain ⟨hi, -⟩ := List.getElem?_eq_some_iff.mp hlexeme
    obtain ⟨m, hm, hread⟩ := Listing.exists_members (l := l) lexeme
      (by omega : i + 1 < 2 ^ 32)
    refine ⟨l.record i lexeme, m, ?_, hread, hm⟩
    rw [List.getElem?_mapIdx, hlexeme, Option.map_some]

/-- A lexeme with a line feed and without a closing quote, after one that has a value. -/
theorem records_faithful_unquoted :
    ["null", "'\n"].length < 2 ^ 32 ∧
      readRecords? (Listing.run ⟨none, .records⟩ ["null", "'\n"] .unlimited).value.2.written =
        some [⟨"null", .null, 1, .ok .null⟩, ⟨"'\n", .string, 2,
          .error "String literal is not enclosed in matching quotes: '\n"⟩] := by
  have h : ["null", "'\n"].length < 2 ^ 32 := by decide
  obtain ⟨_, _, _, _, _, _, _, hread⟩ := records_faithful none ["null", "'\n"] h
  exact ⟨h, hread⟩

end ScriptLiteral
