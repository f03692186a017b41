import ScriptLiteral.Listing.Row
import ScriptLiteral.Listing.Sink
import ScriptLiteral.Token.Basic

/-!
# Entries

An entry is what a listing says of one lexeme: its kind, and its value or what is wrong with it.
It is written as a row of columns or as a JSON record on a line of its own.
-/

namespace ScriptLiteral

/-- In which form entries are written. -/
inductive Form
  /-- rows of columns, for people -/
  | rows
  /-- JSON records, for programs -/
  | records
deriving DecidableEq

/-- What a listing says of one lexeme. -/
structure Entry where
  /-- the number of the lexeme, from one -/
  line : UInt32
  /-- the kind it is taken for -/
  kind : Kind
  /-- the lexeme -/
  lexeme : String
  /-- its value, or what is wrong with it -/
  result : Except Diagnostic Value

namespace Entry

/-- Whether the lexeme has a value. -/
def hasValue (e : Entry) : Bool :=
  match e.result with
  | .ok _ => true
  | .error _ => false

/-! ## Rows -/

/-- A value as it stands in a row: strings in quotes, so that they stay on one line. -/
def valueText : Value → String
  | .string s => Json.quote s.lossy
  | v => v.display

/-- The last cell of the row. -/
def resultText (e : Entry) : String :=
  match e.result with
  | .ok v => valueText v
  | .error d => s!"error: {d.message}"

/-- The width of the column for kinds. -/
def kindColumn : Int := 9

/-- The entry as a row, with the lexeme in a column of the given width. -/
def rowText (e : Entry) (lexemeColumn : Nat) : String :=
  String.ofList (trimEnd (row
    [⟨e.lexeme.toList, lexemeColumn⟩, ⟨e.kind.name.toList, kindColumn⟩, ⟨e.resultText.toList, 0⟩]))

/-! ## Records -/

/-- The member of the record that tells the result. -/
def resultMember (e : Entry) : Json.Member :=
  match e.result with
  | .ok v => ⟨"value", v.json⟩
  | .error d => ⟨"error", Json.quote d.message⟩

/-- The entry as a JSON record. -/
def record (e : Entry) : String :=
  Json.object
    [⟨"raw", Json.quote e.lexeme⟩, ⟨"kind", e.kind.json⟩, ⟨"line", toString e.line⟩, e.resultMember]

/-! ## Output -/

/-- What is written of an entry. -/
def chunks (e : Entry) (lexemeColumn : Nat) : Form → List Chunk
  | .rows => [⟨.plain, e.rowText lexemeColumn⟩, ⟨.plain, "\n"⟩]
  | .records => [⟨.json, e.record⟩, ⟨.plain, "\n"⟩]

end Entry

end ScriptLiteral
