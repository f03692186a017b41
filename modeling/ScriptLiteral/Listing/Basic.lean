import ScriptLiteral.Listing.Entry

/-!
# Listings

A listing takes lexemes one after the other, finds out what each stands for and writes its
entry. Lexemes without a value are written as such and counted; only a failure to write ends the
listing early. At the end the log tells the counts.
-/

namespace ScriptLiteral

/-! ## Counts -/

/-- How many lexemes had a value and how many had none. -/
@[ext] structure Tally where
  /-- the lexemes with a value -/
  valued : Nat
  /-- the lexemes without -/
  faulty : Nat
deriving DecidableEq

namespace Tally

/-- The counts before the first lexeme. -/
def zero : Tally := ⟨0, 0⟩

/-- The counts after one more lexeme, with or without a value. -/
def add (t : Tally) (hasValue : Bool) : Tally :=
  if hasValue then ⟨t.valued + 1, t.faulty⟩ else ⟨t.valued, t.faulty + 1⟩

/-- Whether every lexeme had a value. -/
def isClean (t : Tally) : Bool := t.faulty = 0

end Tally

/-! ## Listings -/

/-- How lexemes are listed. -/
structure Listing where
  /-- the kind that every lexeme is taken for, or `none` to go by its look -/
  kind : Option Kind
  /-- the form of the entries -/
  form : Form

namespace Listing

/-- The widest that the column for lexemes gets, the gap after it not counted. -/
def widestColumn : Nat := 24

/-- The width of the column for lexemes: that of the longest one, within bounds, and a gap of
two. -/
def lexemeColumn (lexemes : List String) : Nat :=
  min ((lexemes.map String.length).foldl max 0) widestColumn + 2

/-- The literal that a lexeme is taken for, if so many lexemes stand before it. -/
def literal (l : Listing) (before : Nat) (lexeme : String) : Literal :=
  ⟨l.kind.getD (Kind.guess lexeme), lexeme,
    Span.onLine ⟨UInt32.ofNat (before + 1), 1, 0⟩ lexeme.utf8ByteSize⟩

/-- The entry for a lexeme. -/
def entry (l : Listing) (before : Nat) (lexeme : String) : Logged Entry := do
  let literal := l.literal before lexeme
  let (r, _) ← (Token.ofLiteral literal).force
  let result := r.orDiagnostic literal.span
  if let .error diagnostic := result then Logged.tell (.failed diagnostic)
  return ⟨literal.span.start.line, literal.kind, lexeme, result⟩

/-- Lists lexemes after others that have been counted, and tells the counts at the end. -/
def runFrom (l : Listing) (column before : Nat) (tally : Tally) (sink : Sink) :
    List String → Logged (Except Failure Tally × Sink)
  | [] => do
    Logged.tell (.finished before tally.valued tally.faulty)
    return (.ok tally, sink)
  | lexeme :: lexemes => do
    let e ← l.entry before lexeme
    match sink.writeAll (e.chunks column l.form) with
    | (none, sink) => l.runFrom column (before + 1) (tally.add e.hasValue) sink lexemes
    | (some failure, sink) => return (.error failure, sink)

/-- Lists lexemes: the counts or the failure to write, and the sink after it. -/
def run (l : Listing) (lexemes : List String) (sink : Sink) :
    Logged (Except Failure Tally × Sink) :=
  l.runFrom (lexemeColumn lexemes) 0 .zero sink lexemes

end Listing

end ScriptLiteral
