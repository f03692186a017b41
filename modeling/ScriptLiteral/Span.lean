import ScriptLiteral.Json.Quoted

/-!
# Spans of source text

A position is a place in a source file, by line, column and byte offset; a span reaches from one
position up to another. Lines and columns are 32-bit counters and offsets 64-bit ones. A counter
that would pass its greatest value stays there.
-/

namespace ScriptLiteral

/-! ## Positions -/

/-- A place in a source file. -/
@[ext] structure Position where
  /-- the line, from one -/
  line : UInt32
  /-- the column, from one -/
  column : UInt32
  /-- the bytes before the place -/
  offset : UInt64
deriving DecidableEq

/-- A position is shown by its line and column. -/
def Position.text (p : Position) : String := s!"{p.line}:{p.column}"

/-- A position as a JSON object. -/
def Position.json (p : Position) : String :=
  Json.object
    [⟨"line", toString p.line⟩, ⟨"column", toString p.column⟩, ⟨"offset", toString p.offset⟩]

-- powers of natural numbers are those of the core library, whatever else is imported
attribute [local instance (high)] instPowNat

/-- The position `bytes` further on the same line, each counter held at its greatest value. -/
def Position.advance (p : Position) (bytes : Nat) : Position where
  line := p.line
  column := UInt32.ofNat (min (p.column.toNat + bytes) (2 ^ (32 : Nat) - 1))
  offset := UInt64.ofNat (min (p.offset.toNat + bytes) (2 ^ (64 : Nat) - 1))

/-! ## Spans -/

/-- The part of a source file from one position up to another. -/
@[ext] structure Span where
  /-- the first character -/
  start : Position
  /-- the place just past the last character -/
  stop : Position
deriving DecidableEq

namespace Span

/-- The span of no text, at no place in particular. -/
def nowhere : Span := ⟨⟨0, 0, 0⟩, ⟨0, 0, 0⟩⟩

instance : Inhabited Span where
  default := nowhere

/-- The span of so many bytes on one line. -/
def onLine (start : Position) (bytes : Nat) : Span := ⟨start, start.advance bytes⟩

/-- The number of bytes covered; a span that ends before it starts covers none. -/
def length (s : Span) : Nat := s.stop.offset.toNat - s.start.offset.toNat

/-- Whether no byte is covered. -/
def isEmpty (s : Span) : Bool := s.length = 0

/-- A span is shown by its two positions. -/
def text (s : Span) : String := s!"{s.start.text}-{s.stop.text}"

/-- A span as a JSON object. -/
def json (s : Span) : String := Json.object [⟨"start", s.start.json⟩, ⟨"end", s.stop.json⟩]

end Span

end ScriptLiteral
