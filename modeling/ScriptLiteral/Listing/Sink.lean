import ScriptLiteral.Listing.Failure

/-!
# Sinks

A sink takes bytes until its room is used up. Of a text that does not fit it takes the bytes
that do, and then it fails. An unlimited sink has room for everything.

Output comes in chunks, each with the layer that writes it, which decides as what a failure to
write counts.
-/

namespace ScriptLiteral

/-! ## Chunks -/

/-- Who writes a chunk. -/
inductive Layer
  /-- the writer of JSON records -/
  | json
  /-- the writer of plain text -/
  | plain
deriving DecidableEq

/-- The failure that a full sink means to a layer. -/
def Layer.full : Layer → Failure
  | json => .record .full
  | plain => .transfer .full

/-- A text to write, and who writes it. -/
structure Chunk where
  /-- who writes it -/
  layer : Layer
  /-- the text -/
  text : String

/-! ## Writing -/

/-- What output is written to. -/
structure Sink where
  /-- the number of bytes that it still takes, or `none` if there is no limit -/
  room : Option Nat
  /-- the bytes that it has taken -/
  written : ByteArray

namespace Sink

/-- A sink that takes everything. -/
def unlimited : Sink := ⟨none, ByteArray.empty⟩

/-- A sink that takes so many bytes. -/
def limited (room : Nat) : Sink := ⟨some room, ByteArray.empty⟩

/-- Writes one chunk; the failure, if it does not fit. -/
def write (s : Sink) (c : Chunk) : Option Failure × Sink :=
  let bytes := c.text.toUTF8
  match s.room with
  | none => (none, ⟨none, s.written ++ bytes⟩)
  | some n =>
    if bytes.size ≤ n then (none, ⟨some (n - bytes.size), s.written ++ bytes⟩)
    else (some c.layer.full, ⟨some 0, s.written ++ bytes.extract 0 n⟩)

/-- Writes chunks one after the other, up to the first that does not fit. -/
def writeAll (s : Sink) : List Chunk → Option Failure × Sink
  | [] => (none, s)
  | c :: cs =>
    match s.write c with
    | (none, s) => s.writeAll cs
    | (some e, s) => (some e, s)

end Sink

end ScriptLiteral
