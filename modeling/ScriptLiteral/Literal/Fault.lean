import ScriptLiteral.Diagnostic
import ScriptLiteral.Literal.Kind

/-!
# Faults of literals

The reasons for which a literal has no value. A fault inside a string literal names the escape
that is wrong and the byte of the lexeme at which its backslash stands.
-/

namespace ScriptLiteral

/-- Why a literal has no value. -/
inductive Fault
  /-- an escape by an octal digit, which strict scripts do not allow -/
  | octalEscape (digit : Char) (offset : Nat)
  /-- an escape that breaks off or holds a character that is no hexadecimal digit -/
  | brokenEscape (source : String) (offset : Nat)
  /-- a string literal without a pair of equal quotes around it -/
  | unquoted (text : String)
  /-- a kind of literal that stands for no plain value -/
  | unsupported (kind : Kind)
deriving DecidableEq

namespace Fault

/-- What is wrong, in words. -/
def message : Fault → String
  | octalEscape digit offset =>
    s!"Octal escape sequences are not supported: `\\{digit}` at offset {offset}"
  | brokenEscape source offset => s!"Malformed escape sequence `{source}` at offset {offset}"
  | unquoted text => s!"String literal is not enclosed in matching quotes: {text}"
  | unsupported kind => s!"Not implemented: {kind.name} literals cannot be resolved"

/-- The byte of the lexeme at which the fault lies, where it lies at one. -/
def offset? : Fault → Option Nat
  | octalEscape _ offset => some offset
  | brokenEscape _ offset => some offset
  | unquoted _ => none
  | unsupported _ => none

/-- Who is at fault: the compiler for what it does not support, else the source text. -/
def category : Fault → Category
  | unsupported _ => .internalError
  | _ => .syntaxError

/-- The report about a literal that stands at the given span. -/
def diagnostic (f : Fault) (span : Span) : Diagnostic :=
  ⟨f.category, f.message, some span.start⟩

end Fault

end ScriptLiteral
