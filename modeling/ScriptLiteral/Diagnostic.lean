import ScriptLiteral.Span

/-!
# Diagnostics

What a compiler tells its user: whether the source text or the compiler is at fault, in which
way, and where.
-/

namespace ScriptLiteral

/-- Who is at fault. -/
inductive Category
  /-- the source text breaks a rule of the language -/
  | syntaxError
  /-- the text is in order, but the compiler cannot deal with it -/
  | internalError
deriving DecidableEq

/-- The name under which an error is reported. -/
def Category.name : Category → String
  | .syntaxError => "SyntaxError"
  | .internalError => "InternalError"

/-- A report about the source text. -/
@[ext] structure Diagnostic where
  /-- who is at fault -/
  category : Category
  /-- what is wrong -/
  message : String
  /-- where it is wrong, if at one place -/
  position : Option Position
deriving DecidableEq

/-- A diagnostic on one line: name, message and, where there is one, the position in
parentheses. -/
def Diagnostic.text (d : Diagnostic) : String :=
  s!"{d.category.name}: {d.message}" ++
    match d.position with
    | some p => s!" ({p.text})"
    | none => ""

end ScriptLiteral
