import ScriptLiteral.Literal.Resolve

/-!
# Literal tokens

A token is a literal with a cell for its resolution. The cell is empty at first; `force` fills
it when the resolution is first asked for, and from then on answers from it. Filling a cell is
told in the log, so the log, but no answer, tells whether a cell was full.

Two tokens are equal if their literals are; what their cells hold does not count.
-/

namespace ScriptLiteral

/-- A literal with a cell for what it resolves to. -/
@[ext] structure Token where
  /-- the literal -/
  literal : Literal
  /-- its resolution, once it has been asked for -/
  cell : Option Resolution

namespace Token

/-- A token whose cell is empty. -/
def ofLiteral (l : Literal) : Token := ⟨l, none⟩

/-- Whether the cell is full. -/
def isForced (t : Token) : Bool := t.cell.isSome

instance : BEq Token where
  beq t u := t.literal == u.literal

/-- The resolution of a token, and the token with its cell full. -/
def force (t : Token) : Logged (Resolution × Token) :=
  match t.cell with
  | some r => pure (r, t)
  | none => do
    let r ← t.literal.resolve
    Logged.tell (.cached t.literal.kind t.literal.text r.isOk)
    return (r, ⟨t.literal, some r⟩)

variable {t : Token} {l : Literal} {r : Resolution}

@[simp] theorem literal_ofLiteral : (ofLiteral l).literal = l := rfl

@[simp] theorem cell_ofLiteral : (ofLiteral l).cell = none := rfl

/-- A full cell is answered from, without a word. -/
theorem force_of_cell_eq_some (h : t.cell = some r) : t.force = ⟨(r, t), []⟩ := by
  simp only [force, h]
  rfl

/-- An empty cell is filled with the resolution of the literal. -/
theorem value_force_of_cell_eq_none (h : t.cell = none) :
    t.force.value = (t.literal.resolve.value, ⟨t.literal, some t.literal.resolve.value⟩) := by
  simp [force, h]

end Token

/-- A resolution with a fault as the report about a literal at the given span. -/
def Resolution.orDiagnostic (span : Span) : Resolution → Except Diagnostic Value
  | .ok v => .ok v
  | .error f => .error (f.diagnostic span)

end ScriptLiteral
