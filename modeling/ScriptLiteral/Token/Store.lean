import ScriptLiteral.Token.Basic

/-!
# Stores of tokens

A store holds tokens by number, in the order in which they were added. A `Request` adds a token
or asks about the ones there are; tokens are never removed. `Store.answer` gives the reply and
the store after it.

A clone takes the cell of its model with it; a token made afresh from the same literal starts
with an empty one.
-/

namespace ScriptLiteral

/-- Tokens, numbered from zero. -/
abbrev Store := List Token

/-- What may be asked of a store. -/
inductive Request
  /-- to add a token for a literal -/
  | add (literal : Literal)
  /-- to add a copy of a token, its cell included -/
  | clone (t : Nat)
  /-- to add a token for the literal of another -/
  | fresh (t : Nat)
  /-- the value of a token or its fault -/
  | resolve (t : Nat)
  /-- the value of a token or the report about its fault -/
  | diagnose (t : Nat)
  /-- the literal of a token -/
  | describe (t : Nat)
  /-- whether two tokens are equal, and whether their literals are -/
  | equal (t u : Nat)
  /-- whether two tokens have the same value or the same fault -/
  | sameValue (t u : Nat)

/-- What a store replies. -/
inductive Reply
  /-- the number of the token added -/
  | added (t : Nat)
  /-- what a token resolves to -/
  | resolution (r : Resolution)
  /-- the value of a token or the report about its fault -/
  | report (r : Except Diagnostic Value)
  /-- the literal of a token -/
  | literal (l : Literal)
  /-- whether two tokens are equal, and whether their literals are -/
  | equality (tokens literals : Bool)
  /-- whether two tokens resolve to the same -/
  | same (b : Bool)
  /-- there is no token of that number -/
  | missing

namespace Store

/-- The store with one more token, and its number. -/
def push (s : Store) (t : Token) : Reply × Store := (.added s.length, s ++ [t])

/-- The resolution of a token, and the store with its cell full; nothing if there is no such
token. -/
def force (s : Store) (t : Nat) : Logged (Option Resolution × Store) :=
  match s[t]? with
  | none => pure (none, s)
  | some token => do
    let (r, token) ← token.force
    return (some r, s.set t token)

/-- The reply to a request, and the store after it. -/
def answer (s : Store) : Request → Logged (Reply × Store)
  | .add l => pure (s.push (.ofLiteral l))
  | .clone t =>
    match s[t]? with
    | some token => pure (s.push token)
    | none => pure (.missing, s)
  | .fresh t =>
    match s[t]? with
    | some token => pure (s.push (.ofLiteral token.literal))
    | none => pure (.missing, s)
  | .resolve t => do
    match ← s.force t with
    | (some r, s) => return (.resolution r, s)
    | (none, s) => return (.missing, s)
  | .diagnose t => do
    match s[t]?, ← s.force t with
    | some token, (some r, s) => return (.report (r.orDiagnostic token.literal.span), s)
    | _, (_, s) => return (.missing, s)
  | .describe t =>
    match s[t]? with
    | some token => pure (.literal token.literal, s)
    | none => pure (.missing, s)
  | .equal t u =>
    match s[t]?, s[u]? with
    | some a, some b => pure (.equality (a == b) (a.literal == b.literal), s)
    | _, _ => pure (.missing, s)
  | .sameValue t u => do
    let (a, s) ← s.force t
    let (b, s) ← s.force u
    match a, b with
    | some a, some b => return (.same (a.same b), s)
    | _, _ => return (.missing, s)

/-- The replies to a sequence of requests, each with its log and the store after it. -/
def answers (s : Store) : List Request → List (Logged (Reply × Store))
  | [] => []
  | r :: rs => s.answer r :: answers (s.answer r).value.2 rs

end Store

end ScriptLiteral
