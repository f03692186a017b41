import ScriptLiteral.Literal.Fault
import ScriptLiteral.Text.Visible

/-!
# The log

What the library has to tell about its work, apart from its results. Each `Event` belongs to a
level and to the part of the work it comes from, its target. A `Logged` result carries the
events of its computation in the order in which they came about, so that telling of them is no
effect.
-/

namespace ScriptLiteral

/-! ## Levels -/

/-- How urgent an event is. -/
inductive Level
  /-- something is likely wrong -/
  | warn
  /-- the outcome for one literal -/
  | info
  /-- the steps of the work -/
  | debug
  /-- the finest detail -/
  | trace
deriving DecidableEq

namespace Level

/-- The name at the head of a log line. -/
def name : Level → String
  | warn => "WARN"
  | info => "INFO"
  | debug => "DEBUG"
  | trace => "TRACE"

/-- The name of the setting that shows the level and all more urgent ones. -/
def setting : Level → String
  | warn => "warn"
  | info => "info"
  | debug => "debug"
  | trace => "trace"

/-- The place in the order from the most urgent level. -/
def rank : Level → Nat
  | warn => 0
  | info => 1
  | debug => 2
  | trace => 3

end Level

/-! ## Events -/

/-- Something worth telling. -/
inductive Event
  /-- a string literal held no escape, and so many bytes -/
  | plainString (bytes : Nat)
  /-- the text of a numeric literal is no numeral -/
  | notANumber (text : String)
  /-- a literal of this kind has no value -/
  | noValue (kind : Kind) (text : String)
  /-- the result of a token was worked out and kept -/
  | cached (kind : Kind) (text : String) (ok : Bool)
  /-- a lexeme has no value, for the reason given -/
  | failed (diagnostic : Diagnostic)
  /-- all lexemes are done -/
  | finished (lexemes resolved failed : Nat)
deriving DecidableEq

namespace Event

/-- How urgent the event is. -/
def level : Event → Level
  | plainString _ => .trace
  | notANumber _ => .warn
  | noValue _ _ => .debug
  | cached _ _ _ => .debug
  | failed _ => .info
  | finished _ _ _ => .debug

/-- The part of the work that the event comes from. -/
def target : Event → String
  | plainString _ => "literals::escape"
  | notANumber _ => "literals::number"
  | noValue _ _ => "literals::resolver"
  | cached _ _ _ => "literals::token"
  | failed _ => "literal_cli::inspector"
  | finished _ _ _ => "literal_cli::inspector"

/-- The event in words. -/
def message : Event → String
  | plainString bytes => s!"string literal without escapes, {bytes} bytes"
  | notANumber text => s!"numeric literal {visible text} does not convert to a number"
  | noValue kind text => s!"no value representation for {kind.name} literal {text}"
  | cached kind text true => s!"cached {kind.name} literal {text} (ok)"
  | cached kind text false => s!"cached {kind.name} literal {text} (error)"
  | failed diagnostic => diagnostic.text
  | finished lexemes valued faulty =>
    s!"inspected {lexemes} literals: {valued} resolved, {faulty} failed"

end Event

/-! ## Results with a log -/

/-- A result together with the events on the way to it. -/
@[ext] structure Logged (α : Type) where
  /-- the result -/
  value : α
  /-- the events, in order -/
  events : List Event

namespace Logged

variable {α β : Type}

/-- A result without events. -/
protected def pure (a : α) : Logged α := ⟨a, []⟩

/-- Goes on from a result, with the later events after the earlier ones. -/
protected def bind (x : Logged α) (f : α → Logged β) : Logged β :=
  ⟨(f x.value).value, x.events ++ (f x.value).events⟩

instance : Monad Logged where
  pure := Logged.pure
  bind := Logged.bind

/-- The telling of one event. -/
def tell (e : Event) : Logged Unit := ⟨(), [e]⟩

@[simp] theorem value_pure (a : α) : (pure a : Logged α).value = a := rfl

@[simp] theorem events_pure (a : α) : (pure a : Logged α).events = [] := rfl

@[simp] theorem value_bind (x : Logged α) (f : α → Logged β) :
    (x >>= f).value = (f x.value).value := rfl

@[simp] theorem events_bind (x : Logged α) (f : α → Logged β) :
    (x >>= f).events = x.events ++ (f x.value).events := rfl

@[simp] theorem value_map (f : α → β) (x : Logged α) : (f <$> x).value = f x.value := rfl

@[simp] theorem events_map (f : α → β) (x : Logged α) : (f <$> x).events = x.events := by
  simp [Functor.map, Logged.bind, Logged.pure]

@[simp] theorem events_tell (e : Event) : (tell e).events = [e] := rfl

instance : LawfulMonad Logged := LawfulMonad.mk' Logged
  (fun x => by simp [Functor.map, Logged.bind, Logged.pure])
  (fun _ _ => rfl)
  (fun x f g => by simp [bind, Logged.bind, List.append_assoc])

end Logged

end ScriptLiteral
