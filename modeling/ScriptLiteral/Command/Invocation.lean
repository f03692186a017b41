import ScriptLiteral.Command.Options
import ScriptLiteral.Listing.Basic
import ScriptLiteral.Listing.Lexemes

/-!
# Invocations

What one call of the command does, as a function of its arguments and of what can be read. The
literals are those among the arguments and then those of the file; they are listed in that
order. The log goes to the standard error as far as the options ask for it, and so does the
failure that ends a run.

Two things about the log are no part of a call here. A level can be set in the environment, and
would then stand in place of the one that the options ask for; none is taken to be set. A clock
would put the time in front of each record; it is left out, and a record begins with its level.

The status of a call is 0 if every literal has a value, 1 if some have none, and 2 if the run
fails.
-/

namespace ScriptLiteral

/-! ## Texts -/

/-- The answer to a call without literals. -/
def usageText : String :=
  "\n" ++
  "Usage:\n" ++
  "  corten-lit '\"a\\x41\"' 0x1F null   Resolve literals given as arguments\n" ++
  "  corten-lit --file <FILE>          Resolve one literal per line\n" ++
  "  corten-lit --json --file -        Read stdin, print JSON lines\n" ++
  "\n" ++
  "Run 'corten-lit --help' for more options.\n"

/-- The answer to the option for the version. -/
def versionText : String := "corten-lit 0.1.0\n"

/-- The answer to the option for help. -/
def helpText : String :=
  "Resolve JavaScript literal lexemes to their values\n" ++
  "\n" ++
  "Usage: corten-lit [OPTIONS] [LITERAL]...\n" ++
  "\n" ++
  "Arguments:\n" ++
  "  [LITERAL]...  Raw literal lexemes, quotes included for strings (e.g. '\"a\\x41\"')\n" ++
  "\n" ++
  "Options:\n" ++
  "  -k, --kind <KIND>  Treat every lexeme as this kind instead of inferring it " ++
  "[possible values: null, number, string, regexp, template]\n" ++
  "  -f, --file <FILE>  Read one lexeme per line from FILE ('-' for stdin)\n" ++
  "      --json         Print one JSON object per literal\n" ++
  "  -v, --verbose...   Increase log verbosity (-v info, -vv debug, -vvv trace)\n" ++
  "  -h, --help         Print help\n" ++
  "  -V, --version      Print version\n"

/-- What is wrong with a command line, for the one who typed it. -/
def Stop.text : Stop → String
  | help => helpText
  | version => versionText
  | unknownOption => misuseText "there is no such option"
  | invalidValue => misuseText "an option lacks a value or has one that is not allowed"
  | repeated => misuseText "an option is given more than once"
  | unexpectedValue => misuseText "an option that takes no value has one"
where
  /-- The text for a command line that cannot be read. -/
  misuseText (what : String) : String := s!"error: {what}\n\nFor more information, try '--help'.\n"

namespace Stop

/-- Whether the call did what it was asked to. -/
def isAnswer : Stop → Bool
  | help => true
  | version => true
  | _ => false

/-- The status with which the call ends. -/
def status (s : Stop) : UInt32 := if s.isAnswer then 0 else 2

end Stop

/-- A failure as it is told at the end of a run; without literals the usage is told too. -/
def Failure.text (f : Failure) : String :=
  s!"Error: {f.message}\n" ++ if f = .nothingGiven then usageText else ""

/-! ## The log on the standard error -/

/-- A line break in a message is followed by an indent. -/
def indentChar (c : Char) : List Char := if c = '\n' then '\n' :: spaces 4 else [c]

/-- An event as it stands in the log, but for the time. -/
def Event.line (e : Event) : String :=
  s!"[{String.ofList (justify e.level.name.toList 5)} {e.target}] " ++
    String.ofList (e.message.toList.flatMap indentChar) ++ "\n"

/-- The events that are shown at a level: those of the level and of more urgent ones. -/
def shownAt (level : Level) (events : List Event) : List Event :=
  events.filter (·.level.rank ≤ level.rank)

/-- The log as it is shown at a level. -/
def logText (level : Level) (events : List Event) : String :=
  String.join ((shownAt level events).map Event.line)

/-! ## Calls -/

/-- What a call can read. -/
structure Inputs where
  /-- the bytes of the standard input, or why they cannot be read -/
  stdin : Except Reason ByteArray
  /-- the bytes of a file, or why they cannot be read -/
  file : String → Except Reason ByteArray

/-- What the given name stands for; a dash is the standard input. -/
def Inputs.content (inputs : Inputs) (name : String) : Except Reason ByteArray :=
  if name = "-" then inputs.stdin else inputs.file name

/-- What a call leaves behind. -/
structure Outcome where
  /-- the status -/
  status : UInt32
  /-- what was written to the standard output -/
  stdout : ByteArray
  /-- what was written to the standard error -/
  stderr : String

namespace Options

/-- All lexemes of a call: those among the arguments, then those of the file. -/
def lexemes (o : Options) (inputs : Inputs) : Except Failure (List String) := do
  let more ← match o.file with
    | some name => lexemesOfContent (inputs.content name)
    | none => pure []
  if (o.literals ++ more).isEmpty then throw .nothingGiven
  return o.literals ++ more

/-- The listing that the options ask for. -/
def listing (o : Options) : Listing := ⟨o.kind, if o.json then .records else .rows⟩

/-- The run that the options ask for: its result with its log, and what it wrote. -/
def run (o : Options) (inputs : Inputs) : Logged (Except Failure Tally × Sink) :=
  match o.lexemes inputs with
  | .ok lexemes => o.listing.run lexemes .unlimited
  | .error failure => pure (.error failure, .unlimited)

/-- What a call with the given options leaves behind. -/
def outcome (o : Options) (inputs : Inputs) : Outcome :=
  let r := o.run inputs
  let log := logText o.level r.events
  match r.value with
  | (.ok tally, sink) => ⟨if tally.isClean then 0 else 1, sink.written, log⟩
  | (.error failure, sink) => ⟨2, sink.written, log ++ failure.text⟩

end Options

/-- What a call with the given arguments leaves behind. -/
def invoke (args : List String) (inputs : Inputs) : Except Stop Outcome :=
  match Options.read args with
  | .ok o => .ok (o.outcome inputs)
  | .error stop => .error stop

end ScriptLiteral
