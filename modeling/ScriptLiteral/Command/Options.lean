import ScriptLiteral.Literal.Kind
import ScriptLiteral.Log
import ScriptLiteral.Text.Split

/-!
# Command-line options

The arguments of a command are options and literals in any order. An option has a long name
after two dashes, and most have a short one after a single dash; several short ones may share
their dash. Options that take a value take it from the same argument, after an equals sign or
right after the short name, or else from the next argument that has no dash in front; a dash
alone is such an argument. Two dashes alone end the options: all that follows is literals.

An option that waits for its value is settled as late as possible, when the next option or
literal takes effect or the arguments end. So a name that does not exist is told first even if
the value before it is wrong.
-/

namespace ScriptLiteral

/-! ## Options -/

/-- What a command line asks for. -/
@[ext] structure Options where
  /-- the literals given as arguments, in order -/
  literals : List String
  /-- the kind that every literal is to be taken for -/
  kind : Option Kind
  /-- the file with further literals -/
  file : Option String
  /-- whether JSON records are asked for -/
  json : Bool
  /-- how often more log was asked for, up to 255 -/
  verbosity : Nat
deriving DecidableEq

namespace Options

/-- The options of an empty command line. -/
def empty : Options := ⟨[], none, none, false, 0⟩

/-- The greatest verbosity that is told apart. -/
def maxVerbosity : Nat := 255

/-- The least urgent level of the log that is shown. -/
def level (o : Options) : Level :=
  match o.verbosity with
  | 0 => .warn
  | 1 => .info
  | 2 => .debug
  | _ => .trace

end Options

/-- Why a command line is not carried out. -/
inductive Stop
  /-- help was asked for -/
  | help
  /-- the version was asked for -/
  | version
  /-- there is no option of that name -/
  | unknownOption
  /-- an option lacks its value, or the value is none of those allowed -/
  | invalidValue
  /-- an option was given twice that may be given once -/
  | repeated
  /-- an option without a value was given one -/
  | unexpectedValue
deriving DecidableEq

/-- The options that take no value. -/
inductive Switch
  /-- JSON records are asked for -/
  | json
  /-- more log is asked for -/
  | verbose
  /-- help is asked for -/
  | help
  /-- the version is asked for -/
  | version
deriving DecidableEq

/-- The options that take a value. -/
inductive Setting
  /-- the kind of all literals -/
  | kind
  /-- a file with literals -/
  | file
deriving DecidableEq

/-- An option by its name. -/
inductive Named
  /-- one without a value -/
  | switch (s : Switch)
  /-- one with a value -/
  | setting (s : Setting)
deriving DecidableEq

/-- The option of a long name. -/
def Named.ofLong? (name : List Char) : Option Named :=
  match String.ofList name with
  | "json" => some (.switch .json)
  | "verbose" => some (.switch .verbose)
  | "help" => some (.switch .help)
  | "version" => some (.switch .version)
  | "kind" => some (.setting .kind)
  | "file" => some (.setting .file)
  | _ => none

/-- The option of a short name. -/
def Named.ofShort? : Char → Option Named
  | 'v' => some (.switch .verbose)
  | 'h' => some (.switch .help)
  | 'V' => some (.switch .version)
  | 'k' => some (.setting .kind)
  | 'f' => some (.setting .file)
  | _ => none

/-- The kind that a value of the option for kinds names. -/
def kindOfValue? : String → Option Kind
  | "null" => some .null
  | "number" => some .number
  | "string" => some .string
  | "regexp" => some .regularExpression
  | "template" => some .template
  | _ => none

/-! ## Reading arguments -/

/-- An option that waits to be settled. -/
structure Pending where
  /-- the option -/
  setting : Setting
  /-- its value, if it has come -/
  value : Option String
deriving DecidableEq

/-- How far a command line has been read. -/
@[ext] structure Progress where
  /-- what has been settled -/
  options : Options
  /-- the option that waits to be settled -/
  pending : Option Pending
  /-- whether the options have ended -/
  ended : Bool
deriving DecidableEq

namespace Options

/-- Gives an option its value. -/
def set (o : Options) (setting : Setting) (value : String) : Except Stop Options :=
  match setting with
  | .kind =>
    if o.kind.isSome then .error .repeated
    else
      match kindOfValue? value with
      | some k => .ok { o with kind := some k }
      | none => .error .invalidValue
  | .file => if o.file.isSome then .error .repeated else .ok { o with file := some value }

/-- Turns on an option without a value. -/
def turnOn (o : Options) : Switch → Except Stop Options
  | .json => if o.json then .error .repeated else .ok { o with json := true }
  | .verbose => .ok { o with verbosity := min (o.verbosity + 1) maxVerbosity }
  | .help => .error .help
  | .version => .error .version

end Options

namespace Progress

/-- The start of every command line. -/
def start : Progress := ⟨.empty, none, false⟩

/-- What is settled once the pending option is; it must have its value by now. -/
def settle (p : Progress) : Except Stop Options :=
  match p.pending with
  | none => .ok p.options
  | some ⟨setting, some value⟩ => p.options.set setting value
  | some ⟨_, none⟩ => .error .invalidValue

/-- Takes an argument as a literal. -/
def takeLiteral (p : Progress) (arg : String) : Except Stop Progress := do
  let o ← p.settle
  return ⟨{ o with literals := o.literals ++ [arg] }, none, p.ended⟩

/-- Takes an option without a value. -/
def takeSwitch (p : Progress) (s : Switch) : Except Stop Progress := do
  let o ← (← p.settle).turnOn s
  return ⟨o, none, p.ended⟩

/-- Takes an option with its value, or one that waits for it. -/
def takeSetting (p : Progress) (s : Setting) (value : Option String) : Except Stop Progress := do
  let o ← p.settle
  match value with
  | some v => return ⟨← o.set s v, none, p.ended⟩
  | none => return ⟨o, some ⟨s, none⟩, p.ended⟩

/-- Takes an argument without a dash in front: the value that is waited for, or else a literal. -/
def takePlain (p : Progress) (arg : String) : Except Stop Progress :=
  match p.pending with
  | some ⟨s, none⟩ => .ok { p with pending := some ⟨s, some arg⟩ }
  | _ => p.takeLiteral arg

/-- Takes what stands after two dashes. -/
def takeLong (p : Progress) (cs : List Char) : Except Stop Progress :=
  let (name, value) := splitAtFirst '=' cs
  match Named.ofLong? name, value with
  | none, _ => .error .unknownOption
  | some (.switch _), some _ => .error .unexpectedValue
  | some (.switch s), none => p.takeSwitch s
  | some (.setting s), value => p.takeSetting s (value.map String.ofList)

/-- The value of a short option from the rest of its argument, where an equals sign may stand
first. -/
def attached : List Char → Option String
  | [] => none
  | '=' :: cs => some (String.ofList cs)
  | cs => some (String.ofList cs)

/-- Takes the short options of one argument. -/
def takeShort (p : Progress) : List Char → Except Stop Progress
  | [] => .ok p
  | c :: cs =>
    match Named.ofShort? c with
    | none => .error .unknownOption
    | some (.switch s) => do (← p.takeSwitch s).takeShort cs
    | some (.setting s) => p.takeSetting s (attached cs)

/-- Takes one argument. -/
def take (p : Progress) (arg : String) : Except Stop Progress :=
  if p.ended then p.takeLiteral arg
  else
    match arg.toList with
    | ['-', '-'] => .ok { p with ended := true }
    | '-' :: '-' :: cs => p.takeLong cs
    | '-' :: c :: cs => p.takeShort (c :: cs)
    | _ => p.takePlain arg

/-- Takes arguments one after the other and settles what is pending at their end. -/
def takeAll (p : Progress) : List String → Except Stop Options
  | [] => p.settle
  | arg :: args => do (← p.take arg).takeAll args

end Progress

/-- What a command line asks for, or why it is not carried out. -/
def Options.read (args : List String) : Except Stop Options := Progress.start.takeAll args

end ScriptLiteral
