import ScriptLiteral.Command.Invocation

/-!
# The command

Reads the arguments and the input they name, and writes out what the call leaves behind.
-/

namespace ScriptLiteral

/-- Why the system refused to read. -/
def Reason.ofSystem : IO.Error → Reason
  | .noFileOrDirectory .. => .absent
  | .inappropriateType .. => .directory
  | e => .system (toString e)

/-- Reads a source of bytes, with a refusal as a value. -/
def attempt (read : IO ByteArray) : IO (Except Reason ByteArray) := do
  match ← read.toBaseIO with
  | .ok bytes => return .ok bytes
  | .error e => return .error (Reason.ofSystem e)

/-- Reads the standard input to its end. -/
partial def readStdin (input : IO.FS.Stream) (bytes : ByteArray) : IO ByteArray := do
  let more ← input.read 65536
  if more.isEmpty then return bytes else readStdin input (bytes ++ more)

/-- Reads what the options name, and nothing else. -/
def readInputs (o : Options) : IO Inputs := do
  let nothing : Except Reason ByteArray := .ok ByteArray.empty
  match o.file with
  | none => return ⟨nothing, fun _ => nothing⟩
  | some name =>
    if name = "-" then
      let input ← attempt (do readStdin (← IO.getStdin) ByteArray.empty)
      return ⟨input, fun _ => nothing⟩
    else
      let content ← attempt (IO.FS.readBinFile name)
      return ⟨nothing, fun _ => content⟩

end ScriptLiteral

/-- Runs the command. -/
def main (args : List String) : IO UInt32 := do
  match ScriptLiteral.Options.read args with
  | .error stop =>
    if stop.isAnswer then IO.print stop.text else IO.eprint stop.text
    return stop.status
  | .ok options =>
    let outcome := options.outcome (← ScriptLiteral.readInputs options)
    IO.eprint outcome.stderr
    (← IO.getStdout).write outcome.stdout
    return outcome.status
