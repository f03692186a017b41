/-!
# Failures

A run fails if it cannot read its input, cannot write its output, or has nothing to work on. A
literal without a value is no failure of the run.
-/

namespace ScriptLiteral

/-- Why reading or writing did not work. -/
inductive Reason
  /-- the bytes read are not UTF-8 -/
  | notText
  /-- the name is that of a directory -/
  | directory
  /-- there is no file of that name -/
  | absent
  /-- what is written to takes no more bytes -/
  | full
  /-- what the system has to say -/
  | system (text : String)
deriving DecidableEq

/-- A reason in words. -/
def Reason.message : Reason → String
  | notText => "stream did not contain valid UTF-8"
  | directory => "Is a directory (os error 21)"
  | absent => "No such file or directory (os error 2)"
  | full => "sink full"
  | system text => text

/-- Why a run fails. -/
inductive Failure
  /-- input could not be read, or plain text could not be written -/
  | transfer (reason : Reason)
  /-- a JSON record could not be written -/
  | record (reason : Reason)
  /-- neither literals nor a file were named, or the file holds none -/
  | nothingGiven
deriving DecidableEq

/-- A failure in words. -/
def Failure.message : Failure → String
  | transfer reason => s!"I/O error: {reason.message}"
  | record reason => s!"JSON error: {reason.message}"
  | nothingGiven => "no literals given; pass LITERAL arguments or --file"

end ScriptLiteral
