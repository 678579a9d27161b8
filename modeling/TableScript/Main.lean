import TableScript.Command.Perform

/-!
# The command line

Answers the questions of a command from the file system and writes its outcome.
Warnings, or all events when the command line asks for them, go to the error
output.
-/

namespace TableScript

/-- The number of an error of the system, which some functions report negated. -/
def errorNumber (code : UInt32) : Nat := code.toInt32.toInt.natAbs

def FileFault.ofError : IO.Error → FileFault
  | .noFileOrDirectory _ _ _ => .notFound
  | .inappropriateType _ code _ => if errorNumber code = 21 then .isADirectory else .notADirectory
  | error@(.invalidArgument _ code _) =>
      if errorNumber code = 36 then .nameTooLong else .refused (toString error)
  | error => .refused (toString error)

def readTextFile (path : String) : IO (Except FileFault String) := do
  if let some fault := FileFault.ofPath? path then return .error fault
  try
    match String.fromUTF8? (← IO.FS.readBinFile path) with
    | some text => return .ok text
    | none => return .error .notText
  catch error => return .error (.ofError error)

def Reading.perform {α : Type} : Reading α → IO α
  | .done value => pure value
  | .ask path next => do (next (← readTextFile path)).perform

def showEvents (verbose : Bool) (events : List Event) : IO Unit := do
  for event in events do
    if verbose || event.level = .warn then IO.eprintln event.text

/-- Answer the lines of the input as they come. -/
partial def converse (verbose : Bool) : IO UInt32 := do
  let input ← IO.getStdin
  let line ← input.getLine
  if line.isEmpty then return 0
  for line in Text.lines line do
    showEvents verbose (Repl.events line)
    if let some answer := Repl.answer? line then IO.println answer
  (← IO.getStdout).flush
  converse verbose

end TableScript

open TableScript in
/-- Perform the command of the command line. -/
def main (arguments : List String) : IO UInt32 := do
  match Invocation.ofArguments? arguments with
  | none =>
      IO.eprintln Invocation.usage
      return 1
  | some ⟨.repl, verbose⟩ => converse verbose
  | some ⟨command, verbose⟩ =>
      let outcome ← (command.perform "").perform
      showEvents verbose outcome.events
      IO.print outcome.output
      IO.eprint outcome.errors
      return outcome.exitCode
