import ShellCompletion.Command.Runner
import ShellCompletion.Invocation.Answer

/-!
# The program

Prints the candidates for a command line. The words of the command line are those that the program is
called with, and what it may see of the machine is read from standard input as a JSON document.
-/
namespace ShellCompletion

partial def readAll (stream : IO.FS.Stream) (before : ByteArray) : IO ByteArray := do
  let more ← stream.read 65536
  if more.isEmpty then return before else readAll stream (before ++ more)

/-- What is said about a document that does not describe surroundings. -/
def unreadable : Diagnostic :=
  { kind := .runtimeError, subject := utf8 "standard input"
    message := utf8 "no description of the surroundings" }

/-- Prints an answer, and gives the code to end with. -/
def printAnswer (answer : Answer) : IO UInt32 := do
  (← IO.getStderr).write ⟨answer.errors.toArray⟩
  (← IO.getStdout).write ⟨answer.output.toArray⟩
  return answer.exitCode.toUInt32

end ShellCompletion

open ShellCompletion in
def main (words : List String) : IO UInt32 := do
  let text ← readAll (← IO.getStdin) .empty
  match Surroundings.ofText? text.data.toList with
  | some surroundings =>
    printAnswer (answer Json.library surroundings.runner surroundings (words.map utf8))
  | none => printAnswer { errors := unreadable.text, exitCode := 2 }
