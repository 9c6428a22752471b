import ShellCompletion.Command.Utility.Lines

/-!
# Commands that utilities run

A utility may hand a text to a shell: to have it run, to read what it prints, or to write what it reads.
-/
namespace ShellCompletion.Call

/-- The path of the shell that runs the commands of utilities. -/
def shellPath : Bytes := utf8 "/bin/sh"

/-- Lets a shell that runs a text take the place of the process. -/
def becomeShell (call : Call) (text : Bytes) : Act Nat := do
  let _ ← call.launch call.directory call.environment shellPath [utf8 "sh", utf8 "-c", utf8 "--", text]
  return 127

def runShell (call : Call) (text : Bytes) : Act Ending := Act.inProcess (call.becomeShell text)

/-- Lets a shell run a text whose output can be read: the process, and the descriptor. -/
def shellSource (call : Call) (text : Bytes) : Act (Nat × Nat) := do
  let (intake, outlet) ← Act.openPipe
  let child ← Act.fork do
    Act.moveDescriptor outlet 1
    Act.close intake
    call.becomeShell text
  Act.close outlet
  return (child, intake)

/-- Lets a shell run a text whose input can be written: the process, and the descriptor. -/
def shellTarget (call : Call) (text : Bytes) : Act (Nat × Nat) := do
  let (intake, outlet) ← Act.openPipe
  let child ← Act.fork do
    Act.moveDescriptor intake 0
    Act.close outlet
    call.becomeShell text
  Act.close intake
  return (child, outlet)

def shellOutput (call : Call) (text : Bytes) : Act (Bytes × Ending) := do
  let (child, intake) ← call.shellSource text
  let output ← Act.readAll intake
  Act.close intake
  return (output.toOption.getD [], ← Act.join child)

end ShellCompletion.Call
