import ShellCompletion.Command.Program
import ShellCompletion.Command.Schedule
import ShellCompletion.Command.Trace

/-!
# Running a command for its output

A command is started in a directory, with no input, and what it writes to its output is taken within
limits.
-/
namespace ShellCompletion

/-- Where and with what a command is started. -/
structure CommandSetting where
  tree : FileTree
  environment : Environment
  /-- The directory that it is started from. -/
  base : Bytes
  /-- The directory that it is to run in; the same one if it is empty. -/
  directory : Bytes := []

namespace CommandSetting

/-- More steps of all processes than any run takes. -/
def maxSteps : Nat := 20000000

/-- More output than this is never of use. -/
def maxOutput : Nat := 4 * 1024 * 1024

/-- The life of the process in which a command is run. One that cannot be started ends with 127, and
    with 126 if its directory is none. -/
def life (setting : CommandSetting) (name : Bytes) (arguments : List Bytes) : Act Nat := do
  let isThere ← Act.look fun machine => setting.directory.isEmpty ||
    machine.files.isDirectory setting.base setting.directory
  if !isThere then return 126
  else
    let directory := Path.append setting.base setting.directory
    let _ ← (Program.launch maxSteps).search directory setting.environment name (name :: arguments)
    return 127

def machine (setting : CommandSetting) : Machine where
  tree := Program.complete setting.tree
  channels := #[{ endpoint := .null }, { endpoint := .collector, readable := false },
    { endpoint := .null }]
  processes := [{
    number := Machine.firstNumber, parent := Machine.firstNumber - 1
    descriptors := [(0, 0), (1, 1), (2, 2)] }]
  current := Machine.firstNumber
  next := Machine.firstNumber + 1

/-- What a command does, as far as it can be seen within limits. One that goes round in circles and
    writes something goes on with that until it is too much. -/
def trace (setting : CommandSetting) (limits : RunLimits) (name : Bytes) (arguments : List Bytes) :
    Trace :=
  let size := min limits.maxOutput maxOutput
  let horizon : Horizon := ⟨1000 * limits.timeout.toNat, size⟩
  let thread : Thread := (Machine.firstNumber, setting.life name arguments .exit)
  let (halt, machine) :=
    Machine.run horizon maxSteps Machine.turnLength 0 setting.machine thread []
  let more : List (Nat × Bytes) :=
    if halt = .endless true then [(machine.now, List.replicate (size + 1) 0)] else []
  let writes := machine.collected.reverse ++ more
  ⟨writes.map fun (time, bytes) => (time / 1000, bytes),
    machine.closed.map (· / 1000), machine.ended.map fun (time, status) => (time / 1000, status)⟩

/-- The output of a command that keeps the limits and ends well. A word ends at a NUL byte. -/
def run (setting : CommandSetting) (limits : RunLimits) (words : List Bytes) :
    Except RunFault Bytes :=
  match words.map Bytes.untilNul with
  | [] => .error .emptyCommand
  | name :: arguments => (setting.trace limits name arguments).outcome limits

end CommandSetting

end ShellCompletion
