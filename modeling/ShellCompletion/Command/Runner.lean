import ShellCompletion.Command.Run
import ShellCompletion.Engine
import ShellCompletion.Invocation.Surroundings

/-!
# Commands of handlers

The commands that handlers ask for are run on the machine that the program runs on.
-/
namespace ShellCompletion

/-- Runs a command for a handler. -/
def Surroundings.runner (surroundings : Surroundings) : CommandRunner := fun call =>
  let setting : CommandSetting :=
    { tree := surroundings.tree, environment := surroundings.environment
      base := surroundings.directory, directory := call.directory }
  (setting.run { timeout := call.timeout } call.words).mapError (·.message (commandLabel call.words))

end ShellCompletion
