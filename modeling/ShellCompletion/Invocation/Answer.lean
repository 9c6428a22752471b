import ShellCompletion.Engine
import ShellCompletion.History.File
import ShellCompletion.Invocation.Basic
import ShellCompletion.Invocation.Surroundings
import ShellCompletion.Invocation.Usage
import ShellCompletion.Json.Printer
import ShellCompletion.Places
import ShellCompletion.Schema.Loader
import ShellCompletion.Settings.Document

/-!
# Answers

What the program prints for a command line, and how it ends. It reads its settings, then the command
line, and then does what that asks for: explain itself, extend a path, list the commands that have a
schema, or print the candidates for a line.
-/
namespace ShellCompletion

/-- What the program prints, and the code it ends with. -/
structure Answer where
  output : Bytes := []
  errors : Bytes := []
  exitCode : Nat := 0
deriving DecidableEq, Repr

namespace Candidate

/-- A candidate on a line of its own, with its description after a tab. -/
def line (candidate : Candidate) : Bytes :=
  candidate.text ++ (match candidate.description with
    | some description => utf8 "\t" ++ description
    | none => []) ++ utf8 "\n"

def toJson (candidate : Candidate) : Json :=
  .object ([(utf8 "category", .string (utf8 candidate.category.name))] ++
    (candidate.description.map fun text => (utf8 "description", Json.string text)).toList ++
    [(utf8 "priority", .integer candidate.priority), (utf8 "text", .string candidate.text)])

end Candidate

def printCandidates (json : Bool) (candidates : List Candidate) : Bytes :=
  if json then (Json.array (candidates.map Candidate.toJson)).print 0 ++ utf8 "\n"
  else candidates.flatMap Candidate.line

namespace Surroundings

/-- The code of a program that a failure has ended. -/
def abortCode : Nat := 134

/-- The settings with those of the settings file, and what is said if that is at fault. A failure that
    is not caught ends the program. -/
def settings (library : JsonLibrary) (surroundings : Surroundings) : Except Answer (Settings × Bytes) :=
  let env := surroundings.environment
  let (settings, fault) := ({} : Settings).change library env surroundings.tree surroundings.directory
    (.file env.settingsFile)
  match fault with
  | none => .ok (settings, [])
  | some .uncaught => .error { errors := library.message ++ utf8 "\n", exitCode := abortCode }
  | some fault =>
    let diagnostic : Diagnostic :=
      { kind := .runtimeError, severity := .warning, subject := utf8 "config"
        message := fault.message library
        suggestions := [utf8 "Falling back to default settings"] }
    .ok (settings, diagnostic.text)

/-- The history that an invocation uses, and what is said if its file cannot be read. -/
def history (surroundings : Surroundings) (invocation : Invocation) : List HistoryEntry × Bytes :=
  let named := !invocation.historyFile.isEmpty
  let path := if named then invocation.historyFile else surroundings.environment.historyFile
  match surroundings.tree.loadHistory surroundings.directory path with
  | .ok entries => (entries, [])
  | .error fault =>
    let diagnostic : Diagnostic :=
      { kind := .fileNotFound, severity := .warning, subject := utf8 "history"
        message := fault.message }
    ([], if named then diagnostic.text else [])

/-- The schemas that an invocation uses. -/
def database (library : JsonLibrary) (surroundings : Surroundings) (settings : Settings)
    (invocation : Invocation) : Database :=
  let usual := schemaDirectories settings surroundings.environment surroundings.currentDirectory
  let loader := invocation.schemaDirectories.foldl SchemaLoader.addDirectory { directories := usual }
  (loader.load library surroundings.tree surroundings.directory).1

/-- The candidates for a line. -/
def candidates (runner : CommandRunner) (surroundings : Surroundings) (settings : Settings)
    (invocation : Invocation) (database : Database) (history : List HistoryEntry) (directory : Bytes) :
    List Candidate :=
  let world : World :=
    { settings, environment := surroundings.environment, epoch := surroundings.epoch
      database := some database, reader := surroundings.tree.reader surroundings.directory
      files := ⟨surroundings.tree, [Path.slash]⟩, runner, history := some history }
  let cursor := invocation.cursor.getD invocation.line.length
  let (completion, _) :=
    Engine.run world directory invocation.line cursor settings.maxResults.toNat {}
  completion.candidates

/-- Does what an invocation asks for. -/
def perform (library : JsonLibrary) (runner : CommandRunner) (surroundings : Surroundings)
    (settings : Settings) (invocation : Invocation) : Answer :=
  let directory :=
    if invocation.directory.isEmpty then surroundings.currentDirectory else invocation.directory
  if invocation.showHelp then { output := usageText }
  else if invocation.showVersion then { output := versionText }
  else if invocation.extendPath then
    let reader := surroundings.tree.reader surroundings.directory
    match pathExtension surroundings.environment reader directory invocation.line with
    | some path => { output := path ++ utf8 "\n" }
    | none => { exitCode := 1 }
  else
    let database := surroundings.database library settings invocation
    if invocation.listCommands then { output := database.names.flatMap (· ++ utf8 "\n") }
    else
      let (history, errors) := surroundings.history invocation
      let found := surroundings.candidates runner settings invocation database history directory
      { output := printCandidates invocation.json found, errors }

end Surroundings

/-- What is printed about a fault of the command line. A word that is not understood is answered with
    the usage as well. -/
def InvocationFault.answer (fault : InvocationFault) : Answer :=
  { output := match fault with
      | .unrecognized _ => usageText
      | _ => []
    errors := fault.diagnostic.text
    exitCode := 2 }

/-- The answer to the words that follow the name of the program. -/
def answer (library : JsonLibrary) (runner : CommandRunner) (surroundings : Surroundings)
    (words : List Bytes) : Answer :=
  match surroundings.settings library with
  | .error answer => answer
  | .ok (settings, warning) =>
    let reading := readInvocation .afterFlags settings words
    let answer := match reading.state with
      | .failed fault => fault.answer
      | _ => surroundings.perform library runner reading.settings reading.invocation
    { answer with errors := warning ++ answer.errors }

end ShellCompletion
