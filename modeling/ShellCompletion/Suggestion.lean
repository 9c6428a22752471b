import ShellCompletion.Line.Parse
import ShellCompletion.Listing

/-!
# Suggestions from schemas and files

The candidates that follow from the schema of a command, the file system and the environment alone:
commands, subcommands, options, and values of the kinds that these sources know.
-/
namespace ShellCompletion

/-- Commands that are offered even if nothing describes them. -/
def commonCommands : List Bytes :=
  ["cat", "cd", "chmod", "chown", "cp", "curl", "echo", "find", "git", "grep", "head", "kill",
    "less", "ls", "make", "man", "mkdir", "mv", "ps", "pwd", "rm", "rmdir", "ssh", "sudo", "tail",
    "tar", "touch", "top", "vim", "which"].map utf8

namespace Suggestion

/-! ## Options -/

/-- The candidate of one form of an option, if it matches and has not been given. -/
def formCandidate? (settings : Settings) (parsed : ParsedLine) (option : OptionSpec)
    (category : Category) (form : Bytes) : Option Candidate :=
  if settings.accepts form parsed.current && !parsed.options.contains form then
    some (.of category form option.description)
  else none

/-- An option that has been given under one form is not offered under the other. -/
def isSpent (parsed : ParsedLine) (option : OptionSpec) : Bool :=
  option.short.any parsed.options.contains || option.long.any parsed.options.contains

/-- The candidates of options, the short form of each before the long one. -/
def ofOptions (settings : Settings) (parsed : ParsedLine) (options : List OptionSpec) :
    List Candidate :=
  (options.filter (!isSpent parsed ·)).flatMap fun option =>
    (option.short.bind (formCandidate? settings parsed option .shortOption)).toList ++
      (option.long.bind (formCandidate? settings parsed option .longOption)).toList

/-- The options of the subcommand and the global ones. -/
def optionCandidates (settings : Settings) (schema : Option Schema) (parsed : ParsedLine) :
    List Candidate :=
  match schema with
  | none => []
  | some schema =>
    let node := schema.resolve parsed.subcommandPath
    ofOptions settings parsed ((node.map Subcommand.options).getD []) ++
      ofOptions settings parsed schema.globalOptions

/-! ## Words -/

/-- The words to choose from that match the token, unquoted. -/
def choiceCandidates (settings : Settings) (token : Bytes) (choices : List Bytes) :
    List Candidate :=
  (choices.filter (settings.accepts · (unquote token))).map (Candidate.of .argument ·)

/-- The names without repetitions, sorted. -/
def sortedNames (names : List Bytes) : List Bytes := (names.eraseDups).mergeSort Bytes.le

/-- The names of environment variables that match the token; a dollar sign in front stays. -/
def variableCandidates (settings : Settings) (env : Environment) (token : Bytes) :
    List Candidate :=
  let dollar := token.head? == some '$'.toUInt8
  let typed := if dollar then token.drop 1 else token
  let names := (env.entries.map Prod.fst).filter fun name =>
    !name.isEmpty && settings.accepts name typed
  (sortedNames names).map fun name =>
    .of .argument (if dollar then '$'.toUInt8 :: name else name)

def subcommandNames (settings : Settings) (token : Bytes) (children : List Subcommand) :
    List Candidate :=
  (children.filter (settings.accepts ·.name token)).map fun child =>
    .of .subcommand child.name child.description

/-- The commands with a schema whose names match, and then the common ones. -/
def commandNames (settings : Settings) (database : Option Database) (token : Bytes) :
    List Candidate :=
  let described := match database with
    | none => []
    | some database => (database.names.filter (settings.accepts · token)).map fun name =>
      Candidate.of .command name ((database.find? name).bind Schema.description)
  described ++ (commonCommands.filter (settings.accepts · token)).map (Candidate.of .command ·)

/-! ## Files -/

def fileCandidates (context : PathContext) (current token : Bytes) :
    StateM Listings (List Candidate) :=
  pathCandidates context {} current token

/-- The executables of the search path that match the token or, if it is a path, those it leads to. -/
def programCandidates (context : PathContext) (current token : Bytes) :
    StateM Listings (List Candidate) :=
  if token.contains Path.slash then
    pathCandidates context { executablesOnly := true } current token
  else executableCandidates context token context.environment.searchPath

/-- The values of a kind. Kinds that the system's tables know have none here. Where no kind is
    declared, files are offered if `filesWhenUntyped` holds. -/
def valueCandidates (context : PathContext) (filesWhenUntyped : Bool) (current token : Bytes) :
    Option ValueType → StateM Listings (List Candidate)
  | none => if filesWhenUntyped then fileCandidates context current token else pure []
  | some (.file extensions) => pathCandidates context { extensions } current token
  | some .directory => pathCandidates context { directoriesOnly := true } current token
  | some (.choice words) => pure (choiceCandidates context.settings token words)
  | some .command | some .commandWithArgs => programCandidates context current token
  | some .environment => pure (variableCandidates context.settings context.environment token)
  | some .string | some .number | some .url | some .regex | some .signal | some .user
  | some .group | some .interface | some .process => pure []

/-! ## The line -/

def commandCandidates (context : PathContext) (database : Option Database)
    (current token : Bytes) : StateM Listings (List Candidate) := do
  let named := if token.contains Path.slash then []
    else commandNames context.settings database token
  return named ++ (← programCandidates context current token)

/-- The subcommands that match; where none does, the values of the first open argument and the
    global options. -/
def subcommandCandidates (context : PathContext) (schema : Option Schema) (current : Bytes)
    (parsed : ParsedLine) : StateM Listings (List Candidate) :=
  let token := parsed.current
  match schema with
  | none => valueCandidates context true current token none
  | some schema =>
    let node := schema.resolve parsed.subcommandPath
    let named := subcommandNames context.settings token (schema.childrenAt node)
    if !named.isEmpty then pure named
    else do
      let filled := parsed.arguments.length - if token.isEmpty then 0 else 1
      let values ← valueCandidates context true current token
        (argumentTypeAt (schema.argumentsAt node) filled)
      return values ++ ofOptions context.settings parsed schema.globalOptions

/-- The candidates for a parsed line with the current directory `current`. -/
def candidates (context : PathContext) (database : Option Database) (current : Bytes)
    (parsed : ParsedLine) : StateM Listings (List Candidate) :=
  let schema := database.bind (·.find? parsed.command)
  match parsed.context with
  | .command => commandCandidates context database current parsed.current
  | .subcommand => subcommandCandidates context schema current parsed
  | .shortOption | .longOption => pure (optionCandidates context.settings schema parsed)
  | .optionValue _ type => valueCandidates context false current parsed.current type
  | .argument _ type => valueCandidates context true current parsed.current type

end Suggestion

end ShellCompletion
