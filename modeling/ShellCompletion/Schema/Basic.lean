import ShellCompletion.Bytes

/-!
# Schemas

A schema says what may follow a command: its options, its subcommands with theirs, and its
positional arguments, each with the kind of value it takes.
-/
namespace ShellCompletion

/-- The kind of value that an option or a positional argument takes. -/
inductive ValueType where
  /-- A file whose name ends in one of the extensions, or any file if there are none. -/
  | file (extensions : List Bytes)
  | directory
  /-- One of the listed words. -/
  | choice (words : List Bytes)
  /-- The name of a command. -/
  | command
  /-- A command that is followed by its own words. -/
  | commandWithArgs
  /-- The name of an environment variable. -/
  | environment
  | string
  | number
  | url
  | regex
  | signal
  | user
  | group
  /-- A network interface. -/
  | interface
  | process
deriving DecidableEq, Repr

namespace ValueType

/-- One value of each kind, in their order. -/
def all : List ValueType :=
  [.file [], .directory, .choice [], .command, .commandWithArgs, .environment, .string, .number,
    .url, .regex, .signal, .user, .group, .interface, .process]

/-- The name of the kind in schema documents. -/
def name : ValueType → String
  | .file _ => "File"
  | .directory => "Directory"
  | .choice _ => "Choice"
  | .command => "Command"
  | .commandWithArgs => "CommandWithArgs"
  | .environment => "Environment"
  | .string => "String"
  | .number => "Number"
  | .url => "Url"
  | .regex => "Regex"
  | .signal => "Signal"
  | .user => "User"
  | .group => "Group"
  | .interface => "Interface"
  | .process => "Process"

/-- The kind of that name, with no extensions and no choices. -/
def ofName? (name : Bytes) : Option ValueType := all.find? (utf8 ·.name = name)

/-- The extensions that a file is held to. -/
def extensions : ValueType → List Bytes
  | .file extensions => extensions
  | _ => []

/-- The words to choose from. -/
def choices : ValueType → List Bytes
  | .choice words => words
  | _ => []

end ValueType

/-- An option of a command, under a short form such as `-m`, a long one such as `--message`, or
    both. -/
structure OptionSpec where
  short : Option Bytes
  long : Option Bytes
  description : Option Bytes
  takesValue : Bool
  valueType : Option ValueType
deriving DecidableEq, Repr

def OptionSpec.hasForm (option : OptionSpec) (form : Bytes) : Bool :=
  option.short == some form || option.long == some form

/-- A positional argument. The last one of a command may stand for all that follow. -/
structure ArgumentSpec where
  name : Bytes
  description : Option Bytes
  valueType : Option ValueType
  required : Bool
  multiple : Bool
deriving DecidableEq, Repr

/-- A subcommand with its own options, arguments and subcommands. -/
structure Subcommand where
  name : Bytes
  description : Option Bytes
  aliases : List Bytes
  options : List OptionSpec
  arguments : List ArgumentSpec
  subcommands : List Subcommand
deriving Repr

/-- The subcommand is called `word`, by its name or an alias. -/
def Subcommand.answersTo (sub : Subcommand) (word : Bytes) : Bool :=
  sub.name == word || sub.aliases.contains word

/-- What may follow a command. -/
structure Schema where
  command : Bytes
  description : Option Bytes
  globalOptions : List OptionSpec
  subcommands : List Subcommand
  arguments : List ArgumentSpec
deriving Repr

/-- The kind of value of the positional argument at `index`: a last argument that may be repeated
    covers every index from its own on. -/
def argumentTypeAt (arguments : List ArgumentSpec) (index : Nat) : Option ValueType :=
  match arguments[index]? with
  | some argument => argument.valueType
  | none => (arguments.getLast?.filter (·.multiple)).bind (·.valueType)

/-- The first of the subcommands that is called `word`. -/
def findSubcommand (children : List Subcommand) (word : Bytes) : Option Subcommand :=
  children.find? (·.answersTo word)

/-- Walks down from the subcommands `level` along a path; the deepest one reached, or `reached`
    where the first word leads nowhere. -/
def descend (reached : Option Subcommand) (level : List Subcommand) :
    List Bytes → Option Subcommand
  | [] => reached
  | word :: rest =>
    match findSubcommand level word with
    | none => reached
    | some next => descend (some next) next.subcommands rest

namespace Schema

/-- The deepest subcommand along a path of words; none if the first word names no subcommand. -/
def resolve (schema : Schema) (path : List Bytes) : Option Subcommand :=
  descend none schema.subcommands path

/-- The subcommands below a subcommand, or those of the command itself. -/
def childrenAt (schema : Schema) : Option Subcommand → List Subcommand
  | some sub => sub.subcommands
  | none => schema.subcommands

/-- The positional arguments of a subcommand, or those of the command itself. -/
def argumentsAt (schema : Schema) : Option Subcommand → List ArgumentSpec
  | some sub => sub.arguments
  | none => schema.arguments

end Schema

end ShellCompletion
