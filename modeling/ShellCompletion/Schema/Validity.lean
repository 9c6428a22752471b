import ShellCompletion.Schema.Basic

/-!
# Valid schemas

A schema is valid if every name in it can be typed as a word and every option has a form that starts
with dashes as it should. `Schema.check` looks the parts through in a fixed order and gives the
first fault it meets.
-/
namespace ShellCompletion

/-- What is wrong with an option. -/
inductive OptionFault where
  | noForm
  | shortForm (form : Bytes)
  | longForm (form : Bytes)
deriving DecidableEq, Repr

namespace OptionFault

def message : OptionFault → Bytes
  | noForm => utf8 "option has neither a short nor a long form"
  | shortForm form => utf8 "malformed short form '" ++ form ++ utf8 "'"
  | longForm form => utf8 "malformed long form '" ++ form ++ utf8 "'"

end OptionFault

/-- What is wrong with a schema. An owner is the words that lead to a subcommand. -/
inductive SchemaFault where
  | commandName (name : Bytes)
  | option (owner : Bytes) (fault : OptionFault)
  | argumentName (owner : Bytes)
  | subcommandName (owner name : Bytes)
  | aliasName (subcommand name : Bytes)
deriving DecidableEq, Repr

namespace SchemaFault

def message : SchemaFault → Bytes
  | commandName name => utf8 "invalid command name '" ++ name ++ utf8 "'"
  | option owner fault => utf8 "option of '" ++ owner ++ utf8 "': " ++ fault.message
  | argumentName owner => utf8 "argument of '" ++ owner ++ utf8 "' has an empty name"
  | subcommandName owner name =>
    utf8 "subcommand of '" ++ owner ++ utf8 "' has invalid name '" ++ name ++ utf8 "'"
  | aliasName subcommand name =>
    utf8 "subcommand '" ++ subcommand ++ utf8 "' has invalid alias '" ++ name ++ utf8 "'"

end SchemaFault

/-- The name is a word: not empty and without white space. -/
def isValidName (name : Bytes) : Bool := !name.isEmpty && !name.any Bytes.isSpace

/-- A dash and another byte than a dash, with more or without, and no white space. -/
def isShortForm (form : Bytes) : Bool :=
  match form with
  | dash :: second :: _ =>
    dash == '-'.toUInt8 && second != '-'.toUInt8 && !form.any Bytes.isSpace
  | _ => false

/-- Two dashes and more, without white space. -/
def isLongForm (form : Bytes) : Bool :=
  (utf8 "--").isPrefixOf form && decide (2 < form.length) && !form.any Bytes.isSpace

namespace OptionSpec

/-- Checks the forms of an option: that there is one, then the short one, then the long one. -/
def check (option : OptionSpec) : Except OptionFault Unit := do
  if option.short.isNone && option.long.isNone then throw .noForm
  if let some form := option.short then
    if !isShortForm form then throw (.shortForm form)
  if let some form := option.long then
    if !isLongForm form then throw (.longForm form)

end OptionSpec

def checkOptions (owner : Bytes) (options : List OptionSpec) : Except SchemaFault Unit :=
  options.forM fun option => option.check.mapError (.option owner)

def checkArguments (owner : Bytes) (arguments : List ArgumentSpec) : Except SchemaFault Unit :=
  arguments.forM fun argument =>
    if argument.name.isEmpty then .error (.argumentName owner) else .ok ()

mutual

/-- Checks a subcommand of `owner`: its name, its aliases, its options, its arguments, and the
    subcommands below it. -/
def Subcommand.check (owner : Bytes) : Subcommand → Except SchemaFault Unit
  | ⟨name, _, aliases, options, arguments, subcommands⟩ => do
    if !isValidName name then throw (.subcommandName owner name)
    if let some wrong := aliases.find? (!isValidName ·) then throw (.aliasName name wrong)
    let path := owner ++ ' '.toUInt8 :: name
    checkOptions path options
    checkArguments path arguments
    checkSubcommands path subcommands

def checkSubcommands (owner : Bytes) : List Subcommand → Except SchemaFault Unit
  | [] => .ok ()
  | sub :: rest => do
    sub.check owner
    checkSubcommands owner rest

end

/-- Checks a schema: the command's name, its options, its arguments, and its subcommands. -/
def Schema.check (schema : Schema) : Except SchemaFault Unit := do
  if !isValidName schema.command then throw (.commandName schema.command)
  checkOptions schema.command schema.globalOptions
  checkArguments schema.command schema.arguments
  checkSubcommands schema.command schema.subcommands

end ShellCompletion
