import ShellCompletion.Json
import ShellCompletion.Schema.Validity

/-!
# Schema documents

A schema document is a JSON object that describes one command. Members that a schema does not know
are passed over, and one that is null counts as missing. The members are read in a fixed order, and
the first one that cannot be read is the fault of the document.
-/
namespace ShellCompletion

/-- Why a schema document is refused. -/
inductive DocumentFault where
  /-- It is not JSON, or a member is missing or of the wrong type. -/
  | malformed
  | unknownType (name : Bytes)
  | schema (fault : SchemaFault)
deriving DecidableEq, Repr

namespace DocumentFault

/-- What is said about a refused document. The text about an unknown kind of value ends at the first
    NUL byte of its name. -/
def message (library : JsonLibrary) : DocumentFault → Bytes
  | malformed => library.message
  | unknownType name => Bytes.untilNul (utf8 "unknown argument type '" ++ name ++ utf8 "'")
  | schema fault => fault.message

end DocumentFault

namespace SchemaDocument

/-- What reading a part of a document gives. -/
abbrev Reading (α : Type) := Except DocumentFault α

/-- A value of the right type. -/
def expect {α : Type} : Option α → Reading α
  | some value => .ok value
  | none => .error .malformed

def requiredString (json : Json) (name : String) : Reading Bytes :=
  expect ((json.member? (utf8 name)).bind Json.string?)

/-- A string that may be missing. -/
def optionalString (json : Json) (name : String) : Reading (Option Bytes) :=
  match json.value? (utf8 name) with
  | none => .ok none
  | some value => (expect value.string?).map some

/-- A truth value, false where it is missing. -/
def optionalBool (json : Json) (name : String) : Reading Bool :=
  match json.value? (utf8 name) with
  | none => .ok false
  | some value => expect value.bool?

/-- A list of strings, empty where it is missing. -/
def optionalStrings (json : Json) (name : String) : Reading (List Bytes) :=
  match json.value? (utf8 name) with
  | none => .ok []
  | some value => expect value.strings?

/-- A list of things that are read alike, empty where it is missing. -/
def optionalList {α : Type} (read : Json → Reading α) (json : Json) (name : String) :
    Reading (List α) :=
  match json.value? (utf8 name) with
  | none => .ok []
  | some value => expect value.items? >>= (·.mapM read)

def kind (name : Bytes) : Reading ValueType :=
  match ValueType.ofName? name with
  | some type => .ok type
  | none => .error (.unknownType name)

/-- A kind of value: a name alone, or an object with a `type` and, for files and choices, the
    `data` that goes with it. -/
def valueType (json : Json) : Reading ValueType :=
  match json with
  | .string name => kind name
  | _ => do
    let type ← kind (← requiredString json "type")
    match type, json.value? (utf8 "data") with
    | .file _, some data => return .file (← optionalStrings data "extensions")
    | .choice _, some data => return .choice (← expect data.strings?)
    | type, _ => return type

/-- A kind of value that may be missing. -/
def optionalType (json : Json) (name : String) : Reading (Option ValueType) :=
  match json.value? (utf8 name) with
  | none => .ok none
  | some value => (valueType value).map some

/-- An option. One with a kind of value takes a value. -/
def option (json : Json) : Reading OptionSpec := do
  let short ← optionalString json "short"
  let long ← optionalString json "long"
  let description ← optionalString json "description"
  let takesValue ← optionalBool json "takes_value"
  let valueType ← optionalType json "value_type"
  return { short, long, description, takesValue := takesValue || valueType.isSome, valueType }

/-- A positional argument. -/
def argument (json : Json) : Reading ArgumentSpec := do
  let name ← requiredString json "name"
  let description ← optionalString json "description"
  let valueType ← optionalType json "arg_type"
  let required ← optionalBool json "required"
  let multiple ← optionalBool json "multiple"
  return { name, description, valueType, required, multiple }

/-- A subcommand. The fuel bounds how deep subcommands may lie. -/
def subcommand : Nat → Json → Reading Subcommand
  | 0, _ => .error .malformed
  | fuel + 1, json => do
    let name ← requiredString json "name"
    let description ← optionalString json "description"
    let aliases ← optionalStrings json "aliases"
    let options ← optionalList option json "options"
    let arguments ← optionalList argument json "arguments"
    let subcommands ← optionalList (subcommand fuel) json "subcommands"
    return { name, description, aliases, options, arguments, subcommands }

/-- A schema. Its subcommands lie no deeper than its values. -/
def schema (json : Json) : Reading Schema := do
  let command ← requiredString json "command"
  let description ← optionalString json "description"
  let globalOptions ← optionalList option json "global_options"
  let subcommands ← optionalList (subcommand json.depth) json "subcommands"
  let arguments ← optionalList argument json "arguments"
  return { command, description, globalOptions, subcommands, arguments }

end SchemaDocument

/-- The valid schema that a document describes. -/
def Schema.ofDocument (document : Json) : Except DocumentFault Schema := do
  let schema ← SchemaDocument.schema document
  schema.check.mapError .schema
  return schema

/-- The valid schema that the text of a document describes. -/
def Schema.ofText (library : JsonLibrary) (text : Bytes) : Except DocumentFault Schema :=
  match library.parse text with
  | .error _ => .error .malformed
  | .ok document => ofDocument document

end ShellCompletion
