import ShellCompletion.Json.Printer
import ShellCompletion.Schema.Basic

/-!
# Writing schema documents

Each part of a schema is written as an object with all its members; one that has no value is null.
-/
namespace ShellCompletion

namespace Json

/-- The object with those members. -/
def ofMembers (members : List (String × Json)) : Json :=
  .object (members.map fun (name, value) => (utf8 name, value))

/-- A string that may be missing. -/
def ofString? (text : Option Bytes) : Json := text.elim .null .string

def ofStrings (texts : List Bytes) : Json := .array (texts.map .string)

end Json

namespace ValueType

/-- What goes with the name of the kind. -/
def data : ValueType → Json
  | .file extensions => .ofMembers [("extensions", .ofStrings extensions)]
  | .choice words => .ofStrings words
  | _ => .null

def toJson (type : ValueType) : Json :=
  .ofMembers [("type", .string (utf8 type.name)), ("data", type.data)]

end ValueType

def OptionSpec.toJson (option : OptionSpec) : Json :=
  .ofMembers [("short", .ofString? option.short), ("long", .ofString? option.long),
    ("description", .ofString? option.description), ("takes_value", .bool option.takesValue),
    ("value_type", option.valueType.elim .null ValueType.toJson)]

def ArgumentSpec.toJson (argument : ArgumentSpec) : Json :=
  .ofMembers [("name", .string argument.name), ("description", .ofString? argument.description),
    ("arg_type", argument.valueType.elim .null ValueType.toJson), ("required", .bool argument.required),
    ("multiple", .bool argument.multiple)]

mutual

def Subcommand.toJson : Subcommand → Json
  | ⟨name, description, aliases, options, arguments, subcommands⟩ =>
    .ofMembers [("name", .string name), ("description", .ofString? description),
      ("aliases", .ofStrings aliases), ("options", .array (options.map OptionSpec.toJson)),
      ("arguments", .array (arguments.map ArgumentSpec.toJson)),
      ("subcommands", .array (subcommandsToJson subcommands))]

def subcommandsToJson : List Subcommand → List Json
  | [] => []
  | sub :: rest => sub.toJson :: subcommandsToJson rest

end

def Schema.toJson (schema : Schema) : Json :=
  .ofMembers [("command", .string schema.command), ("description", .ofString? schema.description),
    ("global_options", .array (schema.globalOptions.map OptionSpec.toJson)),
    ("subcommands", .array (subcommandsToJson schema.subcommands)),
    ("arguments", .array (schema.arguments.map ArgumentSpec.toJson))]

/-- The text of the document that describes the schema. -/
def Schema.text (schema : Schema) : Bytes := schema.toJson.print 0

end ShellCompletion
