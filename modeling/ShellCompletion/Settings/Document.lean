import ShellCompletion.Environment
import ShellCompletion.FileTree
import ShellCompletion.Json
import ShellCompletion.Settings
import ShellCompletion.Word64

/-!
# Settings documents

A settings document is a JSON object with new values for some settings. It is applied as a whole or
not at all: the settings change only if every value that it gives is of the right kind. A file may
hold such a document, and all settings may be put back to their defaults (`SettingsChange`).
-/
namespace ShellCompletion

/-- What is wrong with a settings document. -/
inductive SettingsFault where
  | notJson
  | notObject
  | notBool (key : String)
  | notPositive (key : String)
  | notArray (key : String)
  | notStrings (key : String)
deriving DecidableEq, Repr

/-- Why settings were not changed. -/
inductive SettingsError where
  /-- The document from that source is at fault. -/
  | document (source : Bytes) (fault : SettingsFault)
  | file (error : FileError)
  /-- A number in the document is out of the library's range. This failure is not caught. -/
  | uncaught
deriving DecidableEq, Repr

/-- What can be done to the settings. -/
inductive SettingsChange where
  /-- They take the values of a document, which comes from a source. -/
  | document (text source : Bytes)
  /-- They take the values of the document in a file. -/
  | file (path : Bytes)
  /-- They take their defaults. -/
  | reset
deriving DecidableEq, Repr

namespace SettingsFault

def message (library : JsonLibrary) : SettingsFault → Bytes
  | notJson => library.message
  | notObject => utf8 "top level must be an object"
  | notBool key => utf8 s!"'{key}' must be a boolean"
  | notPositive key => utf8 s!"'{key}' must be a positive integer"
  | notArray key => utf8 s!"'{key}' must be an array"
  | notStrings key => utf8 s!"'{key}' must hold strings"

end SettingsFault

namespace SettingsError

def message (library : JsonLibrary) : SettingsError → Bytes
  | document source fault => source ++ utf8 ": " ++ fault.message library
  | file error => error.message
  | uncaught => library.message

end SettingsError

namespace Settings

/-- The value of a key, or the old value where the document does not give it. -/
def readBool (document : Json) (key : String) (old : Bool) : Except SettingsFault Bool :=
  match document.member? (utf8 key) with
  | none => .ok old
  | some (.bool value) => .ok value
  | some _ => .error (.notBool key)

/-- The positive value of a key, or the old value where the document does not give it. A value is
    taken as a number of 64 bits with a sign, to which larger ones wrap around. -/
def readPositive (document : Json) (key : String) (old : Int) : Except SettingsFault Int :=
  match document.member? (utf8 key) with
  | none => .ok old
  | some (.integer value) =>
    if 0 < Word64.toSigned value then .ok (Word64.toSigned value) else .error (.notPositive key)
  | some _ => .error (.notPositive key)

/-- The strings of a key, each put through `f`, or the old ones where the document does not give
    it. -/
def readStrings (document : Json) (key : String) (f : Bytes → Bytes) (old : List Bytes) :
    Except SettingsFault (List Bytes) :=
  match document.member? (utf8 key) with
  | none => .ok old
  | some (.array items) =>
    match items.mapM Json.string? with
    | some strings => .ok (strings.map f)
    | none => .error (.notStrings key)
  | some _ => .error (.notArray key)

/-- The settings with the values of a document, which are checked in a fixed order. -/
def withDocument (settings : Settings) (env : Environment) (document : Json) :
    Except SettingsFault Settings :=
  match document with
  | .object _ => do
    let caseSensitive ← readBool document "case_sensitive" settings.caseSensitive
    let fuzzyMatching ← readBool document "fuzzy_matching" settings.fuzzyMatching
    let smartRanking ← readBool document "smart_ranking" settings.smartRanking
    let maxResults ← readPositive document "max_results" settings.maxResults
    let subprocessTimeout ← readPositive document "subprocess_timeout_ms" settings.subprocessTimeout
    let showHiddenFiles ← readBool document "show_hidden_files" settings.showHiddenFiles
    let includeSystemUsers ← readBool document "include_system_users" settings.includeSystemUsers
    let historySuggestions ← readBool document "history_suggestions" settings.historySuggestions
    let dynamicHandlers ← readBool document "dynamic_handlers_enabled" settings.dynamicHandlers
    let extraSchemaDirectories ← readStrings document "extra_schema_directories" env.expandTilde
      settings.extraSchemaDirectories
    return { caseSensitive, fuzzyMatching, smartRanking, maxResults, subprocessTimeout,
             showHiddenFiles, includeSystemUsers, historySuggestions, dynamicHandlers,
             extraSchemaDirectories }
  | _ => .error .notObject

/-- The settings with the values of a document's text. -/
def applyText (library : JsonLibrary) (settings : Settings) (env : Environment)
    (text source : Bytes) : Except SettingsError Settings :=
  match library.parse text with
  | .error .malformed => .error (.document source .notJson)
  | .error .outOfRange => .error .uncaught
  | .ok document => (settings.withDocument env document).mapError (.document source)

/-- The settings with the values of a file. A file that is not there changes nothing. -/
def applyFile (library : JsonLibrary) (settings : Settings) (env : Environment) (tree : FileTree)
    (base path : Bytes) : Except SettingsError Settings :=
  if tree.exists? base path then
    match tree.read base path with
    | .error e => .error (.file e)
    | .ok text => settings.applyText library env text path
  else .ok settings

/-- The settings that a change leads to. -/
def attempt (library : JsonLibrary) (settings : Settings) (env : Environment) (tree : FileTree)
    (base : Bytes) : SettingsChange → Except SettingsError Settings
  | .document text source => settings.applyText library env text source
  | .file path => settings.applyFile library env tree base path
  | .reset => .ok {}

/-- The settings after a change, and why it failed if it did. They stay as they were where it
    fails. -/
def change (library : JsonLibrary) (settings : Settings) (env : Environment) (tree : FileTree)
    (base : Bytes) (change : SettingsChange) : Settings × Option SettingsError :=
  match settings.attempt library env tree base change with
  | .ok new => (new, none)
  | .error error => (settings, some error)

end Settings

end ShellCompletion
