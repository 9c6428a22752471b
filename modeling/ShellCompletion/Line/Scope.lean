import ShellCompletion.Schema.Basic

/-!
# Options in scope

At a point of a line the options of its command and of every subcommand on the path are in scope,
the innermost subcommand's first. A word such as `-am` that no option declares stands for its
letters as separate flags, and its last letter decides whether a value follows.
-/
namespace ShellCompletion

/-- Options that take a value whatever the command. -/
def commonValueOptions : List Bytes :=
  [utf8 "-m", utf8 "--message", utf8 "--target", utf8 "--features", utf8 "--git", utf8 "--path",
    utf8 "--name"]

def isCommonValueOption (word : Bytes) : Bool := commonValueOptions.contains word

/-- A dash and at least two letters. -/
def isCombinedFlags : Bytes → Bool
  | dash :: a :: b :: rest => dash == '-'.toUInt8 && (a :: b :: rest).all Bytes.isAlpha
  | _ => false

/-- The options that are declared at a point of a line, the ones looked at first at the front. -/
structure Scope where
  options : List OptionSpec

namespace Scope

/-- The scope at the end of a path of subcommands, given from the innermost one outwards. -/
def at? (schema : Option Schema) (path : List Subcommand) : Scope :=
  match schema with
  | none => ⟨[]⟩
  | some schema => ⟨path.flatMap Subcommand.options ++ schema.globalOptions⟩

def find? (scope : Scope) (form : Bytes) : Option OptionSpec :=
  scope.options.find? (·.hasForm form)

/-- The word stands for several flags: a dash and letters, and no option is spelled so. -/
def splits (scope : Scope) (word : Bytes) : Bool :=
  isCombinedFlags word && (scope.find? word).isNone

/-- The letters of a combined word as separate flags. -/
def letters (word : Bytes) : List Bytes := (word.drop 1).map (['-'.toUInt8, ·])

/-- The flag that decides whether a value follows the word: the word itself or, where it stands for
    several flags, the last of them. -/
def valueForm (scope : Scope) (word : Bytes) : Bytes :=
  if scope.splits word then '-'.toUInt8 :: word.getLast?.toList else word

/-- The next word is the option's value. A long option written with an equals sign has its value
    already. -/
def takesValue (scope : Scope) (word : Bytes) : Bool :=
  if (utf8 "--").isPrefixOf word && word.contains '='.toUInt8 then false
  else
    let form := scope.valueForm word
    isCommonValueOption form || (scope.find? form).any OptionSpec.takesValue

/-- The kind of value that follows the word. -/
def valueType (scope : Scope) (word : Bytes) : Option ValueType :=
  (scope.find? (scope.valueForm word)).bind OptionSpec.valueType

def flags (scope : Scope) (word : Bytes) : List Bytes :=
  if scope.splits word then letters word else [word]

end Scope

end ShellCompletion
