import ShellCompletion.Bytes

/-!
# Flags

The options of the program and how they stand on its command line. A word of two dashes and a name
gives one flag, whose value may follow after an equals sign; the name may be cut short as long as it
stays the start of one name only. A word of one dash and letters gives a flag for each letter, and
what follows the letter of a flag with a value is the value. A value that does not stand in the word
is the next word. `scan` reads all words and tells flags from operands.
-/
namespace ShellCompletion

inductive Flag where
  | cursor
  | directory
  | limit
  | fuzzy
  | caseSensitive
  | history
  | schemaDirectory
  | pathPrefix
  | listCommands
  | noDynamic
  | json
  | version
  | help
deriving DecidableEq, Repr

namespace Flag

def all : List Flag :=
  [cursor, directory, limit, fuzzy, caseSensitive, history, schemaDirectory, pathPrefix,
    listCommands, noDynamic, json, version, help]

/-- The name after two dashes. -/
def name : Flag → String
  | cursor => "cursor"
  | directory => "dir"
  | limit => "max"
  | fuzzy => "fuzzy"
  | caseSensitive => "case-sensitive"
  | history => "history"
  | schemaDirectory => "schema-dir"
  | pathPrefix => "path-prefix"
  | listCommands => "list-commands"
  | noDynamic => "no-dynamic"
  | json => "json"
  | version => "version"
  | help => "help"

/-- The letter after one dash. -/
def letter? : Flag → Option Char
  | cursor => some 'c'
  | directory => some 'd'
  | limit => some 'n'
  | fuzzy => some 'f'
  | caseSensitive => some 'C'
  | history => some 'H'
  | schemaDirectory => some 's'
  | pathPrefix => some 'p'
  | version => some 'v'
  | help => some 'h'
  | listCommands | noDynamic | json => none

def takesValue : Flag → Bool
  | cursor | directory | limit | history | schemaDirectory => true
  | _ => false

def ofLetter? (letter : UInt8) : Option Flag :=
  all.find? fun flag => flag.letter?.any (·.toUInt8 == letter)

/-- The flag of a name: the one that has it, or else the only one whose name starts with it. -/
def ofName? (text : Bytes) : Option Flag :=
  match all.find? (utf8 ·.name == text) with
  | some flag => some flag
  | none =>
    match all.filter (text.isPrefixOf <| utf8 ·.name) with
    | [flag] => some flag
    | _ => none

end Flag

/-! ## Words with flags -/

/-- How a word with flags ends. -/
inductive WordEnd where
  | complete
  /-- The value of the last flag is the next word. -/
  | wantsValue (flag : Flag)
  /-- The word, or its last letter, is no flag. -/
  | faulty
  /-- A letter is no flag, and others follow it. -/
  | faultyInside
deriving DecidableEq, Repr

/-- The flags that a word gives, with their values; a flag without a value has an empty one. -/
structure FlagWord where
  given : List (Flag × Bytes)
  ending : WordEnd
deriving DecidableEq, Repr

namespace FlagWord

/-- Reads what follows two dashes. -/
def ofName (text : Bytes) : FlagWord :=
  let equals := '='.toUInt8
  let valued := text.contains equals
  match Flag.ofName? (Bytes.before equals text) with
  | none => ⟨[], .faulty⟩
  | some flag =>
    match valued, flag.takesValue with
    | true, true => ⟨[(flag, (text.dropWhile (· != equals)).drop 1)], .complete⟩
    | true, false => ⟨[], .faulty⟩
    | false, true => ⟨[], .wantsValue flag⟩
    | false, false => ⟨[(flag, [])], .complete⟩

/-- Reads the letters that follow one dash. -/
def ofLetters : Bytes → FlagWord
  | [] => ⟨[], .complete⟩
  | letter :: rest =>
    match Flag.ofLetter? letter with
    | none => ⟨[], if rest.isEmpty then .faulty else .faultyInside⟩
    | some flag =>
      if flag.takesValue then
        if rest.isEmpty then ⟨[], .wantsValue flag⟩ else ⟨[(flag, rest)], .complete⟩
      else
        let later := ofLetters rest
        { later with given := (flag, []) :: later.given }

end FlagWord

/-! ## Command lines -/

/-- Whether flags may still follow an operand. -/
inductive OperandOrder where
  /-- The first operand ends the flags. -/
  | afterFlags
  | anywhere
deriving DecidableEq, Repr

/-- The words of a command line: its flags in order, and its operands or the word at fault, where
    reading ends. -/
structure Scan where
  given : List (Flag × Bytes)
  operands : Except Bytes (List Bytes)

namespace Scan

/-- A scan with flags that stand before all others. -/
def prepend (given : List (Flag × Bytes)) (scan : Scan) : Scan :=
  { scan with given := given ++ scan.given }

/-- A word of two dashes ends the flags. -/
def endOfFlags : Bytes := utf8 "--"

/-- A word that is no flag: it has no dash in front, or is nothing else. -/
def isOperand (word : Bytes) : Bool := word.head? != some '-'.toUInt8 || word.length == 1

def readWord (word : Bytes) : FlagWord :=
  if endOfFlags.isPrefixOf word then .ofName (word.drop 2) else .ofLetters (word.drop 1)

/-- Reads words. `passed` are the operands before them, and `last` is the word that stands before
    them if there are none. A fault inside of a word is laid to the word before it. -/
def words (order : OperandOrder) (last : Bytes) (passed : List Bytes) : List Bytes → Scan
  | [] => ⟨[], .ok passed⟩
  | word :: rest =>
    if word = endOfFlags then ⟨[], .ok (passed ++ rest)⟩
    else if isOperand word then
      match order with
      | .afterFlags => ⟨[], .ok (passed ++ word :: rest)⟩
      | .anywhere => words order last (passed ++ [word]) rest
    else
      let read := readWord word
      match read.ending with
      | .complete => (words order word passed rest).prepend read.given
      | .faulty => ⟨read.given, .error word⟩
      | .faultyInside => ⟨read.given, .error (passed.getLast?.getD last)⟩
      | .wantsValue flag =>
        match rest with
        | [] => ⟨read.given, .error word⟩
        | value :: rest => (words order value passed rest).prepend (read.given ++ [(flag, value)])

end Scan

/-- Reads the words that follow the name of the program. -/
def scan (order : OperandOrder) (program : Bytes) (words : List Bytes) : Scan :=
  Scan.words order program [] words

end ShellCompletion
