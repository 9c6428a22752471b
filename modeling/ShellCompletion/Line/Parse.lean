import ShellCompletion.Line.Redirect
import ShellCompletion.Line.Scope
import ShellCompletion.Line.Token
import ShellCompletion.Schema.Database

/-!
# What is being typed

`parse` reads a line up to the cursor. It cuts the line's tokens at the cursor (`Cut`), reads the
words after the command from left to right into subcommands, options and positional arguments
(`Reading`), and then says what the token under the cursor is (`Context`). Without a schema, words
that look like verbs count as subcommands.
-/
namespace ShellCompletion

/-- What the token under the cursor is. -/
inductive Context where
  | command
  | subcommand
  | shortOption
  | longOption
  /-- The value of the option `name`. -/
  | optionValue (name : Bytes) (type : Option ValueType)
  /-- The positional argument at `index`, or the file of a redirection. -/
  | argument (index : Nat) (type : Option ValueType)
deriving DecidableEq, Repr

/-- The kind of value that the token under the cursor is to be. -/
def Context.valueType : Context → Option ValueType
  | .optionValue _ type => type
  | .argument _ type => type
  | _ => none

/-! ## The line cut at the cursor -/

/-- A line's tokens as the cursor divides them: those that end before it, and the part before it of
    the one it stands in or at. -/
structure Cut where
  cursor : Nat
  /-- The command as typed, also beyond the cursor. -/
  command : Bytes
  complete : List Token
  current : Option Token

def Token.upTo (token : Token) (cursor : Nat) : Token :=
  ⟨token.text.take (cursor - token.start), token.start, cursor⟩

namespace Cut

/-- Cuts a line at the cursor; one beyond its end stands at its end. -/
def of (line : Bytes) (cursor : Nat) : Cut :=
  let cursor := min cursor line.length
  let tokens := tokenize line
  { cursor
    command := (tokens.head?.map Token.text).getD []
    complete := tokens.takeWhile (·.stop < cursor)
    current :=
      ((tokens.dropWhile (·.stop < cursor)).head?.filter (·.start ≤ cursor)).map (·.upTo cursor) }

/-- The text under the cursor; empty where the cursor is in no token. -/
def text (cut : Cut) : Bytes := (cut.current.map Token.text).getD []

def start (cut : Cut) : Nat := (cut.current.map Token.start).getD cut.cursor

end Cut

/-! ## Words after the command -/

/-- Letters that a word of a natural language has. -/
def isVowel (c : UInt8) : Bool := (utf8 "aeiou").contains (Bytes.lowerByte c)

def isConsonant (c : UInt8) : Bool := Bytes.isAlpha c && !isVowel c

/-- The word has a dot with something on both sides of its last one. -/
def hasExtension (word : Bytes) : Bool :=
  word.contains '.'.toUInt8 &&
    decide (1 < (Bytes.throughLast '.'.toUInt8 word).length) && !(Bytes.afterLast '.'.toUInt8 word).isEmpty

/-- Four letters that alternate from a consonant: `file`, `data`, `note`. -/
def isPlainNoun : Bytes → Bool
  | [a, b, c, d] => isConsonant a && isVowel b && isConsonant c && isVowel d
  | _ => false

/-- The word looks like a verb: it may be a subcommand of a command without a schema. -/
def looksLikeSubcommand (word : Bytes) : Bool :=
  word.head? != some '-'.toUInt8 && !hasExtension word &&
    !word.contains '/'.toUInt8 && !word.contains '\\'.toUInt8 &&
    decide (2 ≤ word.length) && decide (word.length ≤ 15) &&
    word.any isVowel && word.any isConsonant && !isPlainNoun word

/-- How many words may count as subcommands without a schema. -/
def maxGuessedSubcommands : Nat := 2

/-- The word is written as an option: a dash and more, but not the two dashes that end options. -/
def isOptionWord (word : Bytes) : Bool :=
  decide (1 < word.length) && word.head? == some '-'.toUInt8 && word != utf8 "--"

/-- What the next word belongs to if it is no word of its own. -/
inductive Owed where
  | nothing
  /-- It is the value of the option before it. -/
  | value
  /-- It is the file of the redirection before it. -/
  | target
deriving DecidableEq, Repr

/-- What has been read of the words after the command. -/
structure Reading where
  /-- The words that name subcommands, in order. -/
  path : List Bytes := []
  /-- The subcommands they name, the innermost first. -/
  nodes : List Subcommand := []
  /-- The flags given so far. -/
  options : List Bytes := []
  /-- The positional arguments, in order. -/
  arguments : List Token := []
  owed : Owed := .nothing
  /-- Two dashes ended the options. -/
  optionsEnded : Bool := false
  /-- No later word names a subcommand. -/
  subcommandsClosed : Bool := false

namespace Reading

def scope (schema : Option Schema) (reading : Reading) : Scope := .at? schema reading.nodes

/-- The subcommands that may come next. -/
def children (schema : Schema) (reading : Reading) : List Subcommand :=
  schema.childrenAt reading.nodes.head?

def takeArgument (reading : Reading) (word : Token) : Reading :=
  { reading with subcommandsClosed := true, arguments := reading.arguments ++ [word] }

/-- The word gives options. Without a schema no subcommand is looked for after one. -/
def takeOption (schema : Option Schema) (reading : Reading) (word : Bytes) : Reading :=
  { reading with
    options := reading.options ++ (reading.scope schema).flags word
    subcommandsClosed := reading.subcommandsClosed || schema.isNone
    owed := if (reading.scope schema).takesValue word then .value else .nothing }

/-- A word that is neither redirection nor option names a subcommand, if it can. -/
def takeWord (schema : Option Schema) (reading : Reading) (word : Token) : Reading :=
  if reading.subcommandsClosed then reading.takeArgument word
  else match schema with
    | some schema =>
      match findSubcommand (reading.children schema) word.text with
      | some next =>
        { reading with path := reading.path ++ [word.text], nodes := next :: reading.nodes }
      | none => reading.takeArgument word
    | none =>
      if reading.path.length < maxGuessedSubcommands && looksLikeSubcommand word.text then
        { reading with path := reading.path ++ [word.text] }
      else reading.takeArgument word

def step (schema : Option Schema) (reading : Reading) (word : Token) : Reading :=
  if reading.owed ≠ .nothing then { reading with owed := .nothing }
  else if reading.optionsEnded then reading.takeWord schema word
  else if Redirect.isOperator word.text then { reading with owed := .target }
  else if 0 < Redirect.gluedLength word.text then reading
  else if word.text = utf8 "--" then { reading with optionsEnded := true }
  else if word.text.head? = some '-'.toUInt8 ∧ 1 < word.text.length then
    reading.takeOption schema word.text
  else reading.takeWord schema word

/-- Reads the word under the cursor, which can only be a positional argument yet. -/
def stepCurrent (reading : Reading) (word : Token) : Reading :=
  if reading.owed ≠ .nothing then { reading with owed := .nothing }
  else if word.text.isEmpty then reading
  else if reading.optionsEnded then reading.takeArgument word
  else if Redirect.isOperator word.text then { reading with owed := .target }
  else if 0 < Redirect.gluedLength word.text then reading
  else if word.text.head? = some '-'.toUInt8 ∧ 1 < word.text.length then reading
  else reading.takeArgument word

/-- Reads the words after the command, up to the cursor. -/
def ofCut (schema : Option Schema) (cut : Cut) : Reading :=
  let complete := (cut.complete.drop 1).foldl (step schema) {}
  match cut.current with
  | none => complete
  | some word => complete.stepCurrent word

end Reading

/-! ## The token under the cursor -/

/-- A line as far as it has been typed. -/
structure ParsedLine where
  command : Bytes
  subcommandPath : List Bytes
  options : List Bytes
  arguments : List Token
  /-- The text under the cursor, without a redirection operator glued to its front. -/
  current : Bytes
  context : Context
  /-- The number of tokens before the one under the cursor. -/
  cursorIndex : Nat
  /-- The span of the line that a candidate takes the place of. -/
  replaceStart : Nat
  replaceStop : Nat
  /-- The command has a schema, so its subcommands were not guessed. -/
  commandKnown : Bool
deriving DecidableEq, Repr

/-- The number of positional arguments before the text under the cursor, which may be the last one
    recorded. -/
def openPosition (reading : Reading) (current : Bytes) : Nat :=
  reading.arguments.length -
    if !current.isEmpty && (reading.arguments.map Token.text).contains current then 1 else 0

/-- What the text under the cursor is, once redirections glued to it are set aside. -/
def contextOf (schema : Option Schema) (line : Bytes) (cut : Cut) (reading : Reading) : Context :=
  let current := cut.text
  let previous := (cut.complete.getLast?.map Token.text).getD []
  let hasPrevious := decide (2 ≤ cut.complete.length)
  let scope := reading.scope schema
  let commandEnd := (cut.complete.head?.map Token.stop).getD line.length
  if !reading.optionsEnded && (utf8 "--").isPrefixOf current then .longOption
  else if !reading.optionsEnded && current.head? == some '-'.toUInt8 then
    if current.length = 2 then .shortOption else .longOption
  else if hasPrevious && !reading.optionsEnded && isOptionWord previous && scope.takesValue previous then
    .optionValue previous (scope.valueType previous)
  else if (hasPrevious && Redirect.isOperator previous) || Redirect.isOperator current then
    .argument reading.arguments.length (some (.file []))
  else if !(line.drop commandEnd).head?.any Bytes.isBlank then .command
  else
    let index := openPosition reading current
    match schema with
    | some schema =>
      if !(reading.children schema).isEmpty && index == 0 then .subcommand
      else .argument index (argumentTypeAt (schema.argumentsAt reading.nodes.head?) index)
    | none =>
      if reading.path.isEmpty || looksLikeSubcommand current then .subcommand
      else .argument index none

/-- Reads a line with the cursor at an offset, by the schemas of a database. -/
def parse (database : Option Database) (line : Bytes) (cursor : Nat) : ParsedLine :=
  let cut := Cut.of line cursor
  let blank : ParsedLine :=
    { command := cut.command, subcommandPath := [], options := [], arguments := []
      current := cut.text, context := .command, cursorIndex := cut.complete.length
      replaceStart := cut.start, replaceStop := cut.cursor, commandKnown := false }
  if cut.complete.isEmpty then blank
  else
    let schema := database.bind (·.find? cut.command)
    let reading := Reading.ofCut schema cut
    let glued := if reading.optionsEnded then 0 else Redirect.gluedLength cut.text
    { blank with
      subcommandPath := reading.path
      options := reading.options
      arguments := reading.arguments
      current := cut.text.drop glued
      context :=
        if 0 < glued then .argument reading.arguments.length (some (.file []))
        else contextOf schema line cut reading
      replaceStart := cut.start + glued
      commandKnown := schema.isSome }

end ShellCompletion
