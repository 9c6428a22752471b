import ShellCompletion.Command.Format
import ShellCompletion.Command.Script.Basic

/-!
# Reading scripts

The structure of a text that is a script. It is read line by line, or rather by as many lines as
belong together, since what has been read is run before the rest is looked at. The text of a document
comes on the lines after its operator: a line is read once to find its documents, and once more to
put them where they belong.

Scripts of the extended language have more operators and keywords, and what stands in words and braces
means more.
-/
namespace ShellCompletion.ScriptReader

/-- Why a text is no script. -/
structure SyntaxFault where
  line : Nat
  message : Bytes
deriving DecidableEq, Repr

inductive Token where
  | ending
  | newline
  | operator (text : String)
  /-- The operator of a redirection, with the number of the descriptor before it. -/
  | redirection (descriptor : Option Nat) (operator : String)
  | word (word : Word)

/-- A document whose text is still to come. -/
structure Document where
  index : Nat
  /-- The line that ends the text. -/
  delimiter : Bytes
  /-- Tabs at the start of its lines do not count. -/
  indented : Bool
  /-- Nothing is put in the place of its parameters. -/
  verbatim : Bool

/-- What is left of a text. -/
structure Source where
  rest : Bytes
  /-- The script is one of the extended language. -/
  extended : Bool := false
  /-- Brackets after certain signs belong to patterns. -/
  grouping : Bool := false
  line : Nat := 1
  /-- The token that has been looked at and not yet been taken. -/
  back : Option Token := none
  /-- The documents that follow the line. -/
  pending : List Document := []
  /-- How many documents have been met. -/
  documents : Nat := 0
  /-- The texts of documents that have been read. -/
  bodies : List (Nat × Word) := []
  /-- The texts of documents as they were found when the line was read before. -/
  known : List (Nat × Word) := []
  /-- What the names of commands stand for. -/
  aliases : List (Bytes × Bytes) := []
  /-- The names that have been replaced, and how much was left after each. -/
  replaced : List (Bytes × Nat) := []

abbrev Reader := StateT Source (Except SyntaxFault)

def fault {α : Type} (message : Bytes) : Reader α := fun source => .error ⟨source.line, message⟩

/-- The text ends before a byte that closes something. -/
def unclosed {α : Type} (closing : UInt8) (message : String) : Reader α := do
  if (← get).extended then
    fault (utf8 "unexpected EOF while looking for matching " ++ [96, closing, 39])
  else fault (utf8 message)

/-! ## Bytes -/

def singleQuote : UInt8 := 39
def doubleQuote : UInt8 := '"'.toUInt8
def backslash : UInt8 := '\\'.toUInt8
def backquote : UInt8 := 96
def dollar : UInt8 := '$'.toUInt8
def lineFeed : UInt8 := '\n'.toUInt8
def openingBrace : UInt8 := 0x7b
def closingBrace : UInt8 := 0x7d
def openingBracket : UInt8 := '('.toUInt8
def closingBracket : UInt8 := ')'.toUInt8

def endsWord (c : UInt8) : Bool := (utf8 " \t\n;&|<>()").contains c

/-- Takes bytes from the front, and counts the lines among them. -/
def take (count : Nat) : Reader Bytes := fun source =>
  let bytes := source.rest.take count
  .ok (bytes, { source with
    rest := source.rest.drop count, line := source.line + bytes.count lineFeed })

def rest : Reader Bytes := do return (← get).rest

def isExtended : Reader Bool := do return (← get).extended

/-- Takes bytes as long as they are of a kind. -/
def takeWhile (isWanted : UInt8 → Bool) : Reader Bytes := do
  take ((← rest).takeWhile isWanted).length

/-- Takes blanks, joined lines and a comment. -/
def skipBlanks : (fuel : Nat) → Reader Unit
  | 0 => pure ()
  | fuel + 1 => do
    match ← rest with
    | c :: d :: _ =>
      if c = backslash ∧ d = lineFeed then
        let _ ← take 2
        skipBlanks fuel
      else if c = 32 ∨ c = 9 then
        let _ ← take 1
        skipBlanks fuel
      else if c = '#'.toUInt8 then
        let _ ← takeWhile (· != lineFeed)
    | [c] => if c = 32 ∨ c = 9 ∨ c = '#'.toUInt8 then let _ ← take 1
    | [] => pure ()

/-- The text up to a backquote, as a script of its own. A backslash takes the meaning of a byte
    away. -/
def untilBackquote (quoted : Bool) : Bytes → Option (Bytes × Bytes)
  | [] => none
  | c :: rest =>
    if c = backquote then some ([], rest)
    else if c ≠ backslash then
      (untilBackquote quoted rest).map fun (text, rest) => (c :: text, rest)
    else match rest with
      | [] => none
      | d :: rest =>
        if d = lineFeed then untilBackquote quoted rest
        else
          let isEscaped := [backslash, backquote, dollar].contains d || (quoted && d == doubleQuote)
          (untilBackquote quoted rest).map fun (text, rest) =>
            ((if isEscaped then [d] else [c, d]) ++ text, rest)

/-- The lines up to one that ends a document, and what follows. If they are joined by backslashes, a
    line that continues another one does not end it. -/
def untilDelimiter (document : Document) : (fuel : Nat) → (joined : Bool) → Bytes → Bytes × Bytes
  | 0, _, s => (s, [])
  | _, _, [] => ([], [])
  | fuel + 1, joined, s =>
    let line := Bytes.before lineFeed s
    let after := s.drop (line.length + 1)
    let line := if document.indented then line.dropWhile (· == 9) else line
    if line = document.delimiter ∧ !joined then ([], after)
    else
      let slashes := (line.reverse.takeWhile (· == backslash)).length
      let goesOn := !document.verbatim && slashes % 2 == 1
      let (text, rest) := untilDelimiter document fuel goesOn after
      (line ++ (if s.contains lineFeed then [lineFeed] else []) ++ text, rest)

/-! ## Tokens -/

/-- The operators between commands; those that start with others come first. -/
def operators (extended : Bool) : List String :=
  (if extended then [";;&", ";&", "|&"] else []) ++ ["&&", "||", ";;", "&", "|", ";", "(", ")"]

/-- The operators of redirections; those that start with others come first. -/
def redirections (extended : Bool) : List String :=
  (if extended then ["&>>", "&>", "<<<"] else []) ++
    ["<<-", "<<", "<&", "<>", "<", ">>", ">&", ">|", ">"]

def opensChannel (text : Bytes) : Bool := (utf8 "<(").isPrefixOf text || (utf8 ">(").isPrefixOf text

/-- The words that commands are made of. -/
def keywords : List String :=
  ["!", "case", "do", "done", "elif", "else", "esac", "fi", "for", "if", "in", "then", "until",
   "while", "\x7b", "\x7d"]

def Token.keyword? : Token → Option String
  | .word spelled =>
    spelled.plain?.bind fun text => keywords.find? fun keyword => utf8 keyword = text
  | _ => none

/-- A token as it is named in faults. -/
def Token.name (token : Token) : Bytes :=
  let quote (text : String) : Bytes := utf8 "\"" ++ utf8 text ++ utf8 "\""
  match token with
  | .ending => utf8 "end of file"
  | .newline => utf8 "newline"
  | .operator text => quote text
  | .redirection .. => utf8 "redirection"
  | .word _ => match token.keyword? with
    | some keyword => quote keyword
    | none => utf8 "word"

def Token.endsList (token : Token) : Bool :=
  match token with
  | .ending => true
  | .operator text => [")", ";;", ";&", ";;&"].contains text
  | _ => token.keyword?.any
      ["do", "done", "elif", "else", "esac", "fi", "then", "\x7d"].contains

def Token.isOperator (token : Token) (text : String) : Bool :=
  match token with
  | .operator other => other == text
  | _ => false

def Token.isNewline : Token → Bool
  | .newline => true
  | _ => false

/-- The token is a word without quotes and values. -/
def Token.isWord (token : Token) (text : String) : Bool :=
  match token with
  | .word spelled => spelled.plain? == some (utf8 text)
  | _ => false

def Token.isEnding : Token → Bool
  | .ending => true
  | _ => false

/-- What surrounds the pieces of a word. -/
inductive Frame where
  | bare
  | quotes
  /-- In quotes, more quotes inside may be open. -/
  | braces (quoted inner : Bool)
  /-- An expression, with so many brackets that are still open. -/
  | sum (depth : Nat)
  | document
  /-- A subscript, with so many brackets that are still open. -/
  | subscript (depth : Nat)
  /-- An expression to match with, or the group of a pattern. -/
  | pattern (group : Bool) (depth : Nat)

namespace Frame

def isQuoted : Frame → Bool
  | bare | subscript _ | pattern .. => false
  | braces quoted _ => quoted
  | _ => true

/-- A byte that stands for itself. -/
def isOrdinary (frame : Frame) (c : UInt8) : Bool :=
  !(c == backslash || c == dollar || c == backquote) && match frame with
    | bare => !(c == singleQuote || c == doubleQuote || endsWord c)
    | quotes => c != doubleQuote
    | braces .. => !(c == singleQuote || c == doubleQuote || c == closingBrace)
    | sum _ => !(c == openingBracket || c == closingBracket)
    | document => true
    | subscript _ =>
      !(c == singleQuote || c == doubleQuote || c == '['.toUInt8 || c == ']'.toUInt8)
    | pattern .. =>
      !(c == singleQuote || c == doubleQuote || c == openingBracket || c == closingBracket ||
        Bytes.isSpace c)

/-- A backslash takes the meaning of this byte away. -/
def isEscapable (frame : Frame) (c : UInt8) : Bool :=
  [dollar, backquote, backslash].contains c || match frame with
    | bare | braces false _ | subscript _ | pattern .. => true
    | braces true _ => c == doubleQuote || c == closingBrace
    | quotes | sum _ => c == doubleQuote
    | document => false

end Frame

def pushBack (token : Token) : Reader Unit := modify ({ · with back := some token })

/-- A token as it is named in faults of the extended language. -/
def Token.text (token : Token) : Bytes :=
  match token with
  | .operator name | .redirection _ name => utf8 name
  | .word spelled => (spelled.plain?).getD (utf8 "word")
  | token => token.name

def unexpected {α : Type} (token : Token) (expected : Option String) : Reader α := do
  if ← isExtended then
    if token.isEnding then fault (utf8 "syntax error: unexpected end of file")
    else fault (utf8 "syntax error near unexpected token " ++ 96 :: token.text ++ [39])
  fault (token.name ++ utf8 " unexpected" ++ match expected with
    | none => []
    | some "word" => utf8 " (expecting word)"
    | some text => utf8 " (expecting \"" ++ utf8 text ++ utf8 "\")")

/-- The text up to a quote, and what comes after that. A backslash takes the meaning of a byte away. -/
def untilQuote : Bytes → Option (Bytes × Bytes)
  | [] => none
  | 92 :: c :: rest => (untilQuote rest).map fun (text, rest) => (92 :: c :: text, rest)
  | c :: rest =>
    if c = singleQuote then some ([], rest)
    else (untilQuote rest).map fun (text, rest) => (c :: text, rest)

/-- A text with its escapes resolved. -/
def unescape : (fuel : Nat) → Bytes → Bytes
  | 0, s => s
  | _, [] => []
  | fuel + 1, c :: rest =>
    if c ≠ backslash then c :: unescape fuel rest
    else match rest with
      | 69 :: rest => 27 :: unescape fuel rest
      | 99 :: d :: rest => (Bytes.upperByte d ^^^ 64) :: unescape fuel rest
      | rest =>
        let escapes : Format.Escapes :=
          { afterZero := false, hex := true, plain := utf8 "'\"?", ends := false, codes := .short }
        match Format.readEscape escapes rest with
        | .bytes bytes rest => bytes ++ unescape fuel rest
        | .ends | .faulty _ => []

/-- The pieces before and after the first byte of that kind that has no quotes around it. A condition
    with two values in an expression is not cut: `depth` counts the question marks. -/
def splitAt (mark : UInt8) : (depth : Nat) → Word → Option (Word × Word)
  | _, [] => none
  | depth, .text bytes false :: rest =>
    let isCondition := mark == ':'.toUInt8
    let found := bytes.zipIdx.foldl (fun (depth, place) (c, index) =>
      match place with
      | some place => (depth, some place)
      | none =>
        if isCondition && c == '?'.toUInt8 then (depth + 1, none)
        else if c = mark then (if depth = 0 then (0, some index) else (depth - 1, none))
        else (depth, none)) (depth, (none : Option Nat))
    match found with
    | (_, some place) =>
      some ([.text (bytes.take place) false], .text (bytes.drop (place + 1)) false :: rest)
    | (depth, none) =>
      (splitAt mark depth rest).map fun (before, after) => (.text bytes false :: before, after)
  | depth, piece :: rest =>
    (splitAt mark depth rest).map fun (before, after) => (piece :: before, after)

/-- The last piece, which comes first here, ends with a sign after which a bracket opens a group. -/
def opensGroup : List Piece → Bool
  | .text bytes false :: _ => bytes.getLast?.any (utf8 "?*+@!").contains
  | _ => false

/-- The expressions between the semicolons of the head of a loop. -/
def headParts : (current : Word) → Word → List Word
  | current, [] => [current.reverse]
  | current, .text bytes quoted :: rest =>
    match Bytes.fields ';'.toUInt8 bytes with
    | [] | [_] => headParts (.text bytes quoted :: current) rest
    | first :: others =>
      let last := others.getLast?.getD []
      let middle := others.dropLast.map fun (part : Bytes) => [Piece.text part quoted]
      (Piece.text first quoted :: current).reverse :: middle ++
        headParts [.text last quoted] rest
  | current, piece :: rest => headParts (piece :: current) rest

/-- What the name of a command is replaced by, unless it is in what it was replaced by. -/
def alias? (source : Source) (word : Word) : Option Bytes := do
  let name ← word.plain?
  let value ← source.aliases.lookup name
  let inUse := source.replaced.any fun entry =>
    entry.1 = name && decide (entry.2 ≤ source.rest.length)
  if inUse then none else some value

/-- Puts text in the stead of a name. -/
def replaceBy (name value : Bytes) : Reader Unit := modify fun source =>
  { source with
    rest := value ++ source.rest, replaced := (name, source.rest.length) :: source.replaced }

def specialNames : List String :=
  [".", ":", "break", "continue", "eval", "exec", "exit", "export", "readonly", "return", "set",
   "shift", "times", "trap", "unset"]

/-- Takes the line that is to end a document, in which nothing but quotes has a meaning, and whether
    there are any. -/
def delimiterText : (fuel : Nat) → (quoted : Bool) → (found : Bytes) → (marked : Bool) →
    Reader (Bytes × Bool)
  | 0, _, _, _ => fault (utf8 "too long")
  | fuel + 1, quoted, found, marked => do
    match ← rest with
    | [] => if quoted then fault (utf8 "Unterminated quoted string") else return (found, marked)
    | c :: after =>
      if c = doubleQuote then
        let _ ← take 1
        delimiterText fuel (!quoted) found true
      else if c = backslash then
        let _ ← take 1
        match after with
        | [] => return (found ++ [c], true)
        | d :: _ =>
          let _ ← take 1
          if d = lineFeed then delimiterText fuel quoted found marked
          else if quoted && !([dollar, backquote, backslash, doubleQuote] : Bytes).contains d then
            delimiterText fuel quoted (found ++ [c, d]) true
          else delimiterText fuel quoted (found ++ [d]) true
      else if c = singleQuote ∧ !quoted then
        let _ ← take 1
        let bytes ← takeWhile (· != singleQuote)
        if (← take 1).isEmpty then fault (utf8 "Unterminated quoted string")
        delimiterText fuel quoted (found ++ bytes) true
      else if endsWord c ∧ !quoted then return (found, marked)
      else
        let _ ← take 1
        delimiterText fuel quoted (found ++ [c]) marked

/-- A word that starts like the name of an element. -/
def startsElement (bytes : Bytes) : Bool :=
  let name := bytes.takeWhile isNameByte
  isName name && bytes[name.length]? == some '['.toUInt8

mutual

/-- Reads pieces up to the end of what surrounds them; those before come last. -/
def pieces : (fuel : Nat) → Frame → List Piece → Reader Word
  | 0, _, _ => fault (utf8 "too long")
  | fuel + 1, frame, before => do
    let quoted := frame.isQuoted
    let put (count : Nat) : Reader Word := do
      let bytes ← take count
      pieces fuel frame (.text bytes quoted :: before)
    match ← rest with
    | [] =>
      match frame with
      | .bare | .document => return before.reverse
      | .quotes => unclosed doubleQuote "Unterminated quoted string"
      | .braces true _ => unclosed doubleQuote "Unterminated quoted string"
      | .braces false _ => unclosed closingBrace "Missing '\x7d'"
      | .sum _ => unclosed closingBracket "Missing '))'"
      | .pattern false 0 => return before.reverse
      | .subscript _ | .pattern .. => fault (utf8 "unexpected end of file")
    | c :: after =>
      if c = backslash then
        match after with
        | [] => put 1
        | d :: _ =>
          if d = lineFeed then
            let _ ← take 2
            pieces fuel frame before
          else if frame.isEscapable d then
            let _ ← take 2
            pieces fuel frame (.text [d] true :: before)
          else put 2
      else if c = dollar then
        let _ ← take 1
        let piece ← substitution fuel quoted
        pieces fuel frame (piece :: before)
      else if c = backquote then
        match untilBackquote quoted after with
        | none => unclosed backquote "EOF in backquote substitution"
        | some (text, others) =>
          let lines := (after.take (after.length - others.length)).count lineFeed
          let source ← get
          set { source with rest := text, pending := [], back := none }
          let script ← items fuel false none
          let inner ← get
          let next ← token fuel
          if !next.isEnding then unexpected next none
          set { source with
            rest := others, line := source.line + lines, documents := inner.documents
            bodies := inner.bodies }
          pieces fuel frame (.output script quoted :: before)
      else match frame with
        | .bare | .braces false _ | .subscript _ | .pattern .. =>
          if c = singleQuote then
            let _ ← take 1
            let bytes ← takeWhile (· != singleQuote)
            if (← take 1).isEmpty then unclosed singleQuote "Unterminated quoted string"
            pieces fuel frame (.text bytes true :: before)
          else if c = doubleQuote then
            let _ ← take 1
            let inner ← pieces fuel .quotes []
            match inner with
            | [.parameter name .none _] =>
              if name = utf8 "@" then pieces fuel frame (inner ++ before)
              else pieces fuel frame (inner ++ .text [] true :: before)
            | inner =>
              let inner := if ← isExtended then Piece.quoted inner else .text [] true :: inner
              pieces fuel frame (inner.reverse ++ before)
          else match frame with
            | .bare =>
              let source ← get
              if source.extended && opensChannel source.rest then
                let _ ← take 2
                let script ← enclosed fuel
                pieces fuel frame (.channel (c == '<'.toUInt8) script :: before)
              else if source.grouping && c == openingBracket && opensGroup before then
                let _ ← take 1
                let group ← pieces fuel (.pattern true 0) [.text [c] false]
                pieces fuel frame (group.reverse ++ before)
              else if endsWord c then return before.reverse
              else
                let bytes := source.rest.takeWhile frame.isOrdinary
                if source.extended && before.isEmpty && startsElement bytes then
                  match ← attemptSubscript fuel with
                  | some start => pieces fuel frame start.reverse
                  | none => put bytes.length
                else put bytes.length
            | .subscript depth =>
              if c = '['.toUInt8 then
                let bytes ← take 1
                pieces fuel (.subscript (depth + 1)) (.text bytes false :: before)
              else if c = ']'.toUInt8 then
                let bytes ← take 1
                match depth with
                | depth + 1 => pieces fuel (.subscript depth) (.text bytes false :: before)
                | 0 => return before.reverse
              else put ((← rest).takeWhile frame.isOrdinary).length
            | .pattern group depth =>
              if c = openingBracket then
                let bytes ← take 1
                pieces fuel (.pattern group (depth + 1)) (.text bytes false :: before)
              else if c = closingBracket then
                match group, depth with
                | false, 0 => return before.reverse
                | true, 0 =>
                  let bytes ← take 1
                  return (.text bytes false :: before).reverse
                | group, depth + 1 =>
                  let bytes ← take 1
                  pieces fuel (.pattern group depth) (.text bytes false :: before)
              else if Bytes.isSpace c then
                if !group && depth = 0 then return before.reverse else put 1
              else put ((← rest).takeWhile frame.isOrdinary).length
            | _ =>
              if c = closingBrace then
                let _ ← take 1
                return before.reverse
              else put ((← rest).takeWhile frame.isOrdinary).length
        | .quotes =>
          if c = doubleQuote then
            let _ ← take 1
            return before.reverse
          else put ((← rest).takeWhile frame.isOrdinary).length
        | .braces true inner =>
          if c = closingBrace ∧ !inner then
            let _ ← take 1
            return before.reverse
          else if c = doubleQuote then
            let _ ← take 1
            pieces fuel (.braces true !inner) (.text [] true :: before)
          else if c = singleQuote ∨ c = closingBrace then put 1
          else put ((← rest).takeWhile frame.isOrdinary).length
        | .sum depth =>
          if c = openingBracket then
            let bytes ← take 1
            pieces fuel (.sum (depth + 1)) (.text bytes quoted :: before)
          else if c = closingBracket then
            match depth with
            | depth + 1 =>
              let bytes ← take 1
              pieces fuel (.sum depth) (.text bytes quoted :: before)
            | 0 =>
              if after.head? = some closingBracket then
                let _ ← take 2
                return before.reverse
              else put 1
          else put ((← rest).takeWhile frame.isOrdinary).length
        | .document => put ((← rest).takeWhile frame.isOrdinary).length

/-- Reads what follows a dollar sign. -/
def substitution : (fuel : Nat) → (quoted : Bool) → Reader Piece
  | 0, _ => fault (utf8 "too long")
  | fuel + 1, quoted => do
    match ← rest with
    | [] => return .text [dollar] quoted
    | c :: after =>
      let extended ← isExtended
      if c = openingBracket then
        if after.head? = some openingBracket then
          let _ ← take 2
          return .sum (← pieces fuel (.sum 0) []) quoted
        else
          let _ ← take 1
          return .output (← enclosed fuel) quoted
      else if c = openingBrace then
        let _ ← take 1
        if extended then extendedBraced fuel quoted else braced fuel quoted
      else if extended && !quoted && c == singleQuote then
        let _ ← take 1
        match untilQuote after with
        | none => fault (utf8 "unexpected EOF while looking for matching " ++ [96, 39, 39])
        | some (raw, others) =>
          let _ ← take (after.length - others.length)
          return .text (unescape (raw.length + 1) raw) true
      else if extended && !quoted && c == doubleQuote then return .text [] true
      else if isNameStart c then return .parameter (← takeWhile isNameByte) .none quoted
      else if Bytes.isDigit c || (utf8 "@*#?-$!").contains c then
        return .parameter (← take 1) .none quoted
      else return .text [dollar] quoted

def enclosed : (fuel : Nat) → Reader (Option Script)
  | 0 => fault (utf8 "too long")
  | fuel + 1 => do
    let outer := (← get).pending
    modify ({ · with pending := [] })
    let script ← items fuel false none
    let next ← token fuel
    if !next.isOperator ")" then unexpected next (some ")")
    takeDocuments fuel
    modify ({ · with pending := outer })
    return script

def extendedBraced : (fuel : Nat) → (quoted : Bool) → Reader Piece
  | 0, _ => fault (utf8 "too long")
  | fuel + 1, quoted => do
    let isSpecial (c : UInt8) : Bool := (utf8 "@*#?-$!").contains c
    let readName : Reader Bytes := do
      match ← rest with
      | [] => return []
      | c :: _ =>
        if isNameStart c then takeWhile isNameByte
        else if Bytes.isDigit c then takeWhile Bytes.isDigit
        else if isSpecial c then take 1
        else return []
    let starts (c : UInt8) : Bool := isNameByte c || c == '@'.toUInt8 || c == '*'.toUInt8
    let (isLength, indirect) := match ← rest with
      | c :: d :: after =>
        (c == '#'.toUInt8 && (starts d || (d != closingBrace && after.head? == some closingBrace)),
          c == '!'.toUInt8 && (isNameByte d ||
            ((utf8 "#@*").contains d && after.head?.any fun e => e == closingBrace || e == '-'.toUInt8)))
      | _ => (false, false)
    if isLength || indirect then let _ ← take 1
    let start := (← get).rest
    let name ← readName
    let subscript ← if isNameStart (name.headD 0) && (← rest).head? == some '['.toUInt8 then do
        let _ ← take 1
        pure (some (← pieces fuel (.subscript 0) []))
      else pure none
    let isAll := match subscript with
      | some [.text [c] false] => c == '@'.toUInt8 || c == '*'.toUInt8
      | _ => false
    let finish (change : Change) : Reader Piece :=
      if subscript.isNone && !indirect then return .parameter name change quoted
      else return .element name subscript indirect change quoted
    let bad : Reader Piece := do
      let _ ← pieces fuel (.braces quoted false) []
      let used := start.take (start.length - (← rest).length)
      return .parameter (utf8 "$\x7b" ++ used) .invalid quoted
    if name.isEmpty then bad
    else if isLength then
      if (← rest).head? = some closingBrace then
        let _ ← take 1
        finish .length
      else bad
    else
      let left ← rest
      match left with
      | [] => fault (utf8 "unexpected EOF while looking for matching " ++ [96, 125, 39])
      | c :: after =>
        let word := pieces fuel (.braces quoted false) []
        let pattern := pieces fuel (.braces false false) []
        let isSign (sign : Char) : Bool := c == sign.toUInt8
        if c = closingBrace then
          let _ ← take 1
          if indirect && isAll then return .element name subscript false .keys quoted
          else finish .none
        else if indirect && subscript.isNone && (isSign '*' || isSign '@') &&
            after.head? == some closingBrace then
          let _ ← take 2
          return .element name none false .names (quoted && isSign '@')
        else if isSign ':' && !after.head?.any (utf8 "-=?+").contains then
          let _ ← take 1
          let whole ← pattern
          match splitAt ':'.toUInt8 0 whole with
          | some (start, length) => finish (.slice start (some length))
          | none => finish (.slice whole none)
        else if isSign '/' then
          let _ ← take 1
          let sign := (← rest).head?
          let every := sign == some '/'.toUInt8
          let place := if sign == some '#'.toUInt8 then some false
            else if sign == some '%'.toUInt8 then some true else none
          if every || place.isSome then let _ ← take 1
          let whole ← pattern
          let (wanted, replacement) := (splitAt '/'.toUInt8 0 whole).getD (whole, [])
          finish (.replace every place wanted replacement)
        else if isSign '^' || isSign ',' || isSign '~' then
          let _ ← take 1
          let every := (← rest).head? == some c
          if every then let _ ← take 1
          let upper := if isSign '^' then some true else if isSign ',' then some false else none
          finish (.fold upper every (← pattern))
        else if isSign '@' && (after[1]?) == some closingBrace then
          let _ ← take 3
          finish (.transform (after.headD 0))
        else if isSign '#' || isSign '%' then
          let _ ← take 1
          let longest := (← rest).head? == some c
          if longest then let _ ← take 1
          finish (.cut (isSign '%') longest (← pattern))
        else
          let colon := isSign ':'
          let sign := if colon then after.headD 0 else c
          if !(utf8 "-=?+").contains sign then bad
          else
            let _ ← take (if colon then 2 else 1)
            let inside ← word
            finish (if sign = '-'.toUInt8 then .default colon inside
              else if sign = '='.toUInt8 then .assign colon inside
              else if sign = '?'.toUInt8 then .demand colon inside
              else .alternative colon inside)

def braced : (fuel : Nat) → (quoted : Bool) → Reader Piece
  | 0, _ => fault (utf8 "too long")
  | fuel + 1, quoted => do
    let hash := '#'.toUInt8
    let isSpecial (c : UInt8) : Bool := Bytes.isDigit c || (utf8 "@*#?-$!").contains c
    let readName : Reader Bytes := do
      match ← rest with
      | [] => return []
      | c :: _ =>
        if isNameStart c then takeWhile isNameByte
        else if Bytes.isDigit c then takeWhile Bytes.isDigit
        else if isSpecial c then take 1
        else return []
    let isLength := match ← rest with
      | c :: d :: after =>
        c == hash && (isNameByte d || (d != closingBrace && after.head? == some closingBrace))
      | _ => false
    if isLength then
      let _ ← take 1
      let name ← readName
      if name.isEmpty then let _ ← take 1
      if (← rest).head? = some closingBrace then
        let _ ← take 1
        return .parameter name (if name.isEmpty then .invalid else .length) quoted
      else
        let _ ← pieces fuel (.braces quoted false) []
        return .parameter name .invalid quoted
    let name ← readName
    if name.isEmpty then
      let _ ← pieces fuel (.braces quoted false) []
      return .parameter name .invalid quoted
    let colon := (← rest).head? == some ':'.toUInt8
    if colon then let _ ← take 1
    match ← take 1 with
    | [] => fault (utf8 "Missing '\x7d'")
    | c :: _ =>
      if c = closingBrace then
        return .parameter name (if colon then .invalid else .none) quoted
      let word := pieces fuel (.braces quoted false) []
      if c = '-'.toUInt8 then return .parameter name (.default colon (← word)) quoted
      else if c = '='.toUInt8 then return .parameter name (.assign colon (← word)) quoted
      else if c = '?'.toUInt8 then return .parameter name (.demand colon (← word)) quoted
      else if c = '+'.toUInt8 then return .parameter name (.alternative colon (← word)) quoted
      else if (c = hash ∨ c = '%'.toUInt8) ∧ !colon then
        let longest := (← rest).head? == some c
        if longest then let _ ← take 1
        return .parameter name (.cut (c != hash) longest (← pieces fuel (.braces false false) [])) quoted
      else
        let _ ← word
        return .parameter name .invalid quoted

def takeDocuments : (fuel : Nat) → Reader Unit
  | 0 => fault (utf8 "too long")
  | fuel + 1 => do
    match (← get).pending with
    | [] => return
    | document :: others =>
      let text ← rest
      let (body, after) := untilDelimiter document (text.length + 1) false text
      let lines := (text.take (text.length - after.length)).count lineFeed
      let source ← get
      let word ← if document.verbatim then pure [.text body true]
        else
          set { source with rest := body, pending := [], back := none }
          pieces fuel .document []
      let inner ← get
      set { source with
        rest := after, line := source.line + lines, pending := others
        documents := inner.documents, bodies := (document.index, word) :: inner.bodies }
      takeDocuments fuel

/-- Takes the next token. -/
def token : (fuel : Nat) → Reader Token
  | 0 => fault (utf8 "too long")
  | fuel + 1 => do
    if let some token := (← get).back then
      modify ({ · with back := none })
      return token
    skipBlanks ((← rest).length + 1)
    match ← rest with
    | [] => return .ending
    | c :: after =>
      if c = lineFeed then
        let _ ← take 1
        takeDocuments fuel
        return .newline
      let text := c :: after
      let extended ← isExtended
      let both := extended && (utf8 "&>").isPrefixOf text
      if let some operator := if both then none
          else (operators extended).find? fun operator => (utf8 operator).isPrefixOf text then
        let _ ← take (utf8 operator).length
        return .operator operator
      let digits := if extended then text.takeWhile Bytes.isDigit
        else (text.take 1).takeWhile Bytes.isDigit
      let numbered := !digits.isEmpty && (text[digits.length]?).any (utf8 "<>").contains
      let behind := if numbered then text.drop digits.length else text
      match if extended && opensChannel behind && !numbered then none
        else (redirections extended).find? fun operator => (utf8 operator).isPrefixOf behind with
      | some operator =>
        let _ ← take ((utf8 operator).length + if numbered then digits.length else 0)
        return .redirection (if numbered then some (Bytes.digitsValue digits) else none) operator
      | none => return .word (← pieces fuel .bare [])

/-- Takes the next token that is no line end. -/
def tokenBehindLines : (fuel : Nat) → Reader Token
  | 0 => fault (utf8 "too long")
  | fuel + 1 => do
    let next ← token fuel
    if next.isNewline then tokenBehindLines fuel else return next

/-- Takes a keyword that has to come next. -/
def expect (keyword : String) : (fuel : Nat) → Reader Unit
  | 0 => fault (utf8 "too long")
  | fuel + 1 => do
    let next ← tokenBehindLines fuel
    if next.keyword? ≠ some keyword && !next.isOperator keyword then
      unexpected next (some keyword)

def target : (fuel : Nat) → (descriptor : Option Nat) → (operator : String) → Reader (List Redirection)
  | 0, _, _ => fault (utf8 "too long")
  | fuel + 1, descriptor, operator => do
    let number := descriptor.getD (if operator.startsWith "<" then 0 else 1)
    if operator = "<<" ∨ operator = "<<-" then
      skipBlanks ((← rest).length + 1)
      let (text, verbatim) ← delimiterText ((← rest).length + 1) false [] false
      if text.isEmpty && !verbatim then unexpected (← token fuel) none
      let source ← get
      let index := source.documents
      let document : Document := ⟨index, text, operator == "<<-", verbatim⟩
      set { source with documents := index + 1, pending := source.pending ++ [document] }
      return [.document number ((source.known.lookup index).getD [])]
    let next ← token fuel
    let .word word := next | unexpected next none
    let withErrors (kind : FileRedirection) : List Redirection :=
      [.file 1 kind word, .duplicate 2 [.text (utf8 "1") false]]
    match operator with
    | "<&" | ">&" =>
      match word.plain? with
      | some text =>
        let isNumber := Bytes.allDigits text && ((← isExtended) || text.length == 1)
        let isMove := (← isExtended) && 1 < text.length && text.getLast? == some '-'.toUInt8 &&
          Bytes.allDigits text.dropLast
        if text = utf8 "-" ∨ isNumber then return [.duplicate number word]
        else if isMove then
          let source := text.dropLast
          return [.duplicate number [.text source false],
            .duplicate (Bytes.digitsValue source) [.text (utf8 "-") false]]
        else if (← isExtended) && operator == ">&" && descriptor.isNone then
          return withErrors .output
        else fault (utf8 "Bad fd number")
      | none => return [.duplicate number word]
    | "&>" => return withErrors .output
    | "&>>" => return withErrors .append
    | "<<<" => return [.document number (word ++ [.text [lineFeed] true])]
    | "<" => return [.file number .input word]
    | "<>" => return [.file number .readWrite word]
    | ">>" => return [.file number .append word]
    | ">|" => return [.file number .clobber word]
    | _ => return [.file number .output word]

/-- Takes redirections as long as they come. -/
def redirectionsAfter : (fuel : Nat) → Reader (List Redirection)
  | 0 => fault (utf8 "too long")
  | fuel + 1 => do
    let next ← token fuel
    match next with
    | .redirection descriptor operator =>
      let first ← target fuel descriptor operator
      return first ++ (← redirectionsAfter fuel)
    | next =>
      pushBack next
      return []

/-- Commands with separators between them, after `before`. They end before a token that ends a list;
    with `required`, there has to be one. -/
def items : (fuel : Nat) → (required : Bool) → (before : Option Script) → Reader (Option Script)
  | 0, _, _ => fault (utf8 "too long")
  | fuel + 1, required, before => do
    let start ← tokenBehindLines fuel
    pushBack start
    if start.isEnding || (!required && start.endsList) then return before
    let (next, separator) ← item fuel
    let all := match before with
      | none => next
      | some before => .sequence before next
    match separator with
    | .operator ";" | .operator "&" => items fuel false (some all)
    | .newline | .ending =>
      pushBack separator
      items fuel false (some all)
    | separator =>
      pushBack separator
      return some all

/-- One command of a list, and the token after it. -/
def item : (fuel : Nat) → Reader (Script × Token)
  | 0 => fault (utf8 "too long")
  | fuel + 1 => do
    let line := (← get).line
    let script ← chain fuel (← pipeline fuel)
    let separator ← token fuel
    if separator.isOperator "&" then
      let script := match script with
        | .redirect line body redirections => .background line body redirections
        | body => .background line body []
      return (script, separator)
    else return (script, separator)

/-- Pipelines joined by "and" and "or". -/
def chain : (fuel : Nat) → Script → Reader Script
  | 0, _ => fault (utf8 "too long")
  | fuel + 1, first => do
    let next ← token fuel
    if next.isOperator "&&" || next.isOperator "||" then
      pushBack (← tokenBehindLines fuel)
      let second ← pipeline fuel
      chain fuel (if next.isOperator "&&" then .both first second else .either first second)
    else
      pushBack next
      return first

def pipeline : (fuel : Nat) → Reader Script
  | 0 => fault (utf8 "too long")
  | fuel + 1 => do
    let start ← token fuel
    let isTimed := (← isExtended) && start.isWord "time"
    let start ← if isTimed then token fuel else pure start
    let start ← if isTimed && start.isWord "-p" then token fuel else pure start
    let negated := start.keyword? == some "!"
    if !negated then pushBack start
    if isTimed && (start.endsList || start.isNewline || start.isOperator ";") then
      return .timed (.simple 0 [] [] [])
    let stages ← stages fuel
    let script := match stages with
      | [single] => single
      | stages => .pipeline stages
    let script := if negated then .negate script else script
    return if isTimed then .timed script else script

/-- Commands with bars between them. -/
def stages : (fuel : Nat) → Reader (List Script)
  | 0 => fault (utf8 "too long")
  | fuel + 1 => do
    let first ← command fuel
    let next ← token fuel
    if next.isOperator "|" || next.isOperator "|&" then
      pushBack (← tokenBehindLines fuel)
      let errors : List Redirection := [.duplicate 2 [.text (utf8 "1") false]]
      let first := if next.isOperator "|" then first
        else match first with
          | .simple line assignments words redirections =>
            .simple line assignments words (redirections ++ errors)
          | first => .redirect 0 first errors
      return first :: (← stages fuel)
    else
      pushBack next
      return [first]

/-- Commands that have to be there, unless the text ends before them. -/
def body : (fuel : Nat) → Reader Script
  | 0 => fault (utf8 "too long")
  | fuel + 1 => do return (← items fuel true none).getD default

def command : (fuel : Nat) → Reader Script
  | 0 => fault (utf8 "too long")
  | fuel + 1 => do
    let start ← token fuel
    let line := (← get).line
    let closed (script : Script) : Reader Script := do
      match ← redirectionsAfter fuel with
      | [] => return script
      | redirections =>
        return match script with
          | .subshell line body _ => .subshell line body redirections
          | script => .redirect line script redirections
    let extended ← isExtended
    match start with
    | .operator "(" =>
      let source ← get
      if extended && source.rest.head? == some openingBracket then
        match (do
            let _ ← take 1
            pieces fuel (.sum 0) [] : Reader Word).run source with
        | .ok (expression, after) =>
          set after
          return ← closed (.reckon line expression)
        | .error _ => pure ()
      let script ← body fuel
      expect ")" fuel
      closed (.subshell line script [])
    | .redirection .. =>
      pushBack start
      simple fuel line [] [] []
    | .word word =>
      match start.keyword? with
      | some "if" => closed (← choice fuel)
      | some "while" | some "until" =>
        let condition ← body fuel
        expect "do" fuel
        let script ← body fuel
        expect "done" fuel
        closed (.loop (start.keyword? == some "while") condition script)
      | some "for" => closed (← repetition fuel line)
      | some "case" =>
        let next ← token fuel
        let .word word := next | unexpected next (some "word")
        expect "in" fuel
        closed (.select line word (← arms fuel))
      | some "\x7b" =>
        let script ← body fuel
        expect "\x7d" fuel
        closed script
      | some _ => unexpected start none
      | none =>
        if extended && start.isWord "[[" then
          let found ← check fuel
          return ← closed (.check line found)
        if extended && start.isWord "function" then return ← definition fuel
        if extended && start.isWord "select" then
          match ← repetition fuel line with
          | .each line name words script => return ← closed (.menu line name words script)
          | script => return script
        match alias? (← get) word with
        | some value =>
          replaceBy (word.plain?.getD []) value
          pushBack (← token fuel)
          command fuel
        | none =>
          pushBack start
          simple fuel line [] [] []
    | start => unexpected start none

/-- What follows `if` or `elif`. -/
def choice : (fuel : Nat) → Reader Script
  | 0 => fault (utf8 "too long")
  | fuel + 1 => do
    let condition ← body fuel
    expect "then" fuel
    let yes ← body fuel
    let next ← token fuel
    match next.keyword? with
    | some "elif" => return .choose condition yes (some (← choice fuel))
    | some "else" =>
      let no ← body fuel
      expect "fi" fuel
      return .choose condition yes (some no)
    | _ =>
      pushBack next
      expect "fi" fuel
      return .choose condition yes none

/-- A condition up to its closing brackets. -/
def check : (fuel : Nat) → Reader Check
  | 0 => fault (utf8 "too long")
  | fuel + 1 => do
    let found ← alternatives fuel
    let next ← tokenBehindLines fuel
    if !next.isWord "]]" then unexpected next none
    return found

/-- Conditions joined by "or". -/
def alternatives : (fuel : Nat) → Reader Check
  | 0 => fault (utf8 "too long")
  | fuel + 1 => do
    let first ← conjunction fuel
    let next ← tokenBehindLines fuel
    if next.isOperator "||" then return .either first (← alternatives fuel)
    else
      pushBack next
      return first

/-- Conditions joined by "and". -/
def conjunction : (fuel : Nat) → Reader Check
  | 0 => fault (utf8 "too long")
  | fuel + 1 => do
    let first ← comparison fuel
    let next ← tokenBehindLines fuel
    if next.isOperator "&&" then return .both first (← conjunction fuel)
    else
      pushBack next
      return first

/-- A single condition. -/
def comparison : (fuel : Nat) → Reader Check
  | 0 => fault (utf8 "too long")
  | fuel + 1 => do
    let start ← tokenBehindLines fuel
    if start.isWord "!" then return .not (← comparison fuel)
    else if start.isOperator "(" then
      let found ← alternatives fuel
      let next ← tokenBehindLines fuel
      if !next.isOperator ")" then unexpected next none
      return found
    else
      let .word first := start | unexpected start none
      if start.isWord "]]" then unexpected start none
      let unary := first.plain?.filter fun text =>
        text.length == 2 && text.head? == some '-'.toUInt8 &&
          (utf8 "abcdefghknoprstuvwxzGLNORS").contains (text.getD 1 0)
      let next ← token fuel
      match unary, next with
      | some operator, .word word =>
        if !next.isWord "]]" && !(next.isWord "=" || next.isWord "==" || next.isWord "!=") then
          return .unary operator word
      | _, _ => pure ()
      match next with
      | .redirection none sign =>
        if sign != "<" && sign != ">" then unexpected next none
        let operand ← token fuel
        let .word second := operand | unexpected operand none
        return .binary (utf8 sign) first second
      | .word word =>
        if next.isWord "]]" then
          pushBack next
          return .word first
        let operator := word.plain?.getD []
        let isMatch := ["=", "==", "!="].any (utf8 · == operator)
        let isOther := ["-eq", "-ne", "-lt", "-le", "-gt", "-ge", "-nt", "-ot", "-ef"].any
          (utf8 · == operator)
        if operator = utf8 "=~" then
          skipBlanks ((← rest).length + 1)
          return .binary operator first (← pieces fuel (.pattern false 0) [])
        else if isMatch || isOther then
          let grouping := (← get).grouping
          modify ({ · with grouping := true })
          let operand ← token fuel
          modify ({ · with grouping })
          let .word second := operand | unexpected operand none
          if operand.isWord "]]" then unexpected operand none
          return .binary operator first second
        else unexpected next none
      | next =>
        pushBack next
        return .word first

/-- What follows `function`. -/
def definition : (fuel : Nat) → Reader Script
  | 0 => fault (utf8 "too long")
  | fuel + 1 => do
    let next ← token fuel
    let .word word := next | unexpected next none
    let some name := word.plain? | fault (utf8 "not a valid identifier")
    let next ← tokenBehindLines fuel
    if next.isOperator "(" && (← rest).head? != some openingBracket then
      let next ← token fuel
      if !next.isOperator ")" then unexpected next none
      pushBack (← tokenBehindLines fuel)
    else pushBack next
    return .define name (← command fuel)

def listWords : (fuel : Nat) → Reader (List Word)
  | 0 => fault (utf8 "too long")
  | fuel + 1 => do
    skipBlanks ((← rest).length + 1)
    match ← rest with
    | 91 :: _ =>
      match ← attemptElement fuel with
      | some word => return word :: (← listWords fuel)
      | none =>
        let next ← token fuel
        let .word word := next | unexpected next none
        return word :: (← listWords fuel)
    | _ =>
      let next ← tokenBehindLines fuel
      match next with
      | .word word => return word :: (← listWords fuel)
      | next =>
        if !next.isOperator ")" then unexpected next none
        return []

/-- The name of an element up to the sign behind its subscript, in which there may be blanks. -/
def attemptSubscript : (fuel : Nat) → Reader (Option Word)
  | 0 => fault (utf8 "too long")
  | fuel + 1 => do
    let source ← get
    let name := source.rest.takeWhile isNameByte
    match (do
        let _ ← take (name.length + 1)
        let subscript ← pieces fuel (.subscript 0) []
        let appends := (← rest).head? == some '+'.toUInt8
        if appends then let _ ← take 1
        return (subscript, appends) : Reader (Word × Bool)).run source with
    | .ok ((subscript, appends), after) =>
      if after.rest.head? != some '='.toUInt8 then return none
      else
        set { after with rest := after.rest.drop 1 }
        let sign := if appends then utf8 "]+=" else utf8 "]="
        return some (.text (name ++ utf8 "[") false :: subscript ++ [.text sign false])
    | .error _ => return none

/-- An element with its subscript, in which there may be blanks. -/
def attemptElement : (fuel : Nat) → Reader (Option Word)
  | 0 => fault (utf8 "too long")
  | fuel + 1 => do
    let source ← get
    match (do
        let _ ← take 1
        let subscript ← pieces fuel (.subscript 0) []
        let appends := (← rest).head? == some '+'.toUInt8
        if appends then let _ ← take 1
        return (subscript, appends) : Reader (Word × Bool)).run source with
    | .ok ((subscript, appends), after) =>
      if after.rest.head? != some '='.toUInt8 then return none
      else
        set { after with rest := after.rest.drop 1 }
        let value ← pieces fuel .bare []
        let sign := if appends then utf8 "]+=" else utf8 "]="
        return some (.text (utf8 "[") false :: subscript ++ .text sign false :: value)
    | .error _ => return none

/-- A list of elements, if one starts here. -/
def listValue? : (fuel : Nat) → Word → Reader (Option Word)
  | 0, _ => fault (utf8 "too long")
  | fuel + 1, word => do
    let source ← get
    match word.extendedAssignment? with
    | some (_, _, _, [.text [] false]) =>
      if source.extended && source.back.isNone && source.rest.head? == some openingBracket then
        let _ ← take 1
        return some [.list (← listWords fuel)]
      else return none
    | _ => return none

/-- The head and the body of a loop that counts, after the brackets that open. -/
def counting : (fuel : Nat) → (line : Nat) → Reader Script
  | 0, _ => fault (utf8 "too long")
  | fuel + 1, line => do
    let head ← pieces fuel (.sum 0) []
    match headParts [] head with
    | [first, test, next] =>
      let token ← tokenBehindLines fuel
      let token ← if token.isOperator ";" then tokenBehindLines fuel else pure token
      let isBraced := token.keyword? == some "\x7b"
      if token.keyword? ≠ some "do" && !isBraced then unexpected token (some "do")
      let script ← body fuel
      expect (if isBraced then "\x7d" else "done") fuel
      return .count line first test next script
    | _ => fault (utf8 "syntax error: arithmetic expression required")

/-- What follows `for`. -/
def repetition : (fuel : Nat) → (line : Nat) → Reader Script
  | 0, _ => fault (utf8 "too long")
  | fuel + 1, line => do
    skipBlanks ((← rest).length + 1)
    if (← isExtended) && (utf8 "((").isPrefixOf (← rest) then
      let _ ← take 2
      return ← counting fuel line
    let next ← token fuel
    let name := match next with
      | .word word => word.plain?.filter isName
      | _ => none
    let some name := name | fault (utf8 "Bad for loop variable")
    let next ← tokenBehindLines fuel
    let words ←
      if next.keyword? = some "in" then
        let words ← wordList fuel
        let next ← token fuel
        if !next.isNewline && !next.isOperator ";" then unexpected next none
        pure (some words)
      else
        if !next.isOperator ";" then pushBack next
        pure none
    let start ← tokenBehindLines fuel
    let isBraced := (← isExtended) && start.keyword? == some "\x7b"
    if start.keyword? ≠ some "do" && !isBraced then unexpected start (some "do")
    let script ← body fuel
    expect (if isBraced then "\x7d" else "done") fuel
    return .each line name words script

/-- Words as long as they come. -/
def wordList : (fuel : Nat) → Reader (List Word)
  | 0 => fault (utf8 "too long")
  | fuel + 1 => do
    let next ← token fuel
    match next with
    | .word word => return word :: (← wordList fuel)
    | next =>
      pushBack next
      return []

/-- The arms of a selection, up to its end. -/
def arms : (fuel : Nat) → Reader (List Arm)
  | 0 => fault (utf8 "too long")
  | fuel + 1 => do
    let next ← tokenBehindLines fuel
    if next.keyword? = some "esac" then return []
    let next ← if next.isOperator "(" then token fuel else pure next
    let patterns ← patterns fuel next []
    let script ← items fuel false none
    let next ← tokenBehindLines fuel
    let after : AfterArm := if next.isOperator ";&" then .runNext
      else if next.isOperator ";;&" then .tryNext else .leave
    let arm := Arm.mk patterns script after
    if next.keyword? = some "esac" then return [arm]
    if !next.isOperator ";;" && !next.isOperator ";&" && !next.isOperator ";;&" then
      unexpected next (some ";;")
    return arm :: (← arms fuel)

/-- Patterns with bars between them, up to a closing bracket. What is no word repeats the one before
    it. -/
def patterns : (fuel : Nat) → (next : Token) → (before : Word) → Reader (List Word)
  | 0, _, _ => fault (utf8 "too long")
  | fuel + 1, next, before => do
    let word := match next with
      | .word word => word
      | _ => before
    let after ← token fuel
    if after.isOperator "|" then return word :: (← patterns fuel (← token fuel) word)
    if !after.isOperator ")" then unexpected after (some ")")
    return [word]

/-- The rest of a simple command, or the definition of a function. -/
def simple : (fuel : Nat) → (line : Nat) → List Assignment → List Word → List Redirection →
    Reader Script
  | 0, _, _, _, _ => fault (utf8 "too long")
  | fuel + 1, line, assignments, words, redirections => do
    let next ← token fuel
    let done : Reader Script := do
      pushBack next
      return .simple line assignments words redirections
    match next with
    | .word word =>
      let extended ← isExtended
      if !words.isEmpty then
        let declares := extended && (words.head?.bind Word.plain?).any fun name =>
          ["declare", "typeset", "local", "export", "readonly"].any (utf8 · == name)
        let list ← if declares then listValue? fuel word else pure none
        match list with
        | some list => simple fuel line assignments (words ++ [word ++ list]) redirections
        | none => simple fuel line assignments (words ++ [word]) redirections
      else match if extended then word.extendedAssignment?
          else word.assignment?.map fun (name, value) => (name, none, false, value) with
        | some (name, subscript, appends, value) =>
          let value := (← listValue? fuel word).getD value
          simple fuel line (assignments ++ [.mk name subscript appends value]) words redirections
        | none =>
          let source ← get
          match if assignments.isEmpty then none else alias? source word with
          | some value =>
            replaceBy (word.plain?.getD []) value
            simple fuel line assignments words redirections
          | none => simple fuel line assignments [word] redirections
    | .redirection descriptor operator =>
      let more ← target fuel descriptor operator
      simple fuel line assignments words (redirections ++ more)
    | .operator "(" =>
      match assignments, words, redirections with
      | [], [word], [] =>
        let next ← token fuel
        if !next.isOperator ")" then unexpected next (some ")")
        let some name := word.plain? | fault (utf8 "Bad function name")
        let isSpecial := !isName name || specialNames.any fun special => utf8 special = name
        if isSpecial && !(← isExtended) then fault (utf8 "Bad function name")
        pushBack (← tokenBehindLines fuel)
        return .define name (← command fuel)
      | _, _, _ => done
    | _ => done

end

/-- The commands of a line, after `before`; and whether the text ends there. -/
def line : (fuel : Nat) → (before : Option Script) → Reader (Option Script × Bool)
  | 0, _ => fault (utf8 "too long")
  | fuel + 1, before => do
    let size := (← rest).length
    let steps := 16 * (size + 8)
    let start ← token steps
    match start with
    | .newline => return (before, false)
    | .ending =>
      takeDocuments steps
      return (before, true)
    | start =>
      pushBack start
      let (next, separator) ← item steps
      let all := match before with
        | none => next
        | some before => .sequence before next
      match separator with
      | .operator ";" | .operator "&" => line fuel (some all)
      | .newline => return (some all, false)
      | .ending =>
        takeDocuments steps
        return (some all, true)
      | separator => unexpected separator none

/-- A text that is still to be run, and where it starts. -/
structure Remainder where
  text : Bytes
  line : Nat := 1
deriving DecidableEq, Repr

/-- In which language a script is written: the extended one, maybe with groups in patterns. -/
structure Language where
  extended : Bool := false
  grouping : Bool := false

/-- Reads the first line of a text: its commands, and what follows if anything does. -/
def readLine (language : Language) (aliases : List (Bytes × Bytes)) (remainder : Remainder) :
    Except SyntaxFault (Option Script × Option Remainder) := do
  let source : Source :=
    { rest := remainder.text, line := remainder.line, aliases
      extended := language.extended, grouping := language.grouping }
  let read (source : Source) := (line (remainder.text.length + 1) none).run source
  let (result, after) ← read source
  let (result, after) ←
    if after.bodies.isEmpty then pure (result, after)
    else read { source with known := after.bodies }
  return (result.1, if result.2 then none else some ⟨after.rest, after.line⟩)

end ShellCompletion.ScriptReader
