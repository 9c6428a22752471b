import ShellCompletion.Command.Awk.Basic
import ShellCompletion.Command.Regex.Escaped

/-!
# Reading programs of patterns and actions

A program is read token by token. A slash starts an expression to match with wherever a value may start,
and is the sign of a division otherwise. Which parameters are arrays is told by how they are used, and by
the functions that they are passed to.
-/
namespace ShellCompletion.Awk

inductive Token where
  | number (value : Float)
  | text (bytes : Bytes)
  /-- A name; it may be followed by a bracket at once. -/
  | word (name : Bytes) (called : Bool)
  | sign (text : String)
  | newline
  | ending
deriving BEq

/-- A name that arrays may have: of a parameter of a function, or one that is known everywhere. -/
abbrev Holder := Bytes × Option Nat

/-- What is left of a program, and what has been learned of it. -/
structure Source where
  token : Token := .newline
  /-- What comes after the token. -/
  rest : Bytes
  line : Nat := 1
  /-- The values of a print command are read: the sign for "greater" ends them. -/
  printing : Bool := false
  /-- The function that is read, with the names of its parameters. -/
  function : Option (Bytes × List Bytes) := none
  loops : Nat := 0
  inRule : Bool := false
  /-- The names that are used as arrays, and those that get values. -/
  arrays : List Holder := []
  scalars : List Holder := []
  /-- The names that are passed to functions, as which arguments. -/
  passed : List (Holder × Bytes × Nat) := []
  /-- The functions that are called, with the numbers of arguments. -/
  calls : List (Bytes × Nat × Nat) := []

abbrev Reading := StateT Source (Except Fault)

namespace Reading

def fail {α : Type} (text : Bytes) : Reading α := do throw (.other (← get).line text)

/-! ## Tokens -/

def signs : List String :=
  ["<=", ">=", "==", "!=", "!~", "&&", "||", "++", "--", "+=", "-=", "*=", "/=", "%=", "^=", ">>",
   "\x7b", "\x7d", "(", ")", "[", "]", ";", ",", "+", "-", "*", "/", "%", "^", "!", ">", "<", "|", "?",
   ":", "~", "$", "="]

def isNameStart (c : UInt8) : Bool := Bytes.isAlpha c || c == '_'.toUInt8

def isNameByte (c : UInt8) : Bool := isNameStart c || Bytes.isDigit c

/-- A text whose escapes are resolved; a backslash before another byte stands for itself. -/
def unescape : (fuel : Nat) → Bytes → Bytes
  | 0, s => s
  | _, [] => []
  | fuel + 1, c :: rest =>
    if c ≠ 92 then c :: unescape fuel rest
    else match rest with
      | [] => [92]
      | d :: more =>
        let digits := (rest.take 3).takeWhile Bytes.isOctal
        let hex := (more.take 2).takeWhile Bytes.isHex
        if !digits.isEmpty then
          UInt8.ofNat (Bytes.valueIn 8 digits) :: unescape fuel (rest.drop digits.length)
        else if d = 'x'.toUInt8 ∧ !hex.isEmpty then
          UInt8.ofNat (Bytes.valueIn 16 hex) :: unescape fuel (more.drop hex.length)
        else if d = 10 then unescape fuel more
        else if d = '"'.toUInt8 then d :: unescape fuel more
        else match if d = 'e'.toUInt8 then none else Format.escapeOf? d with
          | some byte => byte :: unescape fuel more
          | none => 92 :: d :: unescape fuel more

/-- The text up to the quote that ends it, and what comes after that. -/
def quoted : (found rest : Bytes) → Option (Bytes × Bytes)
  | _, [] => none
  | found, 92 :: c :: rest => quoted (c :: 92 :: found) rest
  | found, c :: rest =>
    if c = '"'.toUInt8 then some (found.reverse, rest)
    else if c = 10 then none
    else quoted (c :: found) rest

/-- The expression up to the slash that ends it, and what comes after that. A slash in a set does not
    end it; `place` tells whether this is a set, and how far from its start. -/
def slashed : (place : Option Nat) → (found rest : Bytes) → Option (Bytes × Bytes)
  | _, _, [] => none
  | place, found, 92 :: c :: rest => slashed (place.map (· + 1)) (c :: 92 :: found) rest
  | none, found, c :: rest =>
    if c = '/'.toUInt8 then some (found.reverse, rest)
    else if c = 10 then none
    else slashed (if c = '['.toUInt8 then some 0 else none) (c :: found) rest
  | some place, found, c :: rest =>
    if c = 10 then none
    else if c = ']'.toUInt8 ∧ 0 < place then slashed none (c :: found) rest
    else slashed (some (if c = '^'.toUInt8 ∧ place = 0 then 0 else place + 1)) (c :: found) rest

/-- Reads the next token from a text, with the line feeds that are passed over. -/
def nextToken : (fuel : Nat) → Bytes → Except Bytes (Token × Bytes × Nat)
  | 0, rest => .ok (.ending, rest, 0)
  | _, [] => .ok (.ending, [], 0)
  | fuel + 1, c :: rest =>
    if c = 32 ∨ c = 9 ∨ c = 13 then nextToken fuel rest
    else if c = 10 then .ok (.newline, rest, 1)
    else if c = '#'.toUInt8 then nextToken fuel (rest.dropWhile (· != 10))
    else if c = 92 then
      match rest with
      | 10 :: rest | 13 :: 10 :: rest =>
        (nextToken fuel rest).map fun (token, rest, lines) => (token, rest, lines + 1)
      | _ => .error (utf8 "unexpected character '\\'")
    else if c = '"'.toUInt8 then
      match quoted [] rest with
      | some (raw, rest) => .ok (.text (unescape raw.length raw), rest, raw.count 10)
      | none => .error (utf8 "runaway string constant \"" ++ Bytes.before 10 rest ++ utf8 " ...")
    else if isNameStart c then
      let name := (c :: rest).takeWhile isNameByte
      let rest := (c :: rest).drop name.length
      .ok (.word name (rest.head? == some '('.toUInt8), rest, 0)
    else if Bytes.isDigit c || (c == '.'.toUInt8 && rest.head?.any Bytes.isDigit) then
      match Format.readReal 53 (c :: rest) with
      | some (value, rest) => .ok (.number value.toFloat, rest, 0)
      | none => .error (utf8 "unexpected character")
    else match signs.find? fun sign => (utf8 sign).isPrefixOf (c :: rest) with
      | some sign => .ok (.sign sign, (c :: rest).drop (utf8 sign).length, 0)
      | none => .error (utf8 "unexpected character '" ++ [c, 39])

def peek : Reading Token := do return (← get).token

/-- Goes on to the next token. -/
def advance : Reading Unit := do
  let source ← get
  match nextToken (source.rest.length + 1) source.rest with
  | .ok (token, rest, lines) => set { source with token, rest, line := source.line + lines }
  | .error text => fail text

def isSign (sign : String) : Reading Bool := do return (← peek) == .sign sign

def isWord (word : String) : Reading Bool := do
  match ← peek with
  | .word name _ => return name == utf8 word
  | _ => return false

def accept (sign : String) : Reading Bool := do
  if ← isSign sign then
    advance
    return true
  else return false

def acceptWord (word : String) : Reading Bool := do
  if ← isWord word then
    advance
    return true
  else return false

def shown : Token → Bytes
  | .number value => Format.floatText {} 'g'.toUInt8 value
  | .text bytes => utf8 "\"" ++ bytes ++ utf8 "\""
  | .word name _ => name
  | .sign text => utf8 text
  | .newline | .ending => utf8 "end of line"

def unexpected {α : Type} : Reading α := do
  let source ← get
  let line := if source.token == .newline then source.line - 1 else source.line
  throw (.syntax_ line (shown source.token))

def expect (sign : String) : Reading Unit := do
  unless ← accept sign do
    if sign == ")" then fail (utf8 "missing ) near " ++ shown (← peek)) else unexpected

/-- Passes over line feeds, and maybe semicolons. `fuel` bounds them. -/
def skip (semicolons : Bool) : (fuel : Nat) → Reading Unit
  | 0 => pure ()
  | fuel + 1 => do
    let token ← peek
    if token == .newline || (semicolons && token == .sign ";") then
      advance
      skip semicolons fuel

def skipLines : Reading Unit := do skip false ((← get).rest.length + 1)

def skipEnds : Reading Unit := do skip true ((← get).rest.length + 1)

/-- Reads something in which the sign for "greater" has its usual meaning. -/
def inner {α : Type} (reading : Reading α) : Reading α := do
  let printing := (← get).printing
  modify ({ · with printing := false })
  let result ← reading
  modify ({ · with printing })
  return result

/-- Reads something that may be left alone: without a result, nothing has been read. -/
def attempt {α : Type} (reading : Reading (Option α)) : Reading (Option α) := do
  let source ← get
  match ← reading with
  | some result => return some result
  | none =>
    set source
    return none

/-! ## Names -/

/-- The words that are no names. -/
def keywords : List String :=
  ["BEGIN", "END", "break", "continue", "delete", "do", "else", "exit", "for", "func", "function",
   "getline", "if", "in", "next", "nextfile", "print", "printf", "return", "while"]

/-- The functions that are always known, with the least and the largest number of arguments. -/
def builtins : List (String × Builtin × Nat × Nat) :=
  [("atan2", .atan2, 2, 2), ("close", .close, 1, 1), ("cos", .cos, 1, 1), ("exp", .exp, 1, 1),
   ("fflush", .fflush, 0, 1), ("gsub", .gsub, 2, 3), ("index", .index, 2, 2), ("int", .int, 1, 1),
   ("length", .length, 0, 1), ("log", .log, 1, 1), ("match", .match_, 2, 2),
   ("mktime", .mktime, 1, 2), ("rand", .rand, 0, 0), ("sin", .sin, 1, 1), ("split", .split, 2, 3),
   ("sprintf", .sprintf, 1, 255), ("sqrt", .sqrt, 1, 1), ("srand", .srand, 0, 1),
   ("strftime", .strftime, 0, 3), ("sub", .sub, 2, 3), ("substr", .substr, 2, 3),
   ("system", .system, 1, 1), ("systime", .systime, 0, 0), ("tolower", .tolower, 1, 1),
   ("toupper", .toupper, 1, 1)]

def builtin? (name : Bytes) : Option (Builtin × Nat × Nat) :=
  (builtins.find? (utf8 ·.1 == name)).map Prod.snd

def isKeyword (name : Bytes) : Bool := keywords.any (utf8 · == name)

def isPlainName (name : Bytes) : Bool := !isKeyword name && (builtin? name).isNone

/-- What a name means where it stands. -/
def resolve (name : Bytes) : Reading Name := do
  match ((← get).function.map Prod.snd).bind (·.idxOf? name) with
  | some index => return .parameter index
  | none => return .shared name

def holder : Name → Reading Holder
  | .shared name => return (name, none)
  | .parameter index => do return ((((← get).function.map Prod.fst).getD []), some index)

def useArray (name : Name) : Reading Unit := do
  let holder ← holder name
  modify fun source => { source with arrays := holder :: source.arrays }

/-- Notes that something gets a value; it must be able to. -/
def useTarget (target : Expr) : Reading Unit := do
  match target with
  | .named name =>
    let holder ← holder name
    modify fun source => { source with scalars := holder :: source.scalars }
  | .field _ | .element .. => pure ()
  | _ => unexpected

def isTarget : Expr → Bool
  | .named _ | .field _ | .element .. => true
  | _ => false

def arrayName : Reading Name := do
  match ← peek with
  | .word name _ =>
    if !isPlainName name then unexpected
    let name ← resolve name
    useArray name
    advance
    return name
  | _ => unexpected

def assignments : List (String × Option Operator) :=
  [("=", none), ("+=", some .plus), ("-=", some .minus), ("*=", some .times), ("/=", some .divided),
   ("%=", some .modulo), ("^=", some .power)]

def comparisons : List (String × Comparison) :=
  [("<", .less), ("<=", .lessOrEqual), ("==", .equal), ("!=", .notEqual), (">", .greater),
   (">=", .greaterOrEqual)]

def signOf? {α : Type} (table : List (String × α)) : Reading (Option α) := do
  match ← peek with
  | .sign text => return table.lookup text
  | _ => return none

def startsValue : Token → Bool
  | .number _ | .text _ => true
  | .word name _ => !isKeyword name
  | .sign text => ["$", "!", "(", "++", "--"].contains text
  | _ => false

def regexFrom (rest : Bytes) : Reading Expr := do
  match slashed none [] rest with
  | none => fail (utf8 "runaway regular expression /" ++ Bytes.before 10 rest ++ utf8 " ...")
  | some (text, rest) =>
    match Regex.Escaped.read text with
    | .error flaw =>
      fail (utf8 "regular expression compile failed (" ++ utf8 flaw.message ++ utf8 ")\n" ++ text)
    | .ok regex =>
      modify ({ · with rest })
      advance
      return .regex regex

/-! ## Expressions -/

mutual

def expression : (fuel : Nat) → Reading Expr
  | 0 => unexpected
  | fuel + 1 => do
    let condition ← disjunction fuel
    if ← accept "?" then
      let yes ← expression fuel
      expect ":"
      return .choice condition yes (← expression fuel)
    else return condition

def disjunction : (fuel : Nat) → Reading Expr
  | 0 => unexpected
  | fuel + 1 => do
    let first ← conjunction fuel
    if ← accept "||" then
      skipLines
      return .or first (← disjunction fuel)
    else return first

def conjunction : (fuel : Nat) → Reading Expr
  | 0 => unexpected
  | fuel + 1 => do
    let first ← memberships fuel (← matches_ fuel (← comparing fuel (← concatenation fuel)))
    if ← accept "&&" then
      skipLines
      return .and first (← conjunction fuel)
    else return first

/-- The arrays that a value is asked to be in. -/
def memberships : (fuel : Nat) → Expr → Reading Expr
  | 0, _ => unexpected
  | fuel + 1, value => do
    if ← acceptWord "in" then memberships fuel (.isMember value (← arrayName))
    else return value

def matches_ : (fuel : Nat) → Expr → Reading Expr
  | 0, _ => unexpected
  | fuel + 1, value => do
    match ← signOf? [("~", true), ("!~", false)] with
    | some wanted =>
      advance
      let regex ← comparing fuel (← concatenation fuel)
      matches_ fuel (.isMatch wanted value regex)
    | none => return value

/-- The values that a value is compared with. -/
def comparing : (fuel : Nat) → Expr → Reading Expr
  | 0, _ => unexpected
  | fuel + 1, value => do
    match ← signOf? comparisons with
    | some comparison =>
      if comparison == .greater && (← get).printing then return value
      advance
      let other ← concatenation fuel
      comparing fuel (.compare comparison value other)
    | none => return value

/-- Values one after the other, or an assignment. -/
def concatenation : (fuel : Nat) → Reading Expr
  | 0 => unexpected
  | fuel + 1 => do
    let first ← sums fuel (← products fuel (← signed fuel))
    match ← signOf? assignments with
    | some operator =>
      if !isTarget first then unexpected
      useTarget first
      advance
      skipLines
      return .assign first operator (← expression fuel)
    | none => concatenations fuel first

def concatenations : (fuel : Nat) → Expr → Reading Expr
  | 0, _ => unexpected
  | fuel + 1, first => do
    if startsValue (← peek) then
      let second ← sums fuel (← products fuel (← signed fuel))
      concatenations fuel (.concat first second)
    else return first

def sums : (fuel : Nat) → Expr → Reading Expr
  | 0, _ => unexpected
  | fuel + 1, first => do
    match ← signOf? [("+", Operator.plus), ("-", .minus)] with
    | some operator =>
      advance
      let second ← products fuel (← signed fuel)
      sums fuel (.binary operator first second)
    | none => return first

def products : (fuel : Nat) → Expr → Reading Expr
  | 0, _ => unexpected
  | fuel + 1, first => do
    match ← signOf? [("*", Operator.times), ("/", .divided), ("%", .modulo)] with
    | some operator =>
      advance
      let second ← signed fuel
      products fuel (.binary operator first second)
    | none => return first

def signed : (fuel : Nat) → Reading Expr
  | 0 => unexpected
  | fuel + 1 => do
    if ← accept "!" then return .not (← signed fuel)
    else if ← accept "-" then return .negative (← signed fuel)
    else if ← accept "+" then return .positive (← signed fuel)
    else piped fuel (← power fuel)

/-- The lines that are read from a command. -/
def piped : (fuel : Nat) → Expr → Reading Expr
  | 0, _ => unexpected
  | fuel + 1, command => do
    let isPipe ← isSign "|"
    if !isPipe || (← get).printing then return command
    let reads ← attempt do
      advance
      return if ← acceptWord "getline" then some () else none
    match reads with
    | some () => piped fuel (.readLine .command (some command) (← lineTarget fuel))
    | none => return command

def power : (fuel : Nat) → Reading Expr
  | 0 => unexpected
  | fuel + 1 => do
    let base ← stepped fuel
    if ← accept "^" then return .binary .power base (← exponent fuel)
    else return base

def exponent : (fuel : Nat) → Reading Expr
  | 0 => unexpected
  | fuel + 1 => do
    if ← accept "-" then return .negative (← exponent fuel)
    else if ← accept "+" then return .positive (← exponent fuel)
    else if ← accept "!" then return .not (← exponent fuel)
    else power fuel

/-- A value that may change after it has been used. -/
def stepped : (fuel : Nat) → Reading Expr
  | 0 => unexpected
  | fuel + 1 => do
    let value ← primary fuel
    let sign ← signOf? [("++", true), ("--", false)]
    match if isTarget value then sign else none with
    | some up =>
      useTarget value
      advance
      return .step value up true
    | none => return value

def lineTarget : (fuel : Nat) → Reading (Option Expr)
  | 0 => unexpected
  | fuel + 1 => do
    let starts := match ← peek with
      | .word name called => isPlainName name && !called
      | .sign "$" => true
      | _ => false
    if !starts then return none
    let target ← primary fuel
    useTarget target
    return some target

def values : (fuel : Nat) → Reading (List Expr)
  | 0 => unexpected
  | fuel + 1 => do
    let first ← expression fuel
    if ← accept "," then
      skipLines
      return first :: (← values fuel)
    else return [first]

/-- Values with commas between them up to a closing bracket. -/
def arguments : (fuel : Nat) → Reading (List Expr)
  | 0 => unexpected
  | fuel + 1 => inner do
    skipLines
    if ← accept ")" then return []
    let found ← values fuel
    skipLines
    expect ")"
    return found

/-- The subscript after an opening bracket. -/
def subscript : (fuel : Nat) → Reading Expr
  | 0 => unexpected
  | fuel + 1 => inner do
    let found ← values fuel
    expect "]"
    match found with
    | [single] => return single
    | parts => return .joined parts

def builtinCall : (fuel : Nat) → (name : Bytes) → Builtin → (least most : Nat) → Reading Expr
  | 0, _, _, _, _ => unexpected
  | fuel + 1, name, builtin, least, most => do
    advance
    let hasBracket ← isSign "("
    if !hasBracket then
      if builtin != .length then unexpected
      return .builtin .length []
    advance
    let found ← arguments fuel
    if found.length < least ∨ most < found.length then
      fail (utf8 "wrong number of arguments in call to " ++ name)
    match builtin, found with
    | .split, _ :: .named array :: _ => useArray array
    | .split, _ => unexpected
    | .sub, [_, _, target] | .gsub, [_, _, target] => useTarget target
    | _, _ => pure ()
    return .builtin builtin found

def functionCall : (fuel : Nat) → (name : Bytes) → Reading Expr
  | 0, _ => unexpected
  | fuel + 1, name => do
    let line := (← get).line
    advance
    advance
    let found ← arguments fuel
    modify fun source => { source with calls := (name, found.length, line) :: source.calls }
    for (argument, index) in found.zipIdx do
      if let .named passed := argument then
        let holder ← holder passed
        modify fun source => { source with passed := (holder, name, index) :: source.passed }
    return .call name found

/-- The operand of the sign for fields. -/
def fieldIndex : (fuel : Nat) → Reading Expr
  | 0 => unexpected
  | fuel + 1 => do
    if ← accept "-" then return .negative (← fieldIndex fuel)
    else if ← accept "+" then return .positive (← fieldIndex fuel)
    else if ← accept "!" then return .not (← fieldIndex fuel)
    else primary fuel

def primary : (fuel : Nat) → Reading Expr
  | 0 => unexpected
  | fuel + 1 => do
    let token ← peek
    match token with
    | .number value =>
      advance
      return .number value
    | .text bytes =>
      advance
      return .text bytes
    | .sign "/" => regexFrom (← get).rest
    | .sign "/=" => regexFrom ('='.toUInt8 :: (← get).rest)
    | .sign "$" =>
      advance
      return .field (← inner (fieldIndex fuel))
    | .sign "(" =>
      advance
      let found ← arguments fuel
      match found with
      | [] => unexpected
      | [single] => return single
      | parts =>
        if ← acceptWord "in" then return .isMember (.joined parts) (← arrayName)
        else if (← get).printing then return .grouping parts
        else unexpected
    | .sign "++" =>
      advance
      let target ← primary fuel
      useTarget target
      return .step target true false
    | .sign "--" =>
      advance
      let target ← primary fuel
      useTarget target
      return .step target false false
    | .word name called =>
      if name == utf8 "getline" then
        advance
        let target ← lineTarget fuel
        if ← accept "<" then
          let file ← power fuel
          return .readLine .file (some file) target
        else return .readLine .input none target
      else match builtin? name with
        | some (builtin, least, most) => builtinCall fuel name builtin least most
        | none =>
          if isKeyword name then unexpected
          else if called then functionCall fuel name
          else
            let resolved ← resolve name
            advance
            if ← accept "[" then
              useArray resolved
              return .element resolved (← subscript fuel)
            else return .named resolved
    | _ => unexpected

end

/-! ## Statements -/

/-- The end of a simple statement. -/
def finish : Reading Unit := do
  match ← peek with
  | .sign ";" | .newline => advance
  | .sign "\x7d" => pure ()
  | .ending => throw (.missingClosing ((← get).line + 1))
  | _ => unexpected

def condition (fuel : Nat) : Reading Expr := do
  expect "("
  let found ← inner (expression fuel)
  expect ")"
  return found

def isAtEnd : Reading Bool := do
  match ← peek with
  | .sign ";" | .sign "\x7d" | .newline | .ending => return true
  | _ => return false

def redirections : List (String × TargetKind) := [(">", .file), (">>", .append), ("|", .command)]

/-- The rest of a print command. -/
def printing (fuel : Nat) (formatted : Bool) : Reading Stmt := do
  modify ({ · with printing := true })
  let isBare := (← isAtEnd) || (← signOf? redirections).isSome
  let found ← if isBare then pure [] else values fuel
  let found := match found with
    | [.grouping parts] => parts
    | found => found
  if formatted && found.isEmpty then fail (utf8 "no arguments in call to printf")
  let target ← match ← signOf? redirections with
    | some kind =>
      advance
      pure (some (kind, ← expression fuel))
    | none => pure none
  modify ({ · with printing := false })
  return .print formatted found target

/-- A statement without parts that are statements. -/
def simple (fuel : Nat) : Reading Stmt := do
  let source ← get
  if ← acceptWord "print" then printing fuel false
  else if ← acceptWord "printf" then printing fuel true
  else if ← acceptWord "delete" then
    let array ← arrayName
    if ← accept "[" then return .delete array (some (← subscript fuel)) else return .delete array none
  else if ← acceptWord "break" then
    if source.loops = 0 then fail (utf8 "break statement outside of loop")
    return .leave
  else if ← acceptWord "continue" then
    if source.loops = 0 then fail (utf8 "continue statement outside of loop")
    return .again
  else if ← acceptWord "next" then
    if !source.inRule && source.function.isNone then fail (utf8 "improper use of next")
    return .nextRecord
  else if ← acceptWord "nextfile" then
    if !source.inRule && source.function.isNone then fail (utf8 "improper use of nextfile")
    return .nextFile
  else if ← acceptWord "exit" then
    return .exit (← if ← isAtEnd then pure none else some <$> expression fuel)
  else if ← acceptWord "return" then
    if source.function.isNone then fail (utf8 "return outside function body")
    return .return_ (← if ← isAtEnd then pure none else some <$> expression fuel)
  else return .evaluate (← expression fuel)

/-- A part of the head of a loop, which may be left away. -/
def headPart (fuel : Nat) (closing : String) : Reading Stmt := do
  let found ← if ← isSign closing then pure .nothing else inner (simple fuel)
  expect closing
  return found

/-- The head of a loop over an array. -/
def eachHead : Reading (Option (Name × Name)) := attempt do
  match ← peek with
  | .word name false =>
    advance
    if isPlainName name && (← acceptWord "in") then
      match ← peek with
      | .word array _ =>
        advance
        if ← accept ")" then return some (← resolve name, ← resolve array) else return none
      | _ => return none
    else return none
  | _ => return none

def inLoop {α : Type} (reading : Reading α) : Reading α := do
  modify fun source => { source with loops := source.loops + 1 }
  let result ← reading
  modify fun source => { source with loops := source.loops - 1 }
  return result

mutual

def statement : (fuel : Nat) → Reading Stmt
  | 0 => unexpected
  | fuel + 1 => do
    if ← accept "\x7b" then return .block (← statements fuel)
    else if ← accept ";" then return .nothing
    else if ← acceptWord "if" then
      let test ← condition fuel
      skipLines
      let yes ← statement fuel
      let hasElse ← attempt do
        skipLines
        return if ← acceptWord "else" then some () else none
      match hasElse with
      | some () =>
        skipLines
        return .branch test yes (← statement fuel)
      | none => return .branch test yes .nothing
    else if ← acceptWord "while" then
      let test ← condition fuel
      skipLines
      return .loop true test (← inLoop (statement fuel)) .nothing
    else if ← acceptWord "do" then
      skipLines
      let body ← inLoop (statement fuel)
      skipEnds
      unless ← acceptWord "while" do unexpected
      let test ← condition fuel
      finish
      return .loop false test body .nothing
    else if ← acceptWord "for" then
      expect "("
      match ← eachHead with
      | some (name, array) =>
        useArray array
        useTarget (.named name)
        skipLines
        return .forEach name array (← inLoop (statement fuel))
      | none =>
        let first ← headPart fuel ";"
        skipLines
        let test ← if ← isSign ";" then pure (.number 1) else inner (expression fuel)
        expect ";"
        skipLines
        let next ← headPart fuel ")"
        skipLines
        return .block [first, .loop true test (← inLoop (statement fuel)) next]
    else
      let found ← simple fuel
      finish
      return found

/-- Statements up to a closing brace. -/
def statements : (fuel : Nat) → Reading (List Stmt)
  | 0 => unexpected
  | fuel + 1 => do
    skipEnds
    if ← accept "\x7d" then return []
    else if (← peek) == .ending then throw (.missingClosing ((← get).line + 1))
    else
      let first ← statement fuel
      return first :: (← statements fuel)

end

/-! ## Programs -/

/-- A statement in braces. -/
def action (fuel : Nat) : Reading Stmt := do
  expect "\x7b"
  return .block (← statements fuel)

/-- The parameters of a function up to a closing bracket. -/
def parameters : (fuel : Nat) → Reading (List Bytes)
  | 0 => unexpected
  | fuel + 1 => do
    skipLines
    match ← peek with
    | .word name _ =>
      if !isPlainName name then unexpected
      advance
      skipLines
      if ← accept "," then
        let others ← parameters fuel
        if others.contains name then fail (name ++ utf8 " is duplicated in argument list")
        return name :: others
      else
        expect ")"
        return [name]
    | _ => unexpected

/-- A function: its name, its parameters and its body. -/
def definition (fuel : Nat) : Reading (Bytes × List Bytes × Stmt) := do
  match ← peek with
  | .word name _ =>
    if !isPlainName name then unexpected
    advance
    expect "("
    let names ← if ← accept ")" then pure [] else parameters fuel
    skipLines
    modify ({ · with function := some (name, names) })
    let body ← action fuel
    modify ({ · with function := none })
    return (name, names, body)
  | _ => unexpected

def showRecord : Stmt := .print false [] none

def rule (fuel : Nat) : Reading Rule := do
  let selection ← if ← isSign "\x7b" then pure .every
    else
      let first ← expression fuel
      if ← accept "," then
        skipLines
        pure (.range first (← expression fuel))
      else pure (.one first)
  if ← isSign "\x7b" then
    modify ({ · with inRule := true })
    let body ← action fuel
    modify ({ · with inRule := false })
    return ⟨selection, body⟩
  else
    match ← peek with
    | .sign ";" | .newline => advance
    | .ending => pure ()
    | _ => unexpected
    return ⟨selection, showRecord⟩

/-- A program, and the parameters of its functions. -/
structure Draft where
  first : List Stmt := []
  rules : List Rule := []
  last : List Stmt := []
  functions : List (Bytes × List Bytes × Stmt) := []

def parts : (fuel : Nat) → Draft → Reading Draft
  | 0, _ => unexpected
  | fuel + 1, draft => do
    skipEnds
    if (← peek) == .ending then return draft
    else if ← acceptWord "BEGIN" then
      let body ← action fuel
      parts fuel { draft with first := draft.first ++ [body] }
    else if ← acceptWord "END" then
      let body ← action fuel
      parts fuel { draft with last := draft.last ++ [body] }
    else
      let isFunction := (← acceptWord "function") || (← acceptWord "func")
      if isFunction then
        let (name, names, body) ← definition fuel
        if draft.functions.any (·.1 == name) then fail (utf8 "redefinition of " ++ name)
        parts fuel { draft with functions := draft.functions ++ [(name, names, body)] }
      else
        let found ← rule fuel
        parts fuel { draft with rules := draft.rules ++ [found] }

/-- The names that are arrays since they are passed to where arrays are needed. `fuel` bounds the
    rounds. -/
def spread (passed : List (Holder × Bytes × Nat)) : (fuel : Nat) → List Holder → List Holder
  | 0, arrays => arrays
  | fuel + 1, arrays =>
    let more := passed.filterMap fun (holder, function, index) =>
      if arrays.contains (function, some index) && !arrays.contains holder then some holder else none
    if more.isEmpty then arrays else spread passed fuel (more.eraseDups ++ arrays)

/-- Checks that the functions that are called are there, and what arrays are used for. -/
def complete (draft : Draft) : Reading Program := do
  let source ← get
  for (name, count, line) in source.calls.reverse do
    match draft.functions.find? (·.1 == name) with
    | none => throw (.other (source.line + 1) (utf8 "function " ++ name ++ utf8 " never defined"))
    | some (_, names, _) =>
      if names.length < count then
        throw (.other line (utf8 "too many arguments in call to " ++ name))
  let arrays := spread source.passed (source.passed.length + 1) source.arrays.eraseDups
  match source.scalars.find? fun holder => holder.2.isNone && arrays.contains holder with
  | some (name, _) => fail (utf8 "illegal reference to variable " ++ name)
  | none =>
    let functions := draft.functions.map fun (name, names, body) =>
      (name, { parameters := (List.range names.length).map fun index =>
                arrays.contains (name, some index)
               body : Function })
    return { first := draft.first, rules := draft.rules, last := draft.last, functions }

end Reading

def read (text : Bytes) : Except Fault Program := do
  let fuel := 16 * text.length + 64
  let reading : Reading Program := do
    Reading.advance
    Reading.complete (← Reading.parts fuel {})
  let (program, _) ← reading.run { rest := text }
  return program

end ShellCompletion.Awk
