import ShellCompletion.Command.Arithmetic
import ShellCompletion.Command.Machine.Opening

/-!
# Conditions

Conditions on files, texts and numbers, spelled as words: operators in front of a word or between
two, joined by "not", "and", "or" and brackets.
-/
namespace ShellCompletion.Condition

/-- Why words are no condition. -/
inductive Fault where
  | unexpected (word : Bytes)
  | argumentExpected (operator : Bytes)
  | bracketExpected
  | illegalNumber (word : Bytes)
deriving DecidableEq, Repr

def Fault.message : Fault → Bytes
  | unexpected word => word ++ utf8 ": unexpected operator"
  | argumentExpected operator => operator ++ utf8 ": argument expected"
  | bracketExpected => utf8 "closing paren expected"
  | illegalNumber word => utf8 "Illegal number: " ++ word

/-- What conditions are about. -/
structure Setting where
  machine : Machine
  /-- The current directory. -/
  directory : Bytes
  /-- Two equal signs do as well as one, and a file is newer than one that is not there. -/
  doubled : Bool := false

inductive Token where
  | ending
  | operand
  | unary (operator : Bytes)
  | binary (operator : Bytes)
  | negation
  | conjunction
  | disjunction
  | opening
  | closing
deriving DecidableEq, Repr

def unaryLetters : Bytes := utf8 "rwxefdcbpugkstznhLOGS"

def binaryOperators : List String :=
  ["=", "!=", "<", ">", "-eq", "-ne", "-ge", "-gt", "-le", "-lt", "-nt", "-ot", "-ef"]

def operator? (setting : Setting) (word : Bytes) : Option Token :=
  if word = utf8 "!" then some .negation
  else if word = utf8 "-a" then some .conjunction
  else if word = utf8 "-o" then some .disjunction
  else if word = utf8 "(" then some .opening
  else if word = utf8 ")" then some .closing
  else if binaryOperators.any (utf8 · = word) || (setting.doubled && word == utf8 "==") then
    some (.binary word)
  else match word with
    | [dash, letter] =>
      if dash = '-'.toUInt8 ∧ unaryLetters.contains letter then some (.unary word) else none
    | _ => none

def isBinary (setting : Setting) (word : Bytes) : Bool :=
  match operator? setting word with
  | some (.binary _) => true
  | _ => false

/-- What the first of some words is. An operator that could not do anything with the words after it
    is an operand. -/
def token (setting : Setting) : List Bytes → Token
  | [] => .ending
  | word :: rest =>
    let isOperand : Bool := match rest with
      | [] => true
      | [_] => false
      | next :: _ => isBinary setting next
    match operator? setting word with
    | some (.unary operator) => if isOperand then .operand else .unary operator
    | some .opening => if rest.isEmpty then .operand else .opening
    | some other => other
    | none => .operand

def node? (setting : Setting) (path : Bytes) : Option (List Bytes × FileNode) :=
  let tree := setting.machine.files
  match tree.locate setting.directory path with
  | .ok place => (tree.node? place).map fun node => (place, node)
  | .error _ => none

/-- A file was changed later than another one, or that one may be missing and is. -/
def isNewer (setting : Setting) (path other : Bytes) : Bool :=
  match node? setting path, node? setting other with
  | some (place, _), some (older, _) =>
    setting.machine.changedAt older < setting.machine.changedAt place
  | some _, none => setting.doubled
  | none, _ => false

def isLink (setting : Setting) (path : Bytes) : Bool :=
  let above := Bytes.throughLast Path.slash path
  let tree := setting.machine.files
  match tree.locate setting.directory (if above.isEmpty then Path.dot else above) with
  | .ok place =>
    match tree.node? (place ++ [Path.fileName path]) with
    | some (.link _) => true
    | _ => false
  | .error _ => false

def unary (setting : Setting) (operator word : Bytes) : Bool :=
  let letter := operator.getLast?.getD 0
  let is (letters : String) : Bool := (utf8 letters).contains letter
  if is "n" then !word.isEmpty
  else if is "z" then word.isEmpty
  else if is "hL" then isLink setting word
  else match node? setting word with
    | none => false
    | some (place, node) =>
      let isDevice := place.head? == some (utf8 "dev")
      match node with
      | .directory => is "drwxesOG"
      | .file content executable =>
        is "ferwOG" || (is "s" && !content.isEmpty) || (is "x" && executable)
      | .pipe => is "erwOG" || is (if isDevice then "c" else "p")
      | .link _ => false

def number (word : Bytes) : Except Fault Int :=
  match Bytes.readInteger ((word.reverse.dropWhile Bytes.isSpace).reverse) with
  | some n => .ok n
  | none => .error (.illegalNumber word)

/-- The value of an operator between two words. -/
def binary (setting : Setting) (operator a b : Bytes) : Except Fault Bool :=
  let is (text : String) : Bool := utf8 text = operator
  let compare (holds : Int → Int → Bool) : Except Fault Bool := do
    return holds (← number a) (← number b)
  if is "=" || is "==" then .ok (a == b)
  else if is "!=" then .ok (a != b)
  else if is "<" then .ok (Bytes.le a b && a != b)
  else if is ">" then .ok (Bytes.le b a && a != b)
  else if is "-eq" then compare (· == ·)
  else if is "-ne" then compare (· != ·)
  else if is "-lt" then compare (· < ·)
  else if is "-le" then compare (· ≤ ·)
  else if is "-gt" then compare (· > ·)
  else if is "-ge" then compare (· ≥ ·)
  else if is "-ef" then
    let place (path : Bytes) := (node? setting path).map Prod.fst
    .ok ((place a).isSome && place a == place b)
  else if is "-nt" then .ok (isNewer setting a b)
  else .ok (isNewer setting b a)

/-- A reading of words: those from the current one on. -/
abbrev Reading := StateT (List Bytes) (Except Fault)

def fail {α : Type} (fault : Fault) : Reading α := fun _ => .error fault

mutual

/-- Conditions joined by "or", of which the first one starts with that token. -/
def disjunction (setting : Setting) : (fuel : Nat) → Token → Reading Bool
  | 0, _ => fail .bracketExpected
  | fuel + 1, start => do
    let first ← conjunction setting fuel start
    if token setting ((← get).drop 1) = .disjunction then
      modify (·.drop 2)
      let rest ← disjunction setting fuel (token setting (← get))
      return first || rest
    else return first

def conjunction (setting : Setting) : (fuel : Nat) → Token → Reading Bool
  | 0, _ => fail .bracketExpected
  | fuel + 1, start => do
    let first ← negation setting fuel start
    if token setting ((← get).drop 1) = .conjunction then
      modify (·.drop 2)
      let rest ← conjunction setting fuel (token setting (← get))
      return first && rest
    else return first

def negation (setting : Setting) : (fuel : Nat) → Token → Reading Bool
  | 0, _ => fail .bracketExpected
  | fuel + 1, start => do
    if start ≠ .negation then primary setting fuel start
    else
      let next := token setting ((← get).drop 1)
      if next ≠ .ending then modify (·.drop 1)
      return !(← negation setting fuel next)

def primary (setting : Setting) : (fuel : Nat) → Token → Reading Bool
  | 0, _ => fail .bracketExpected
  | fuel + 1, start => do
    match start with
    | .ending => return false
    | .opening =>
      modify (·.drop 1)
      let next := token setting (← get)
      if next = .closing then return false
      let value ← disjunction setting fuel next
      modify (·.drop 1)
      if token setting (← get) ≠ .closing then fail .bracketExpected
      return value
    | .unary operator =>
      modify (·.drop 1)
      match ← get with
      | [] => fail (.argumentExpected operator)
      | word :: _ => return unary setting operator word
    | _ =>
      let words ← get
      match token setting (words.drop 1) with
      | .binary operator =>
        set (words.drop 2)
        match words with
        | first :: _ :: second :: _ =>
          match binary setting operator first second with
          | .ok value => return value
          | .error fault => fail fault
        | _ => fail (.argumentExpected operator)
      | _ => return words.head?.any (!·.isEmpty)

end

def readAll (setting : Setting) (start : Token) (words : List Bytes) : Except Fault Bool := do
  let (value, rest) ← (disjunction setting (4 * words.length + 8) start).run words
  match rest with
  | word :: _ :: _ => .error (.unexpected word)
  | _ => .ok value

/-- The value of a condition that does not start with a negation of all the rest. -/
def evaluatePlain (setting : Setting) (words : List Bytes) : Except Fault Bool :=
  let isGroup := (words.length = 3 || words.length = 4) && words.head? == some (utf8 "(") &&
    words.getLast? == some (utf8 ")")
  if words.length = 3 && (words[1]?).any (isBinary setting) then readAll setting .operand words
  else
    let inner := if isGroup then (words.drop 1).dropLast else words
    readAll setting (token setting inner) inner

/-- The value of a condition. Of three words, an operator between two of them comes first. -/
def evaluate (setting : Setting) (words : List Bytes) : Except Fault Bool :=
  let isComparison := words.length = 3 && (words[1]?).any (isBinary setting)
  if words.isEmpty then .ok false
  else if !isComparison && (words.length = 3 || words.length = 4) &&
      words.head? == some (utf8 "!") then
    (evaluatePlain setting (words.drop 1)).map (!·)
  else evaluatePlain setting words

end ShellCompletion.Condition
