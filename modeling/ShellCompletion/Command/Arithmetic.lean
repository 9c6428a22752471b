import ShellCompletion.Command.Script.Basic
import ShellCompletion.Word64

/-!
# Integer expressions

The expressions of scripts: numbers of 64 bits, variables and assignments to them, conditions, and
the operators of integer arithmetic, bits and comparison.
-/
namespace ShellCompletion.Arithmetic

/-- Why an expression has no value. -/
inductive Fault where
  | expecting (what : String)
  | divisionByZero
  /-- The value of a variable is no number. -/
  | illegalNumber (text : Bytes)
deriving DecidableEq, Repr

def Fault.message (expression : Bytes) : Fault → Bytes
  | expecting what =>
    utf8 "arithmetic expression: expecting " ++ utf8 what ++ utf8 ": \"" ++ expression ++ utf8 "\""
  | divisionByZero =>
    utf8 "arithmetic expression: division by zero: \"" ++ expression ++ utf8 "\""
  | illegalNumber text => utf8 "Illegal number: " ++ text

/-! ## Tokens -/

inductive Token where
  | number (value : Int)
  | name (text : Bytes)
  | operator (text : String)
  /-- A byte that no expression holds. -/
  | stray
deriving DecidableEq, Repr

/-- The operators; those that start with others come first. -/
def operators : List String :=
  ["<<=", ">>=", "==", "!=", "<=", ">=", "<<", ">>", "&&", "||", "+=", "-=", "*=", "/=", "%=", "&=",
   "|=", "^=", "=", "<", ">", "|", "&", "!", "(", ")", "*", "/", "%", "+", "-", "~", "^", "?", ":"]

/-- The value of a digit in bases up to sixteen. -/
def digit? (base : Nat) (c : UInt8) : Option Nat :=
  let lower := Bytes.lowerByte c
  let value := if Bytes.isDigit c then c.toNat - 48
    else if 97 ≤ lower && lower ≤ 102 then lower.toNat - 87
    else 16
  if value < base then some value else none

/-- Reads a number without a sign: its base is eight after a zero, sixteen after `0x` and two after
    `0b`. -/
def readNumber (s : Bytes) : Nat × Bytes :=
  let read (base : Nat) (s : Bytes) : Nat × Bytes :=
    let digits := s.takeWhile fun c => (digit? base c).isSome
    (Bytes.valueIn base digits, s.drop digits.length)
  let based (base : Nat) : Bool := (s[2]?.bind (digit? base)).isSome
  let start := Bytes.lower (s.take 2)
  if start = utf8 "0x" && based 16 then read 16 (s.drop 2)
  else if start = utf8 "0b" && based 2 then read 2 (s.drop 2)
  else if s.head? = some '0'.toUInt8 then read 8 s
  else read 10 s

/-- The number of 64 bits that is nearest. -/
def clamp (n : Int) : Int := max (-(Word64.maxSigned : Int) - 1) (min n Word64.maxSigned)

/-- The number that the whole text denotes, with blanks around it and a sign before it. A blank text
    denotes zero, and one that needs more than 64 bits no number. -/
def number? (text : Bytes) : Option Int :=
  let (negative, digits) := match text.dropWhile Bytes.isSpace with
    | [] => (false, utf8 "0")
    | c :: rest =>
      if c = '-'.toUInt8 then (true, rest)
      else (false, if c = '+'.toUInt8 then rest else c :: rest)
  if !digits.head?.any Bytes.isDigit then none
  else
    let (n, rest) := readNumber digits
    let value : Int := if negative then -(n : Int) else n
    if rest.all Bytes.isSpace && clamp value = value then some value else none

def tokens : (fuel : Nat) → Bytes → List Token
  | 0, _ => []
  | _, [] => []
  | fuel + 1, c :: rest =>
    if c = 32 ∨ c = 9 ∨ c = 10 then tokens fuel rest
    else if Bytes.isDigit c then
      let (n, rest) := readNumber (c :: rest)
      .number (clamp n) :: tokens fuel rest
    else if isNameStart c then
      .name ((c :: rest).takeWhile isNameByte) :: tokens fuel ((c :: rest).dropWhile isNameByte)
    else match operators.find? fun operator => (utf8 operator).isPrefixOf (c :: rest) with
      | some operator =>
        .operator operator :: tokens fuel ((c :: rest).drop (utf8 operator).length)
      | none => [.stray]

/-! ## Values -/

def truth (b : Bool) : Int := if b then 1 else 0

/-- The same bits without a sign. -/
def bits (a : Int) : Nat := (a % (Word64.maxUnsigned + 1)).toNat

/-- The operators on two numbers by how tightly they bind, the tightest first. -/
def levels : List (List String) :=
  [["*", "/", "%"], ["+", "-"], ["<<", ">>"], ["<", "<=", ">", ">="], ["==", "!="], ["&"], ["^"],
   ["|"]]

/-- How tightly an operator on two numbers binds; none for other operators. -/
def level? (token : Option Token) : Option (Nat × String) :=
  match token with
  | some (.operator text) =>
    (levels.findIdx? (·.contains text)).map fun level => (level, text)
  | _ => none

/-- The value of two numbers under an operator. -/
def apply (operator : String) (a b : Int) : Except Fault Int :=
  let shift := (b % 64).toNat
  match operator with
  | "*" => .ok (Word64.toSigned (a * b))
  | "/" => if b = 0 then .error .divisionByZero else .ok (Word64.toSigned (a.tdiv b))
  | "%" => if b = 0 then .error .divisionByZero else .ok (a.tmod b)
  | "+" => .ok (Word64.toSigned (a + b))
  | "-" => .ok (Word64.toSigned (a - b))
  | "<<" => .ok (Word64.toSigned ((bits a <<< shift : Nat)))
  | ">>" => .ok (a >>> shift)
  | "<" => .ok (truth (a < b))
  | "<=" => .ok (truth (a ≤ b))
  | ">" => .ok (truth (a > b))
  | ">=" => .ok (truth (a ≥ b))
  | "==" => .ok (truth (a == b))
  | "!=" => .ok (truth (a != b))
  | "&" => .ok (Word64.toSigned (bits a &&& bits b : Nat))
  | "^" => .ok (Word64.toSigned (bits a ^^^ bits b : Nat))
  | "|" => .ok (Word64.toSigned (bits a ||| bits b : Nat))
  | _ => .ok 0

/-! ## Evaluation -/

/-- What is left of an expression, and the values that have been assigned, the last first. -/
structure Reading where
  tokens : List Token
  assigned : List (Bytes × Int) := []

abbrev Evaluation := StateT Reading (Except Fault)

def peek : Evaluation (Option Token) := do return (← get).tokens.head?

def advance : Evaluation Unit :=
  modify fun reading => { reading with tokens := reading.tokens.tail }

/-- Takes that operator if it comes next. -/
def accept (operator : String) : Evaluation Bool := do
  if (← peek) = some (.operator operator) then
    advance
    return true
  else return false

def fail {α : Type} (fault : Fault) : Evaluation α := fun _ => .error fault

/-- The value of a variable; zero if it has none. -/
def valueOf (lookup : Bytes → Option Bytes) (name : Bytes) : Evaluation Int := do
  match (← get).assigned.lookup name with
  | some value => return value
  | none =>
    let text := (lookup name).getD []
    match number? text with
    | some value => return value
    | none => fail (.illegalNumber text)

mutual

/-- A number, a variable, an expression in brackets, or one of these with signs in front. In a part
    that is `skipped`, variables are left alone. -/
def primary (lookup : Bytes → Option Bytes) : (fuel : Nat) → (skipped : Bool) → Evaluation Int
  | 0, _ => fail (.expecting "primary")
  | fuel + 1, skipped => do
    let token ← peek
    match token with
    | some (.number value) =>
      advance
      return value
    | some (.name name) =>
      advance
      if skipped then return 0 else valueOf lookup name
    | _ =>
      if ← accept "(" then
        let value ← assignment lookup fuel skipped
        unless ← accept ")" do fail (.expecting "')'")
        return value
      else if ← accept "+" then primary lookup fuel skipped
      else if ← accept "-" then return Word64.toSigned (-(← primary lookup fuel skipped))
      else if ← accept "!" then return truth ((← primary lookup fuel skipped) == 0)
      else if ← accept "~" then return -(← primary lookup fuel skipped) - 1
      else fail (.expecting "primary")

/-- The value so far, and the operators that bind at least as tightly as the loosest `level` with
    their operands. -/
def operations (lookup : Bytes → Option Bytes) : (fuel : Nat) → (skipped : Bool) → (level : Nat) →
    Int → Evaluation Int
  | 0, _, _, _ => fail (.expecting "primary")
  | fuel + 1, skipped, level, first => do
    match level? (← peek) with
    | none => return first
    | some (found, operator) =>
      if level < found then return first
      advance
      let second ← primary lookup fuel skipped
      let second ← if found = 0 then pure second
        else operations lookup fuel skipped (found - 1) second
      match if skipped then .ok 0 else apply operator first second with
      | .error fault => fail fault
      | .ok value => operations lookup fuel skipped level value

/-- Operands joined by "and". -/
def conjunction (lookup : Bytes → Option Bytes) : (fuel : Nat) → (skipped : Bool) → Evaluation Int
  | 0, _ => fail (.expecting "primary")
  | fuel + 1, skipped => do
    let first ← operations lookup fuel skipped levels.length (← primary lookup fuel skipped)
    if ← accept "&&" then
      let second ← conjunction lookup fuel (skipped || first == 0)
      return truth (first != 0 && second != 0)
    else return first

/-- Operands joined by "or". -/
def disjunction (lookup : Bytes → Option Bytes) : (fuel : Nat) → (skipped : Bool) → Evaluation Int
  | 0, _ => fail (.expecting "primary")
  | fuel + 1, skipped => do
    let first ← conjunction lookup fuel skipped
    if ← accept "||" then
      let second ← disjunction lookup fuel (skipped || first != 0)
      return truth (first != 0 || second != 0)
    else return first

/-- A condition with its two values. -/
def conditional (lookup : Bytes → Option Bytes) : (fuel : Nat) → (skipped : Bool) → Evaluation Int
  | 0, _ => fail (.expecting "primary")
  | fuel + 1, skipped => do
    let test ← disjunction lookup fuel skipped
    if ← accept "?" then
      let yes ← assignment lookup fuel (skipped || test == 0)
      unless ← accept ":" do fail (.expecting "':'")
      let no ← conditional lookup fuel (skipped || test != 0)
      return if test != 0 then yes else no
    else return test

/-- An assignment to a variable, or another expression. -/
def assignment (lookup : Bytes → Option Bytes) : (fuel : Nat) → (skipped : Bool) → Evaluation Int
  | 0, _ => fail (.expecting "primary")
  | fuel + 1, skipped => do
    let assigning := ["=", "<<=", ">>=", "+=", "-=", "*=", "/=", "%=", "&=", "|=", "^="]
    match (← get).tokens with
    | .name name :: .operator operator :: _ =>
      if !assigning.contains operator then conditional lookup fuel skipped
      else
        advance
        advance
        let value ← assignment lookup fuel skipped
        if skipped then return value
        let value ← if operator = "=" then pure value
          else match apply ((operator.dropEnd 1).toString) (← valueOf lookup name) value with
            | .ok value => pure value
            | .error fault => fail fault
        modify fun reading => { reading with assigned := (name, value) :: reading.assigned }
        return value
    | _ => conditional lookup fuel skipped

end

/-- The value of an expression, and the values that it assigns, in order. -/
def evaluate (lookup : Bytes → Option Bytes) (expression : Bytes) :
    Except Fault (Int × List (Bytes × Int)) := do
  let tokens := tokens expression.length expression
  let (value, reading) ← (assignment lookup (8 * (tokens.length + 2)) false).run { tokens }
  if reading.tokens.isEmpty then .ok (value, reading.assigned.reverse)
  else .error (.expecting "EOF")

end ShellCompletion.Arithmetic
