import ShellCompletion.Command.Regex.Posix
import ShellCompletion.Command.Utility.Basic

/-!
# Utilities for computing

The standard programs that compute with the words they are called with.
-/
namespace ShellCompletion.Utility

/-- Why words cannot be computed. -/
inductive ExprFault where
  | missingOperand (after : Bytes)
  | unexpected (word : Bytes)
  | notInteger
  | divisionByZero
  | regex (text : Bytes)

def ExprFault.message : ExprFault → Bytes
  | missingOperand word =>
    utf8 "syntax error: missing argument after '" ++ word ++ utf8 "'"
  | unexpected word => utf8 "syntax error: unexpected argument '" ++ word ++ utf8 "'"
  | notInteger => utf8 "non-integer argument"
  | divisionByZero => utf8 "division by zero"
  | regex text => text

/-- A reading of words: the last one that was read, and those that are left. -/
abbrev Computing := StateT (Bytes × List Bytes) (Except ExprFault)

namespace Computing

def fault {α : Type} (fault : ExprFault) : Computing α := fun _ => .error fault

def isNull (value : Bytes) : Bool := value.isEmpty || Bytes.readInteger value == some 0

def integer? (word : Bytes) : Option Int :=
  let digits := if word.head? = some '-'.toUInt8 then word.drop 1 else word
  if Bytes.allDigits digits then Bytes.readInteger word else none

/-- The operators, from those that bind least on. -/
def levels : List (List String) :=
  [["|"], ["&"], ["<", "<=", "=", "==", "!=", ">=", ">"], ["+", "-"], ["*", "/", "%"], [":"]]

/-- The part of a text that an expression matches from its start: the first group of it, or else its
    length. -/
def matchStart (text pattern : Bytes) : Except ExprFault Bytes := do
  let regex ← match Regex.read {} pattern with
    | .ok regex => pure regex
    | .error cause => .error (.regex (utf8 cause.message))
  let hasGroup := 0 < regex.groupCount
  match Regex.matchAt .longest regex text.toArray 0 with
  | none => return if hasGroup then [] else utf8 "0"
  | some (ending, groups) =>
    if hasGroup then return (Regex.groupText? text (0, ending, groups) 1).getD []
    else return Bytes.decimal ending

def apply (operator a b : Bytes) : Except ExprFault Bytes :=
  let is (text : String) : Bool := utf8 text = operator
  let truth (holds : Bool) : Bytes := utf8 (if holds then "1" else "0")
  let order : Ordering := match integer? a, integer? b with
    | some m, some n => compareOfLessAndEq m n
    | _, _ => if a = b then .eq else if Bytes.le a b then .lt else .gt
  let numbers (f : Int → Int → Except ExprFault Int) : Except ExprFault Bytes :=
    match integer? a, integer? b with
    | some m, some n => (f m n).map Bytes.decimalInt
    | _, _ => .error .notInteger
  if is "|" then .ok (if !isNull a then a else if !isNull b then b else utf8 "0")
  else if is "&" then .ok (if isNull a || isNull b then utf8 "0" else a)
  else if is "<" then .ok (truth (order == .lt))
  else if is "<=" then .ok (truth (order != .gt))
  else if is "=" || is "==" then .ok (truth (order == .eq))
  else if is "!=" then .ok (truth (order != .eq))
  else if is ">=" then .ok (truth (order != .lt))
  else if is ">" then .ok (truth (order == .gt))
  else if is "+" then numbers fun m n => .ok (m + n)
  else if is "-" then numbers fun m n => .ok (m - n)
  else if is "*" then numbers fun m n => .ok (m * n)
  else if is "/" then numbers fun m n => if n = 0 then .error .divisionByZero else .ok (Int.tdiv m n)
  else if is "%" then numbers fun m n => if n = 0 then .error .divisionByZero else .ok (Int.tmod m n)
  else matchStart a b

def word : Computing Bytes := do
  match ← get with
  | (last, []) => fault (.missingOperand last)
  | (_, word :: rest) =>
    set (word, rest)
    return word

mutual

/-- A value that no operator takes apart. -/
def operand : (fuel : Nat) → Computing Bytes
  | 0 => fault .notInteger
  | fuel + 1 => do
    let first ← word
    let is (text : String) : Bool := utf8 text = first
    if is "(" then
      let value ← chain fuel 0
      let closing ← word
      if closing = utf8 ")" then return value else fault (.unexpected closing)
    else if is "+" then word
    else if (← get).2.isEmpty then return first
    else if is "length" then return Bytes.decimal (← operand fuel).length
    else if is "match" then
      let text ← operand fuel
      let pattern ← operand fuel
      liftM (matchStart text pattern)
    else if is "index" then
      let text ← operand fuel
      let set ← operand fuel
      return match text.findIdx? set.contains with
        | some index => Bytes.decimal (index + 1)
        | none => utf8 "0"
    else if is "substr" then
      let text ← operand fuel
      let start := (Bytes.readInteger (← operand fuel)).getD 0
      let length := (Bytes.readInteger (← operand fuel)).getD 0
      return if start ≤ 0 ∨ length ≤ 0 then [] else (text.drop (start.toNat - 1)).take length.toNat
    else return first

/-- Operands with the operators of a level between them. -/
def chain : (fuel level : Nat) → Computing Bytes
  | 0, _ => fault .notInteger
  | fuel + 1, level => do
    match levels[level]? with
    | none => operand fuel
    | some operators =>
      let first ← chain fuel (level + 1)
      more fuel level operators first

/-- The rest of a chain. -/
def more : (fuel level : Nat) → (operators : List String) → Bytes → Computing Bytes
  | 0, _, _, _ => fault .notInteger
  | fuel + 1, level, operators, value => do
    match (← get).2 with
    | operator :: rest =>
      if operators.any (utf8 · = operator) then
        set (operator, rest)
        let second ← chain fuel (level + 1)
        more fuel level operators (← liftM (apply operator value second))
      else return value
    | [] => return value

end

end Computing

def expr : Utility := fun call => do
  let words := if call.arguments.head? = some (utf8 "--") then call.arguments.drop 1
    else call.arguments
  if words.isEmpty then call.misuse (utf8 "missing operand") 2
  else
    let fail (fault : ExprFault) : Act Nat := do
      call.complain fault.message
      return 2
    match (Computing.chain (20 * words.length + 20) 0).run ([], words) with
    | .error fault => fail fault
    | .ok (_, (_, word :: _)) => fail (.unexpected word)
    | .ok (value, (_, [])) => call.print (textOfLines [value]) (if Computing.isNull value then 1 else 0)

/-- The utilities of this kind by name. -/
def computing : List (String × Utility) := [("expr", expr)]

end ShellCompletion.Utility
