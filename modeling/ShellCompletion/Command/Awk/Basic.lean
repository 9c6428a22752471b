import ShellCompletion.Command.Number
import ShellCompletion.Command.Regex.Basic

/-!
# Programs of patterns and actions

A program is a list of rules: an action is done for each record of the input that its pattern selects.
Other actions are done before the first record and after the last one. Expressions have values that are
numbers or texts, or both.
-/
namespace ShellCompletion.Awk

/-- A name of the program: one that is known everywhere, or a parameter of the function it stands in. -/
inductive Name where
  | shared (name : Bytes)
  | parameter (index : Nat)
deriving DecidableEq

/-- The operators on two numbers. -/
inductive Operator where
  | plus
  | minus
  | times
  | divided
  | modulo
  | power
deriving DecidableEq

inductive Comparison where
  | less
  | lessOrEqual
  | equal
  | notEqual
  | greater
  | greaterOrEqual
deriving DecidableEq

/-- The functions that every program knows. -/
inductive Builtin where
  | atan2
  | close
  | cos
  | exp
  | fflush
  | gsub
  | index
  | int
  | length
  | log
  | match_
  | mktime
  | rand
  | sin
  | split
  | sprintf
  | sqrt
  | srand
  | strftime
  | sub
  | substr
  | system
  | systime
  | tolower
  | toupper
deriving DecidableEq

/-- Where a line is read from: the input of the program, a file or the output of a command. -/
inductive SourceKind where
  | input
  | file
  | command
deriving DecidableEq

/-- Where output goes to: the start or the end of a file, or the input of a command. -/
inductive TargetKind where
  | file
  | append
  | command
deriving DecidableEq

inductive Expr where
  | number (value : Float)
  | text (bytes : Bytes)
  /-- Matches the record, unless it is used as an expression to match with. -/
  | regex (regex : Regex)
  | named (name : Name)
  | field (index : Expr)
  | element (array : Name) (subscript : Expr)
  /-- The parts of a subscript. -/
  | joined (parts : List Expr)
  | assign (target : Expr) (operator : Option Operator) (value : Expr)
  /-- Adds one or takes one away; the value is the one from before or after that. -/
  | step (target : Expr) (up after : Bool)
  | not (body : Expr)
  | negative (body : Expr)
  | positive (body : Expr)
  | binary (operator : Operator) (a b : Expr)
  | compare (comparison : Comparison) (a b : Expr)
  | concat (a b : Expr)
  | and (a b : Expr)
  | or (a b : Expr)
  | choice (condition yes no : Expr)
  | isMember (subscript : Expr) (array : Name)
  | isMatch (wanted : Bool) (text regex : Expr)
  | call (function : Bytes) (arguments : List Expr)
  | builtin (function : Builtin) (arguments : List Expr)
  | readLine (kind : SourceKind) (source target : Option Expr)
  /-- What stands in brackets with commas. -/
  | grouping (parts : List Expr)

inductive Stmt where
  | nothing
  | evaluate (value : Expr)
  /-- Prints values: one after the other, or under the format that is the first of them. -/
  | print (formatted : Bool) (values : List Expr) (target : Option (TargetKind × Expr))
  | block (body : List Stmt)
  | branch (condition : Expr) (yes no : Stmt)
  /-- The condition is looked at first, or after the body. -/
  | loop (first : Bool) (condition : Expr) (body next : Stmt)
  | forEach (name : Name) (array : Name) (body : Stmt)
  | leave
  | again
  | nextRecord
  | nextFile
  | exit (status : Option Expr)
  | return_ (value : Option Expr)
  | delete (array : Name) (subscript : Option Expr)

/-- Which records a rule is for. -/
inductive Selection where
  | every
  | one (condition : Expr)
  /-- From one record to another one. -/
  | range (first last : Expr)

structure Rule where
  selection : Selection
  action : Stmt

structure Function where
  /-- Which parameters are arrays. -/
  parameters : List Bool
  body : Stmt

structure Program where
  first : List Stmt := []
  rules : List Rule := []
  last : List Stmt := []
  functions : List (Bytes × Function) := []

namespace Program

def readsInput (program : Program) : Bool := !program.rules.isEmpty || !program.last.isEmpty

end Program

/-- Why a text is no program. -/
inductive Fault where
  | syntax_ (line : Nat) (token : Bytes)
  | missingClosing (line : Nat)
  | other (line : Nat) (text : Bytes)
deriving DecidableEq

namespace Fault

def message : Fault → Bytes
  | syntax_ line token => utf8 "line " ++ Bytes.decimal line ++ utf8 ": syntax error at or near " ++ token
  | missingClosing line => utf8 "line " ++ Bytes.decimal line ++ utf8 ": missing \x7d near end of file"
  | other line text => utf8 "line " ++ Bytes.decimal line ++ utf8 ": " ++ text

end Fault

end ShellCompletion.Awk
