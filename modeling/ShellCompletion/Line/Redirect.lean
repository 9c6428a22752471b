import ShellCompletion.Bytes

/-!
# Redirections

A redirection is an operator, with or without a file descriptor in front, and the file that follows
it, either as the next word or flush against the operator.
-/
namespace ShellCompletion.Redirect

/-- The operators, longer ones before those they start with. -/
def operators : List Bytes := [utf8 "&>>", utf8 ">>", utf8 "&>", utf8 ">", utf8 "<"]

/-- A descriptor may stand before the operators that do not start with an ampersand. -/
def allows (descriptor operator : Bytes) : Bool :=
  descriptor.isEmpty || operator.head? != some '&'.toUInt8

def isOperator (word : Bytes) : Bool :=
  let descriptor := word.takeWhile Bytes.isDigit
  let operator := word.dropWhile Bytes.isDigit
  operators.contains operator && allows descriptor operator

/-- The length of the operator that a word starts with flush against its file; 0 if the word does
    not start with one, or is no more than one. -/
def gluedLength (word : Bytes) : Nat :=
  let descriptor := word.takeWhile Bytes.isDigit
  let rest := word.dropWhile Bytes.isDigit
  match operators.find? (·.isPrefixOf rest) with
  | none => 0
  | some operator =>
    if allows descriptor operator && operator.length < rest.length then
      descriptor.length + operator.length
    else 0

end ShellCompletion.Redirect
