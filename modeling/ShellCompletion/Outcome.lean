import ShellCompletion.Bytes

/-!
# Outcomes

An operation ends with a value or with an error. A caller that asks for the one where there is the
other has made a mistake of its own, which is told apart from the error.
-/
namespace ShellCompletion

/-- A caller asked an outcome for what it does not hold. -/
inductive Misuse where
  | valueOfError
  | errorOfValue
deriving DecidableEq, Repr

def Misuse.message : Misuse → String
  | valueOfError => "Attempted to access value of error Result"
  | errorOfValue => "Attempted to access error of ok Result"

/-- The value of an outcome. -/
def valueOf {ε α : Type} : Except ε α → Except Misuse α
  | .ok value => .ok value
  | .error _ => .error .valueOfError

/-- The error of an outcome. -/
def errorOf {ε α : Type} : Except ε α → Except Misuse ε
  | .ok _ => .error .errorOfValue
  | .error error => .ok error

end ShellCompletion
