import ShellCompletion.Bytes

/-!
# JSON values

A JSON document, with integers told apart from other numbers: a number without a fraction and an
exponent is an integer if it fits 64 bits, signed or not. Which texts have a value is up to a
library that reads them.
-/
namespace ShellCompletion

inductive Json where
  | null
  | bool (value : Bool)
  | integer (value : Int)
  /-- A number with a fraction or an exponent, or an integer beyond 64 bits, as it is written. -/
  | real (literal : Bytes)
  | string (value : Bytes)
  | array (items : List Json)
  | object (members : List (Bytes × Json))
deriving Repr, Inhabited

namespace Json

/-- The member of that name, the last one where there are several; none for a value that is no
    object. -/
def member? (json : Json) (name : Bytes) : Option Json :=
  match json with
  | object members => members.reverse.lookup name
  | _ => none

/-- The member of that name, unless it is missing or null. -/
def value? (json : Json) (name : Bytes) : Option Json :=
  match json.member? name with
  | some null => none
  | other => other

def string? : Json → Option Bytes
  | string value => some value
  | _ => none

def bool? : Json → Option Bool
  | bool value => some value
  | _ => none

def items? : Json → Option (List Json)
  | array items => some items
  | _ => none

mutual

/-- How deep values lie in a value. -/
def depth : Json → Nat
  | array items => depthOfItems items + 1
  | object members => depthOfMembers members + 1
  | _ => 0

def depthOfItems : List Json → Nat
  | [] => 0
  | item :: rest => max item.depth (depthOfItems rest)

def depthOfMembers : List (Bytes × Json) → Nat
  | [] => 0
  | (_, value) :: rest => max value.depth (depthOfMembers rest)

end

/-- The strings of an array that holds nothing else. -/
def strings? (json : Json) : Option (List Bytes) := json.items?.bind (·.mapM string?)

end Json

/-- Why a library finds no value in a text. -/
inductive JsonFailure where
  /-- The text is not JSON. -/
  | malformed
  /-- A number in it is out of the library's range. -/
  | outOfRange
deriving DecidableEq, Repr

/-- A library that reads JSON. -/
structure JsonLibrary where
  /-- The value of a text. -/
  parse : Bytes → Except JsonFailure Json
  /-- What all its errors say, those about texts and those about values. -/
  message : Bytes

end ShellCompletion
