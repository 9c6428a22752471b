import ShellCompletion.Json

/-!
# Printing JSON

A value is printed over several lines, with two more spaces for each level. Members are printed in
their order, and empty arrays and objects on one line.
-/
namespace ShellCompletion.Json

/-- A hexadecimal digit. -/
def hexDigit (n : UInt8) : UInt8 := if n < 10 then n + 48 else n + 87

/-- A byte of a string as it stands between quotes: quotes, backslashes and control codes are
    escaped. -/
def escapeByte (c : UInt8) : Bytes :=
  if c = '"'.toUInt8 then utf8 "\\\""
  else if c = '\\'.toUInt8 then utf8 "\\\\"
  else if c = 8 then utf8 "\\b"
  else if c = 9 then utf8 "\\t"
  else if c = 10 then utf8 "\\n"
  else if c = 12 then utf8 "\\f"
  else if c = 13 then utf8 "\\r"
  else if c < 32 then utf8 "\\u00" ++ [hexDigit (c / 16), hexDigit (c % 16)]
  else [c]

/-- A string between quotes. -/
def quote (text : Bytes) : Bytes := utf8 "\"" ++ text.flatMap escapeByte ++ utf8 "\""

def newLine (level : Nat) : Bytes := '\n'.toUInt8 :: List.replicate (2 * level) ' '.toUInt8

mutual

/-- The text of a value that stands at a level. -/
def print (level : Nat) : Json → Bytes
  | null => utf8 "null"
  | bool value => utf8 (if value then "true" else "false")
  | integer value => Bytes.decimalInt value
  | real literal => literal
  | string value => quote value
  | array [] => utf8 "[]"
  | array (first :: rest) =>
    utf8 "[" ++ newLine (level + 1) ++ print (level + 1) first ++ printItems (level + 1) rest ++
      newLine level ++ utf8 "]"
  | object [] => utf8 "\x7b\x7d"
  | object ((name, value) :: rest) =>
    utf8 "\x7b" ++ newLine (level + 1) ++ quote name ++ utf8 ": " ++ print (level + 1) value ++
      printMembers (level + 1) rest ++ newLine level ++ utf8 "\x7d"

/-- Further items of an array, each after a comma. -/
def printItems (level : Nat) : List Json → Bytes
  | [] => []
  | item :: rest => utf8 "," ++ newLine level ++ print level item ++ printItems level rest

/-- Further members of an object, each after a comma. -/
def printMembers (level : Nat) : List (Bytes × Json) → Bytes
  | [] => []
  | (name, value) :: rest =>
    utf8 "," ++ newLine level ++ quote name ++ utf8 ": " ++ print level value ++
      printMembers level rest

end

end ShellCompletion.Json
