import ShellCompletion.Command.Edit.Execution
import ShellCompletion.Command.Edit.Reader

/-!
# Editing lines by commands

The standard program that edits the lines of files by the commands of a script, which is put together
from arguments and files.
-/
namespace ShellCompletion.Utility

/-- A part of a script: where it comes from, and its text. -/
structure ScriptPart where
  /-- The file that holds it; otherwise it is an argument. -/
  file : Option Bytes := none
  text : Bytes

namespace ScriptPart

/-- Where in the parts of a script a byte is. `number` is how many arguments have come before. -/
def place (position : Nat) : (number : Nat) → List ScriptPart → Bytes
  | _, [] => []
  | number, part :: rest =>
    let number := if part.file.isNone then number + 1 else number
    if part.text.length < position && !rest.isEmpty then
      place (position - part.text.length - 1) number rest
    else match part.file with
      | none => utf8 "-e expression #" ++ Bytes.decimal number ++ utf8 ", char " ++
        Bytes.decimal position
      | some name => utf8 "file " ++ name ++ utf8 " line " ++
        Bytes.decimal ((part.text.take (position - 1)).count 10 + 1)

end ScriptPart

def sedTable : OptionTable :=
  { flags := "nrEsuzb", valued := "efl", optional := "i"
    long := [("quiet", 'n'), ("silent", 'n'), ("regexp-extended", 'E'), ("expression", 'e'),
      ("file", 'f'), ("in-place", 'i'), ("separate", 's'), ("line-length", 'l'),
      ("null-data", 'z'), ("zero-terminated", 'z'), ("unbuffered", 'u'), ("binary", 'b')]
    longOnly := [("posix", .none), ("debug", .none), ("sandbox", .none), ("follow-symlinks", .none)] }

/-- The parts of the script that options give, or the first file that cannot be read. -/
def scriptParts (call : Call) : List (UInt8 × Bytes) →
    Act (Except (Bytes × FileCause) (List ScriptPart))
  | [] => return .ok []
  | (letter, value) :: rest => do
    if letter = 'e'.toUInt8 then
      return (← scriptParts call rest).map ({ text := value } :: ·)
    else if letter = 'f'.toUInt8 then
      match ← call.contentOf value with
      | .error cause => return .error (value, cause)
      | .ok text =>
        let text := if text.getLast? = some 10 then text.dropLast else text
        return (← scriptParts call rest).map ({ file := some value, text } :: ·)
    else scriptParts call rest

def sed : Utility := fun call => do
  call.withOptions sedTable 1 fun given => do
    match ← scriptParts call given.options with
    | .error (name, cause) =>
      call.complain (utf8 "couldn't open file " ++ name ++ utf8 ": " ++ utf8 cause.message)
      return 1
    | .ok parts =>
      let (parts, names) := match parts, given.operands with
        | [], text :: names => ([{ text : ScriptPart }], names)
        | parts, names => (parts, names)
      let script := Bytes.join [10] (parts.map (·.text))
      if parts.isEmpty then
        let _ ← Act.write 2 (utf8 "Usage: " ++ call.name ++
          utf8 " [OPTION]... \x7bscript-only-if-no-other-script\x7d [input-file]...\n")
        return 1
      else match Edit.read { extended := given.has 'r' || given.has 'E' } script with
        | .error (fault, position) =>
          match position with
          | some position =>
            call.complain (ScriptPart.place position 0 parts ++ utf8 ": " ++ fault.message)
            return 1
          | none =>
            call.complain fault.message
            return 4
        | .ok commands =>
          let isQuiet := script = utf8 "#n" || (utf8 "#n\n").isPrefixOf script
          let setup : Edit.Setup :=
            { quiet := given.has 'n' || isQuiet
              separate := given.has 's' || given.has 'i'
              inPlace := given.value? 'i'
              ending := if given.has 'z' then 0 else 10
              width := (given.number? 'l').getD 70
              prompt := given.has 'u' }
          Edit.run call setup commands names

/-- The utilities of this kind by name. -/
def editing : List (String × Utility) := [("sed", sed)]

end ShellCompletion.Utility
