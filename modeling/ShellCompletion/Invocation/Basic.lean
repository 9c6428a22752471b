import ShellCompletion.Diagnostic
import ShellCompletion.Invocation.Flag
import ShellCompletion.Settings
import ShellCompletion.Word64

/-!
# Invocations

What a command line asks of the program. Flags count from left to right, so a later one overrides an
earlier one, and reading ends at the first fault or at a flag that asks for the version or for help.
What was read before that stays. After the flags stand the line to complete and, optionally, the
cursor.
-/
namespace ShellCompletion

structure Invocation where
  line : Bytes := []
  cursor : Option Nat := none
  /-- The directory that relative paths start from; the current one if it is empty. -/
  directory : Bytes := []
  /-- The file with the history; the usual one if it is empty. -/
  historyFile : Bytes := []
  schemaDirectories : List Bytes := []
  json : Bool := false
  /-- Print the first path that the line can be extended to. -/
  extendPath : Bool := false
  listCommands : Bool := false
  showVersion : Bool := false
  showHelp : Bool := false
deriving DecidableEq, Repr

/-- What is wrong with a command line. -/
inductive InvocationFault where
  /-- A word is no flag, or lacks its value. -/
  | unrecognized (word : Bytes)
  | cursorValue
  | limitValue
  | missingLine
  | cursorOperand (word : Bytes)
  | extraOperand (word : Bytes)
  | cursorPastEnd (cursor : Nat)
deriving DecidableEq, Repr

def programName : Bytes := utf8 "tabsh-complete"

namespace InvocationFault

def subject : InvocationFault → Bytes
  | unrecognized word | cursorOperand word | extraOperand word => word
  | cursorValue | cursorPastEnd _ => utf8 "--cursor"
  | limitValue => utf8 "--max"
  | missingLine => programName

def message : InvocationFault → Bytes
  | unrecognized _ => utf8 "Unrecognized option or missing value"
  | cursorValue | cursorOperand _ => utf8 "cursor must be a byte offset"
  | limitValue => utf8 "maximum must be a positive integer"
  | missingLine => utf8 "missing command line to complete"
  | extraOperand _ => utf8 "unexpected extra argument"
  | cursorPastEnd cursor =>
    utf8 "cursor " ++ Bytes.decimal cursor ++ utf8 " is past the end of the line"

def suggestions : InvocationFault → List Bytes
  | unrecognized _ => [utf8 "Run 'tabsh-complete --help' for usage"]
  | cursorValue => [utf8 "Pass a non-negative integer"]
  | missingLine => [utf8 "Usage: tabsh-complete [options] <line> [cursor]"]
  | _ => []

def diagnostic (fault : InvocationFault) : Diagnostic :=
  { kind := .invalidArgument, subject := fault.subject, message := fault.message
    suggestions := fault.suggestions }

end InvocationFault

/-- The whole text as a number that is not negative and fits 64 bits with a sign. -/
def readCount (text : Bytes) : Option Nat :=
  match Bytes.readInteger (Bytes.untilNul text) with
  | some (.ofNat n) => if n ≤ Word64.maxSigned then some n else none
  | _ => none

/-! ## Reading command lines -/

inductive ReadingState where
  | ongoing
  /-- The version or help was asked for, and nothing else counts. -/
  | finished
  | failed (fault : InvocationFault)
deriving DecidableEq, Repr

/-- How far a command line has been read. -/
structure InvocationReading where
  settings : Settings
  invocation : Invocation := {}
  state : ReadingState := .ongoing
deriving DecidableEq, Repr

namespace InvocationReading

def fail (reading : InvocationReading) (fault : InvocationFault) : InvocationReading :=
  { reading with state := .failed fault }

/-- Takes one flag into account. -/
def takeFlag (reading : InvocationReading) (flag : Flag) (value : Bytes) : InvocationReading :=
  let invocation := reading.invocation
  let settings := reading.settings
  match flag with
  | .cursor =>
    match readCount value with
    | some n => { reading with invocation := { invocation with cursor := some n } }
    | none => reading.fail .cursorValue
  | .directory => { reading with invocation := { invocation with directory := value } }
  | .limit =>
    match readCount value with
    | some (n + 1) => { reading with settings := { settings with maxResults := n + 1 } }
    | _ => reading.fail .limitValue
  | .fuzzy => { reading with settings := { settings with fuzzyMatching := true } }
  | .caseSensitive => { reading with settings := { settings with caseSensitive := true } }
  | .history => { reading with invocation := { invocation with historyFile := value } }
  | .schemaDirectory =>
    { reading with invocation := { invocation with
        schemaDirectories := invocation.schemaDirectories ++ [value] } }
  | .pathPrefix => { reading with invocation := { invocation with extendPath := true } }
  | .listCommands => { reading with invocation := { invocation with listCommands := true } }
  | .noDynamic => { reading with settings := { settings with dynamicHandlers := false } }
  | .json => { reading with invocation := { invocation with json := true } }
  | .version =>
    { reading with invocation := { invocation with showVersion := true }, state := .finished }
  | .help => { reading with invocation := { invocation with showHelp := true }, state := .finished }

/-- Takes flags into account, as long as reading goes on. -/
def takeFlags (reading : InvocationReading) (given : List (Flag × Bytes)) : InvocationReading :=
  given.foldl (fun reading (flag, value) =>
    if reading.state = .ongoing then reading.takeFlag flag value else reading) reading

/-- Takes the cursor that stands after the line, and refuses words after it. -/
def takeCursor (reading : InvocationReading) : List Bytes → InvocationReading
  | [] => reading
  | word :: rest =>
    match readCount word with
    | none => reading.fail (.cursorOperand word)
    | some n =>
      let reading := { reading with invocation := { reading.invocation with cursor := some n } }
      match rest with
      | [] => reading
      | extra :: _ => reading.fail (.extraOperand extra)

/-- The cursor must lie in the line. -/
def checkCursor (reading : InvocationReading) : InvocationReading :=
  match reading.state, reading.invocation.cursor with
  | .ongoing, some n =>
    if n ≤ reading.invocation.line.length then reading else reading.fail (.cursorPastEnd n)
  | _, _ => reading

/-- Takes the operands: the line, which may be missing where commands are to be listed, and the
    cursor. -/
def takeOperands (reading : InvocationReading) : List Bytes → InvocationReading
  | [] => if reading.invocation.listCommands then reading.checkCursor else reading.fail .missingLine
  | line :: rest =>
    ({ reading with invocation := { reading.invocation with line } }.takeCursor rest).checkCursor

end InvocationReading

/-- Reads the words that follow the name of the program. -/
def readInvocation (order : OperandOrder) (settings : Settings) (words : List Bytes) :
    InvocationReading :=
  let read := scan order programName words
  let reading := InvocationReading.takeFlags { settings } read.given
  if reading.state = .ongoing then
    match read.operands with
    | .error word => reading.fail (.unrecognized word)
    | .ok operands => reading.takeOperands operands
  else reading

end ShellCompletion
