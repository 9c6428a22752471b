import ShellCompletion.Command.Awk.Reader
import ShellCompletion.Command.Awk.Table
import ShellCompletion.Command.Utility.Commands

/-!
# Sessions of programs

What a program of patterns and actions works on: its variables and arrays, the record with its fields,
and what it reads and writes. The fields follow from the record, and the record from the fields, only
when they are asked for.
-/
namespace ShellCompletion.Awk

/-- How a text is cut into parts. -/
inductive Splitter where
  /-- At blanks, of which those at the ends do not count. -/
  | blanks
  | characters
  | byte (c : UInt8)
  | regex (regex : Regex)

/-- What a parameter of a function stands for. -/
inductive Cell where
  | scalar (value : Value)
  | array (number : Nat)

instance : Inhabited Cell := ⟨.scalar .nothing⟩

/-- A file or a command that is read. -/
structure Feed where
  name : Bytes
  isCommand : Bool
  inlet : Inlet
  child : Option Nat := none

/-- A file or a command that is written. -/
structure Drain where
  name : Bytes
  outlet : Outlet
  child : Option Nat := none

structure Session where
  call : Call
  program : Program
  shared : Std.HashMap Bytes Value := {}
  /-- The arrays that are known everywhere, and all arrays by number. -/
  arrays : Std.HashMap Bytes Nat := {}
  tables : Std.HashMap Nat Table := {}
  nextTable : Nat := 0
  /-- The parameters of the function that runs. -/
  frame : Array Cell := #[]
  record : Value := .nothing
  fields : Array Value := #[]
  isSplit : Bool := true
  isJoined : Bool := true
  /-- How records are cut into fields. -/
  splitter : Splitter := .blanks
  /-- The argument that is looked at next for a file, and whether one has been read. -/
  argument : Nat := 1
  hasFile : Bool := false
  inlet : Option Inlet := none
  feeds : List Feed := []
  /-- The one that was used last comes first. -/
  drains : List Drain := []
  outlet : Outlet := ⟨1, [], 0⟩
  /-- The rules whose ranges have begun. -/
  ranges : List Nat := []
  status : Nat := 0
  seed : Nat := 0

/-- How a statement is left. -/
inductive Jump where
  | leave
  | again
  | nextRecord
  | nextFile
  | exit
  /-- At once, and nothing is done after the last record. -/
  | abort
  | back (value : Value)
  | failure (text : Bytes)

abbrev Running := ExceptT Jump (StateT Session Act)

namespace Running

def act {α : Type} (act : Act α) : Running α := monadLift act

/-- Ends the program because of a fault. -/
def fail {α : Type} (text : Bytes) : Running α := throw (.failure text)

/-- Lets the other processes have a turn. -/
def pause : Running Unit := act (Act.look fun _ => ())

/-! ## Texts -/

/-- The value of a variable that is known everywhere. -/
def sharedValue (name : String) : Running Value := do return ((← get).shared.getD (utf8 name) .nothing)

def formatted (format : Bytes) (value : Float) : Bytes :=
  let (start, rest) := (Bytes.before '%'.toUInt8 format, format.drop (Bytes.before '%'.toUInt8 format).length)
  match rest with
  | [] => start
  | _ :: rest =>
    let flags := rest.takeWhile (utf8 "-0+ #").contains
    let rest := rest.drop flags.length
    let width := rest.takeWhile Bytes.isDigit
    let rest := rest.drop width.length
    let precision := if rest.head? == some '.'.toUInt8 then
        some ((rest.drop 1).takeWhile Bytes.isDigit) else none
    let rest := rest.drop (match precision with
      | some digits => digits.length + 1
      | none => 0)
    let padding : Format.Padding :=
      { left := flags.contains '-'.toUInt8, zeros := flags.contains '0'.toUInt8
        plus := flags.contains '+'.toUInt8, blank := flags.contains ' '.toUInt8
        alternate := flags.contains '#'.toUInt8
        width := Bytes.digitsValue width, precision := precision.map Bytes.digitsValue }
    match rest with
    | [] => format
    | letter :: ending =>
      let body := if (utf8 "di").contains letter then Format.signedText padding (integerOf value)
        else if value.isNaN then Format.plainText padding (utf8 "-nan")
        else Format.floatText padding letter value
      start ++ body ++ ending

def numberText (format : Bytes) (value : Float) : Bytes :=
  match integerText? value with
  | some text => text
  | none => formatted format value

def textWith (format : Bytes) : Value → Bytes
  | .nothing => []
  | .number value => numberText format value
  | .text bytes | .input bytes => bytes

def textOf (value : Value) : Running Bytes := do
  match value with
  | .number number =>
    match integerText? number with
    | some text => return text
    | none => return numberText (textWith (utf8 "%.6g") (← sharedValue "CONVFMT")) number
  | value => return textWith [] value

/-! ## Fields -/

/-- The splitter that a text says. -/
def splitterOf (separator : Bytes) : Running Splitter :=
  match separator with
  | [32] => return .blanks
  | [] => return .characters
  | [c] => return .byte c
  | text => match Regex.Escaped.read text with
    | .ok regex => return .regex regex
    | .error flaw => fail (utf8 "regular expression compile failed (" ++ utf8 flaw.message ++ utf8 ")\n" ++
        text)

def partsBetween (regex : Regex) (text : Bytes) : List Bytes :=
  let found := (regex.occurrences .longest text).filter fun found => found.1 < found.2.1
  let (parts, place) := found.foldl (fun (parts, place) (start, ending, _) =>
    ((text.drop place).take (start - place) :: parts, ending)) (([] : List Bytes), 0)
  (text.drop place :: parts).reverse

/-- A byte that separates fields unless something else does. -/
def isGap (c : UInt8) : Bool := c == 32 || c == 9 || c == 10

def split (splitter : Splitter) (text : Bytes) : List Bytes :=
  if text.isEmpty then []
  else match splitter with
    | .blanks => (text.splitBy fun a b => isGap a == isGap b).filter (!·.head?.any isGap)
    | .characters => text.map ([·])
    | .byte c => Bytes.fields c text
    | .regex regex => partsBetween regex text

def recordText : Running Bytes := do
  let session ← get
  if session.isJoined then textOf session.record
  else
    let separator ← textOf (← sharedValue "OFS")
    let parts ← session.fields.toList.mapM textOf
    let text := Bytes.join separator parts
    modify ({ · with record := .text text, isJoined := true })
    return text

def recordValue : Running Value := do
  let _ ← recordText
  return (← get).record

def setRecord (value : Value) : Running Unit :=
  modify ({ · with record := value, isSplit := false, isJoined := true })

/-- Cuts the record into its fields, if that has not been done. -/
def cut : Running Unit := do
  let session ← get
  if !session.isSplit then
    let text ← textOf session.record
    let fields := ((split session.splitter text).map Value.input).toArray
    modify ({ · with fields, isSplit := true })

def fieldCount : Running Nat := do
  cut
  return (← get).fields.size

/-- Sets how many fields there are. -/
def resize (count : Nat) : Running Unit := do
  cut
  modify fun session =>
    let fields := session.fields.extract 0 count
    let fields := fields ++ Array.replicate (count - fields.size) (Value.text [])
    { session with fields, isJoined := false }

def fieldNumber (index : Value) : Running Nat := do
  let n := Format.truncated least most index.toNumber
  if n < 0 then fail (utf8 "negative field index $" ++ Bytes.decimalInt n)
  if 32767 * 1024 < n then fail (utf8 "maximum number of fields exceeded")
  return n.toNat

def field (n : Nat) : Running Value := do
  if n = 0 then recordValue
  else
    cut
    return (← get).fields.getD (n - 1) .nothing

def setField (n : Nat) (value : Value) : Running Unit := do
  if n = 0 then
    match value with
    | .input _ => setRecord value
    | value => setRecord (.input (← textOf value))
  else
    if (← fieldCount) < n then resize n
    modify fun session =>
      { session with fields := session.fields.setIfInBounds (n - 1) value, isJoined := false }

/-! ## Variables -/

def setShared (name : Bytes) (value : Value) : Running Unit :=
  modify fun session => { session with shared := session.shared.insert name value }

/-- Sets how records are cut into fields. The record that is there is cut as before. -/
def chooseSplitter : Running Unit := do
  let separator ← textOf (← sharedValue "FS")
  cut
  let splitter ← splitterOf separator
  modify ({ · with splitter })

def valueOf (name : Name) : Running Value := do
  match name with
  | .parameter index =>
    match (← get).frame.getD index default with
    | .scalar value => return value
    | .array _ => fail (utf8 "illegal reference to array")
  | .shared name =>
    if name = utf8 "NF" then return .number (Float.ofNat (← fieldCount))
    else
      let session ← get
      match session.shared[name]? with
      | some value => return value
      | none =>
        if session.arrays.contains name then fail (utf8 "illegal reference to array " ++ name)
        return .nothing

def assign (name : Name) (value : Value) : Running Unit := do
  match name with
  | .parameter index =>
    modify fun session => { session with frame := session.frame.setIfInBounds index (.scalar value) }
  | .shared name =>
    if name = utf8 "NF" then resize (← fieldNumber value)
    else
      setShared name value
      if name = utf8 "FS" then chooseSplitter

def addTable (table : Table) : Running Nat := do
  let number := (← get).nextTable
  modify fun session =>
    { session with nextTable := number + 1, tables := session.tables.insert number table }
  return number

def tableNumber (name : Name) : Running Nat := do
  match name with
  | .parameter index =>
    match (← get).frame.getD index default with
    | .array number => return number
    | .scalar _ =>
      let number ← addTable {}
      modify fun session =>
        { session with frame := session.frame.setIfInBounds index (.array number) }
      return number
  | .shared name =>
    match (← get).arrays[name]? with
    | some number => return number
    | none =>
      let number ← addTable {}
      modify fun session => { session with arrays := session.arrays.insert name number }
      return number

/-- Takes a step on an array. -/
def onTable {α : Type} (number : Nat) (step : Table → α × Table) : Running α := do
  let session ← get
  let table := session.tables.getD number {}
  set { session with tables := session.tables.erase number }
  let (result, table) := step table
  modify fun session => { session with tables := session.tables.insert number table }
  return result

/-- What an element is found by. -/
def keyOf (value : Value) : Running Table.Key := do
  match value with
  | .number number =>
    let n := Format.truncated least most number
    if Float.ofInt n == number && n != most then return .number n
    else return .text (← textOf value)
  | value => return .text (← textOf value)

/-! ## Output -/

/-- Writes all that waits. -/
def flushAll : Running Unit := do
  let session ← get
  let (outlet, _) ← act session.outlet.flush
  let drains ← act (session.drains.mapM fun drain => do
    return { drain with outlet := (← drain.outlet.flush).1 })
  modify ({ · with outlet, drains })

def endingNumber : Ending → Int
  | .exited status => status
  | .killed signal => 256 + signal

/-- Closes a drain, and tells how its command has ended. -/
def closeDrain (drain : Drain) : Running Int := do
  let _ ← act drain.outlet.flush
  act (Act.close drain.outlet.descriptor)
  match drain.child with
  | none => return 0
  | some child => return endingNumber (← act (Act.join child))

def writeTo (kind : TargetKind) (name text : Bytes) : Running Unit := do
  let session ← get
  if kind != .command && (name == utf8 "/dev/stdout" || name == utf8 "-") then
    set { session with outlet := (← act (session.outlet.put text)).1 }
  else if kind != .command && name == utf8 "/dev/stderr" then
    let _ ← act (Act.write 2 text)
  else
    let drain ← match session.drains.find? fun drain =>
        drain.name == name && drain.child.isSome == (kind == .command) with
      | some drain => pure drain
      | none =>
        if kind == .command then
          flushAll
          let (child, descriptor) ← act (session.call.shellTarget name)
          pure { name, outlet := { descriptor }, child := some child }
        else
          let descriptor ← act (Act.freeDescriptor Act.ownDescriptors)
          let mode := if kind == .append then OpenMode.append else .write
          match ← act (Act.openAt descriptor session.call.directory name mode) with
          | .ok () => pure { name, outlet := { descriptor } }
          | .error cause =>
            let _ ← act (Act.write 2 (session.call.name ++ utf8 ": cannot open \"" ++ name ++
              utf8 "\" for output (" ++ utf8 cause.message ++ utf8 ")\n"))
            modify ({ · with status := 2 })
            throw .abort
    let (outlet, _) ← act (drain.outlet.put text)
    modify fun session => { session with
      drains := { drain with outlet } :: session.drains.filter fun other =>
        !(other.name == name && other.child.isSome == (kind == .command)) }

/-- Closes all that is written at the end: first what commands read. -/
def closeAll : Running Unit := do
  for drain in (← get).drains do
    if drain.child.isSome then let _ ← closeDrain drain
  modify fun session => { session with drains := session.drains.filter (·.child.isNone) }
  flushAll

def closeNamed (name : Bytes) : Running Int := do
  let session ← get
  let drains := session.drains.filter (·.name == name)
  let feeds := session.feeds.filter (·.name == name)
  set { session with
    drains := session.drains.filter (·.name != name), feeds := session.feeds.filter (·.name != name) }
  let mut result : Int := if drains.isEmpty && feeds.isEmpty then -1 else 0
  for drain in drains do result ← closeDrain drain
  for feed in feeds do
    act (Act.close feed.inlet.descriptor)
    if let some child := feed.child then result := endingNumber (← act (Act.join child))
  return result

/-! ## Input -/

def readRest (inlet : Inlet) : Act (Except FileCause Inlet) := do
  if inlet.ended then return .ok inlet
  match ← Act.readAll inlet.descriptor with
  | .error cause => return .error cause
  | .ok more => return .ok { inlet with buffered := inlet.buffered ++ more, ended := true }

/-- Reads the lines of a paragraph. `fuel` bounds them. -/
def paragraph : (fuel : Nat) → (found : List Bytes) → Inlet →
    Act (Except FileCause (Option Bytes × Inlet))
  | 0, _, _ => Act.hang
  | fuel + 1, found, inlet => do
    match ← inlet.nextLine with
    | .error cause => return .error cause
    | .ok (none, inlet) =>
      return .ok (if found.isEmpty then none else some (Bytes.join [10] found.reverse), inlet)
    | .ok (some ([], _), inlet) =>
      if found.isEmpty then paragraph fuel found inlet
      else return .ok (some (Bytes.join [10] found.reverse), inlet)
    | .ok (some (line, _), inlet) => paragraph fuel (line :: found) inlet

/-- Reads the next record. -/
def takeRecord (separator : Bytes) (inlet : Inlet) : Running (Except FileCause (Option Bytes × Inlet)) := do
  match separator with
  | [] => act (paragraph Act.maxText [] inlet)
  | [c] =>
    match ← act (inlet.nextLine c) with
    | .error cause => return .error cause
    | .ok (found, inlet) => return .ok (found.map Prod.fst, inlet)
  | text =>
    match Regex.Escaped.read text with
    | .error flaw => fail (utf8 flaw.message)
    | .ok regex =>
      match ← act (readRest inlet) with
      | .error cause => return .error cause
      | .ok inlet =>
        if inlet.buffered.isEmpty then return .ok (none, inlet)
        let found := (regex.occurrences .longest inlet.buffered).find? fun found => found.1 < found.2.1
        match found with
        | none => return .ok (some inlet.buffered, { inlet with buffered := [] })
        | some (start, ending, _) =>
          let (record, rest) := (inlet.buffered.take start, inlet.buffered.drop ending)
          return .ok (some record, { inlet with buffered := rest })

def recordSeparator : Running Bytes := do textOf (← sharedValue "RS")

/-- Adds one to a variable that counts. -/
def count (name : String) : Running Unit := do
  let value := (← sharedValue name).toNumber
  setShared (utf8 name) (.number (value + 1))

/-- Sets a variable as an argument of the program says. -/
def assignText (word : Bytes) : Running Bool := do
  let name := Bytes.before '='.toUInt8 word
  let isName := name.length < word.length && name.head?.any Reading.isNameStart &&
    name.all Reading.isNameByte
  if isName then
    let text := word.drop (name.length + 1)
    assign (.shared name) (.input (Reading.unescape text.length text))
  return isName

/-- Goes on to the next file of the arguments; tells whether there is one. `fuel` bounds the
    arguments. -/
def openNext : (fuel : Nat) → Running Bool
  | 0 => return false
  | fuel + 1 => do
    let session ← get
    let start (descriptor : Nat) (name : Bytes) : Running Bool := do
      setShared (utf8 "FILENAME") (.text name)
      setShared (utf8 "FNR") (.number 0)
      modify ({ · with inlet := some { descriptor }, hasFile := true })
      return true
    let count := (← sharedValue "ARGC").toNumber
    if count ≤ Float.ofNat session.argument then
      if session.hasFile then return false
      modify ({ · with hasFile := true })
      start 0 []
    else
      set { session with argument := session.argument + 1 }
      let number ← tableNumber (.shared (utf8 "ARGV"))
      let word ← onTable number fun table =>
        (table.cells[Bytes.decimal session.argument]?, table)
      let word ← match word with
        | none => pure []
        | some value => textOf value
      if word.isEmpty then openNext fuel
      else if ← assignText word then openNext fuel
      else if word == utf8 "-" || word == utf8 "/dev/stdin" then start 0 word
      else
        let descriptor ← act (Act.freeDescriptor Act.ownDescriptors)
        match ← act (Act.openAt descriptor session.call.directory word .read) with
        | .ok () => start descriptor word
        | .error cause =>
          let _ ← act (Act.write 2 (session.call.name ++ utf8 ": cannot open \"" ++ word ++ utf8 "\" (" ++
            utf8 cause.message ++ utf8 ")\n"))
          modify ({ · with status := 2 })
          throw .abort

/-- Leaves the file that is read. -/
def closeInput : Running Unit := do
  if let some inlet := (← get).inlet then
    if inlet.descriptor != 0 then act (Act.close inlet.descriptor)
  modify ({ · with inlet := none })

/-- Reads the next record of the input. `fuel` bounds the files. -/
def readInput : (fuel : Nat) → Running (Option Bytes)
  | 0 => return none
  | fuel + 1 => do
    let session ← get
    match session.inlet with
    | none =>
      let arguments := session.call.arguments.length + 64
      if ← openNext arguments then readInput fuel else return none
    | some inlet =>
      set { session with inlet := none }
      match ← takeRecord (← recordSeparator) inlet with
      | .error _ =>
        modify ({ · with inlet := some inlet })
        closeInput
        readInput fuel
      | .ok (found, inlet) =>
        modify ({ · with inlet := some inlet })
        match found with
        | some record =>
          count "NR"
          count "FNR"
          return some record
        | none =>
          closeInput
          readInput fuel

/-- Reads the next record of a file or of what a command prints: one, none at the end, or minus one. -/
def readFeed (isCommand : Bool) (name : Bytes) : Running (Except Int Bytes) := do
  let session ← get
  let isSame (feed : Feed) : Bool := feed.name == name && feed.isCommand == isCommand
  let opened : Option Feed ← match session.feeds.find? isSame with
    | some feed => pure (some feed)
    | none =>
      if isCommand then
        flushAll
        let (child, descriptor) ← act (session.call.shellSource name)
        pure (some { name, isCommand, inlet := { descriptor }, child := some child })
      else if name == utf8 "-" || name == utf8 "/dev/stdin" then
        pure (some { name, isCommand, inlet := { descriptor := 0 } })
      else
        let descriptor ← act (Act.freeDescriptor Act.ownDescriptors)
        match ← act (Act.openAt descriptor session.call.directory name .read) with
        | .ok () => pure (some { name, isCommand, inlet := { descriptor } })
        | .error _ => pure none
  match opened with
  | none => return .error (-1)
  | some feed =>
    match ← takeRecord (← recordSeparator) feed.inlet with
    | .error _ => return .error (-1)
    | .ok (found, inlet) =>
      modify fun session => { session with
        feeds := { feed with inlet } :: session.feeds.filter (!isSame ·) }
      match found with
      | some record => return .ok record
      | none => return .error 0

end Running

end ShellCompletion.Awk
