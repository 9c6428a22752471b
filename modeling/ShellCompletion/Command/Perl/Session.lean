import ShellCompletion.Command.Perl.Reader
import ShellCompletion.Command.Regex.Perl
import ShellCompletion.Command.Utility.Commands
import Std.Data.HashMap

/-!
# Sessions of Perl programs

What a program works on while it runs: cells that hold values, which are told by their addresses; the
variables that lead to them; and the files that are open. A cell is never taken back. A list holds values
that belong to no cell, and cells whose values may be changed.
-/
namespace ShellCompletion.Perl

/-- Addresses by name, in the order in which the names came. -/
structure Table where
  cells : Std.HashMap Bytes (Nat × Nat) := {}
  next : Nat := 0
  /-- The names that are still to be gone through. -/
  left : Option (List Bytes) := none

namespace Table

def find? (table : Table) (name : Bytes) : Option Nat := (table.cells[name]?).map Prod.snd

def insert (table : Table) (name : Bytes) (address : Nat) : Table :=
  match table.cells[name]? with
  | some (order, _) => { table with cells := table.cells.insert name (order, address) }
  | none => { table with cells := table.cells.insert name (table.next, address), next := table.next + 1 }

def erase (table : Table) (name : Bytes) : Table := { table with cells := table.cells.erase name }

/-- The names with their addresses, in order. -/
def entries (table : Table) : List (Bytes × Nat) :=
  let all := table.cells.toList.mergeSort fun a b => a.2.1 ≤ b.2.1
  all.map fun (name, _, address) => (name, address)

def size (table : Table) : Nat := table.cells.size

end Table

/-- The variables of the blocks around a place in a program. -/
abbrev Scope := List (Nat × Nat)

/-- What is run when a function is called. -/
inductive Callee where
  | defined (name : Bytes) (code : Code) (scope : Scope)
  | known (function : Function)

instance : Inhabited Callee := ⟨.known .identity⟩

inductive Cell where
  | scalar (value : Scalar)
  | array (items : Array Nat)
  | table (table : Table)
  | code (callee : Callee)

instance : Inhabited Cell := ⟨.scalar .nothing⟩

/-- A value of a list: of its own, or of a cell. -/
inductive Item where
  | value (value : Scalar)
  | place (address : Nat)

instance : Inhabited Item := ⟨.value .nothing⟩

/-- A file, a command or a directory that is open. -/
structure Handle where
  name : Bytes
  inlet : Option Inlet := none
  outlet : Option Outlet := none
  child : Option Nat := none
  /-- What is written is added to the value of a cell. -/
  memory : Option Nat := none
  /-- The names in a directory, and how many of them have been read. -/
  names : Option (List Bytes) := none
  read : Nat := 0
  lines : Nat := 0
  /-- What is written does not wait. -/
  flushes : Bool := false
  /-- The path, if it is a file. -/
  path : Option Bytes := none

instance : Inhabited Handle := ⟨{ name := [] }⟩

namespace Handle

def isOpen (handle : Handle) : Bool :=
  handle.inlet.isSome || handle.outlet.isSome || handle.memory.isSome || handle.names.isSome

def descriptor? (handle : Handle) : Option Nat :=
  (handle.inlet.map (·.descriptor)).or (handle.outlet.map (·.descriptor))

end Handle

/-- What was changed for a while. -/
inductive Undo where
  | shared (key : Bytes) (address : Option Nat)
  | entry (table : Nat) (key : Bytes) (address : Option Nat)
  | element (array index address : Nat)
  | handle (name : Bytes) (number : Option Nat)

/-- The last match that was found, with the text and the names of its groups. -/
structure Found where
  text : Bytes
  found : Regex.Match
  groups : Nat := 0
  names : List (Bytes × Nat) := []

/-- A function that is running. -/
structure Frame where
  name : Bytes
  package : Bytes
  line : Nat
  want : Want

structure Session where
  call : Call
  file : Bytes
  heap : Array Cell := #[.scalar .nothing]
  classes : Std.HashMap Nat Bytes := {}
  /-- Cells by sign and name. -/
  shared : Std.HashMap Bytes Nat := {}
  /-- The cells that variables had first, each with whether its declaration has been met. -/
  first : Std.HashMap Nat (Nat × Bool) := {}
  scope : Scope := []
  /-- The cell of the arguments. -/
  arguments : Nat := 0
  want : Want := .none
  handles : Array Handle := #[]
  handleNames : Std.HashMap Bytes Nat := {}
  selected : Nat := 1
  lastRead : Option Nat := none
  undo : List Undo := []
  depth : Nat := 0
  found : Option Found := none
  places : Std.HashMap Nat Nat := {}
  patterns : Std.HashMap Bytes Regex.Perl.Expression := {}
  line : Nat := 0
  package : Bytes := utf8 "main"
  frames : List Frame := []
  seed : Nat := 42
  fault : Nat := 0
  slots : Nat := 1
  /-- The files that are read as one text: whether that has begun, and the one that is open. -/
  reading : Option (Option Nat) := none
  /-- What is done when all is over, the last one first. -/
  late : List (List Stmt × Scope) := []
  /-- The ranges that have begun. -/
  ranges : List (Nat × Nat) := []
  /-- Files are changed in place; the ending of the names under which the old ones are kept. -/
  inPlace : Option Bytes := none
  /-- The separator is cut off from each line, and added when lines are printed. -/
  lineEnds : Bool := false
  /-- The file that was tested last. -/
  tested : Bytes := []
  /-- The program meets some signals by itself. -/
  catches : Bool := false
  /-- A text is no name of a variable to follow. -/
  strict : Bool := false
  /-- The paths of patterns that are still to be gone through. -/
  globs : List (Bytes × List Bytes) := []
  /-- How many texts have been run as programs. -/
  texts : Nat := 0

/-- How a statement is left. -/
inductive Jump where
  | leave (label : Option Bytes)
  | again (label : Option Bytes)
  | redo (label : Option Bytes)
  | giveBack (items : List Item)
  | death (value : Scalar)
  | exit (status : Nat)
  /-- At once. -/
  | abort (status : Nat)

abbrev Running := ExceptT Jump (StateT Session Act)

namespace Running

def act {α : Type} (act : Act α) : Running α := monadLift act

/-- Lets the other processes have a turn. -/
def pause : Running Unit := act (Act.look fun _ => ())

/-! ## Cells -/

@[noinline] def fresh (cell : Cell) : Running Nat := modifyGet fun session =>
  (session.heap.size, { session with heap := session.heap.push cell })

@[noinline] def cellAt (address : Nat) : Running Cell := do return (← get).heap.getD address default

@[noinline] def put (address : Nat) (cell : Cell) : Running Unit := modify fun session =>
  { session with heap := session.heap.setIfInBounds address cell }

@[noinline] def scalarAt (address : Nat) : Running Scalar := do
  match ← cellAt address with
  | .scalar value => return value
  | _ => return .nothing

def setScalar (address : Nat) (value : Scalar) : Running Unit := put address (.scalar value)

@[noinline] def arrayAt (address : Nat) : Running (Array Nat) := do
  match ← cellAt address with
  | .array items => return items
  | _ => return #[]

@[noinline] def tableAt (address : Nat) : Running Table := do
  match ← cellAt address with
  | .table table => return table
  | _ => return {}

@[noinline] def onArray {α : Type} [Inhabited α] (address : Nat) (change : Array Nat → α × Array Nat) : Running α :=
  modifyGet fun session =>
    match session.heap.getD address default with
    | .array items =>
      let session := { session with heap := session.heap.setIfInBounds address default }
      let (result, items) := change items
      (result, { session with heap := session.heap.setIfInBounds address (.array items) })
    | _ =>
      let (result, items) := change #[]
      (result, { session with heap := session.heap.setIfInBounds address (.array items) })

@[noinline] def onTable {α : Type} [Inhabited α] (address : Nat) (change : Table → α × Table) : Running α :=
  modifyGet fun session =>
    match session.heap.getD address default with
    | .table table =>
      let session := { session with heap := session.heap.setIfInBounds address default }
      let (result, table) := change table
      (result, { session with heap := session.heap.setIfInBounds address (.table table) })
    | _ =>
      let (result, table) := change {}
      (result, { session with heap := session.heap.setIfInBounds address (.table table) })

def emptyOf : Sigil → Cell
  | .array => .array #[]
  | .table => .table {}
  | _ => .scalar .nothing

/-- The key under which a variable is kept that is known everywhere. -/
def keyOf (sigil : Sigil) (name : Bytes) : Bytes := Reading.signOf sigil :: name

/-- The cell of a variable that is known everywhere. -/
@[noinline] def sharedPlace (sigil : Sigil) (name : Bytes) : Running Nat := do
  let key := keyOf sigil name
  match (← get).shared[key]? with
  | some address => return address
  | none =>
    let address ← fresh (emptyOf sigil)
    modify fun session => { session with shared := session.shared.insert key address }
    return address

def sharedValue (name : String) : Running Scalar := do
  scalarAt (← sharedPlace .scalar (utf8 ("main::" ++ name)))

def setShared (name : String) (value : Scalar) : Running Unit := do
  setScalar (← sharedPlace .scalar (utf8 ("main::" ++ name))) value

/-- The cell of a variable of a block. -/
@[noinline] def slotPlace (sigil : Sigil) (slot : Nat) : Running Nat := do
  let session ← get
  match session.scope.lookup slot with
  | some address => return address
  | none =>
    match session.first[slot]? with
    | some (address, _) => return address
    | none =>
      let address ← fresh (emptyOf sigil)
      modify fun session => { session with first := session.first.insert slot (address, false) }
      return address

/-- Makes a variable of a block anew. -/
@[noinline] def declareSlot (sigil : Sigil) (slot : Nat) : Running Nat := do
  let session ← get
  let address ← match session.first[slot]? with
    | some (address, false) => do
      modify fun session => { session with first := session.first.insert slot (address, true) }
      pure address
    | some (_, true) => fresh (emptyOf sigil)
    | none => do
      let address ← fresh (emptyOf sigil)
      modify fun session => { session with first := session.first.insert slot (address, true) }
      pure address
  modify fun session => { session with scope := (slot, address) :: session.scope }
  return address

/-! ## Texts and references -/

/-- The kind of what a reference leads to. -/
def kindAt (address : Nat) : Running Bytes := do
  match ← cellAt address with
  | .array _ => return utf8 "ARRAY"
  | .table _ => return utf8 "HASH"
  | .code _ => return utf8 "CODE"
  | .scalar (.reference _) => return utf8 "REF"
  | .scalar _ => return utf8 "SCALAR"

/-- A number in base sixteen. -/
def hexText (n : Nat) : Bytes := (Nat.toDigits 16 n).map Char.toUInt8

@[noinline] def textOf (value : Scalar) : Running Bytes := do
  match value.text? with
  | some text => return text
  | none => match value with
    | .reference address =>
      let body := (← kindAt address) ++ utf8 "(0x" ++ hexText (94000000000000 + 24 * address) ++ utf8 ")"
      match (← get).classes[address]? with
      | some name => return name ++ utf8 "=" ++ body
      | none => return body
    | .handle number =>
      let handle := (← get).handles.getD number default
      return utf8 "GLOB(0x" ++ hexText (94000000000000 + 24 * handle.name.length + number) ++ utf8 ")"
    | _ => return []

@[noinline] def itemValue : Item → Running Scalar
  | .value value => return value
  | .place address => scalarAt address

/-- The cell of an item; one of its own if it has none. -/
def itemPlace : Item → Running Nat
  | .value value => fresh (.scalar value)
  | .place address => return address

def itemTexts (items : List Item) : Running (List Bytes) :=
  items.mapM fun item => do textOf (← itemValue item)

def newArray (values : List Scalar) : Running Nat := do
  let items ← values.mapM fun value => fresh (.scalar value)
  fresh (.array items.toArray)

/-- Fills a table with names and values in turn. -/
def fillTable (address : Nat) : List Scalar → Running Unit
  | [] => return
  | [name] => do
    let name ← textOf name
    let cell ← fresh (.scalar .nothing)
    onTable address fun table => ((), table.insert name cell)
  | name :: value :: rest => do
    let name ← textOf name
    let cell ← fresh (.scalar value)
    onTable address fun table => ((), table.insert name cell)
    fillTable address rest

/-! ## Faults -/

/-- The place of the program that is running, as it is told in messages. -/
def whereText : Running Bytes := do
  let session ← get
  let line := utf8 " at " ++ session.file ++ utf8 " line " ++ Bytes.decimal session.line
  match session.lastRead.map fun number => session.handles.getD number default with
  | some handle =>
    if handle.lines = 0 || !handle.isOpen then return line ++ utf8 ".\n"
    let name := if handle.name.isEmpty then utf8 "<$fh>" else utf8 "<" ++ handle.name ++ utf8 ">"
    let separator ← sharedValue "/"
    let unit := if separator.text? == some [10] then utf8 "line" else utf8 "chunk"
    return line ++ utf8 ", " ++ name ++ utf8 " " ++ unit ++ utf8 " " ++ Bytes.decimal handle.lines ++ utf8 ".\n"
  | none => return line ++ utf8 ".\n"

/-- Ends the program because of a fault. -/
def fail {α : Type} (text : Bytes) : Running α := do
  throw (.death (.text (text ++ (← whereText))))

/-- The causes of failed operations by number. -/
def causes : List (Nat × String) :=
  [(1, "Operation not permitted"), (2, "No such file or directory"), (3, "No such process"),
   (4, "Interrupted system call"), (5, "Input/output error"), (6, "No such device or address"), (9, "Bad file descriptor"),
   (10, "No child processes"), (11, "Resource temporarily unavailable"), (13, "Permission denied"),
   (17, "File exists"), (20, "Not a directory"), (21, "Is a directory"), (22, "Invalid argument"),
   (25, "Inappropriate ioctl for device"), (28, "No space left on device"), (29, "Illegal seek"), (32, "Broken pipe"),
   (36, "File name too long"), (39, "Directory not empty"), (40, "Too many levels of symbolic links")]

def causeNumber : FileCause → Nat
  | .notFound => 2
  | .notDirectory => 20
  | .isDirectory => 21
  | .occupied => 17
  | .tooManyLinks => 40
  | .nameTooLong => 36
  | .denied => 13
  | .notEmpty => 39
  | .brokenPipe => 32
  | .badDescriptor => 9
  | .noDevice => 6
  | .noSpace => 28

/-- Notes why an operation has failed. -/
def setFault (number : Nat) : Running Unit := modify ({ · with fault := number })

def faultValue : Running Scalar := do
  let number := (← get).fault
  return .dual number (utf8 ((causes.lookup number).getD ""))

/-! ## Handles -/

def namedHandle (package name : Bytes) : Running (Option Nat) := do
  let session ← get
  let full := Reading.qualified package name
  return (session.handleNames[full]?).or (session.handleNames[utf8 "main::" ++ name]?)

def addHandle (handle : Handle) : Running Nat := modifyGet fun session =>
  (session.handles.size, { session with handles := session.handles.push handle })

def handleAt (number : Nat) : Running Handle := do return (← get).handles.getD number default

def setHandle (number : Nat) (handle : Handle) : Running Unit := modify fun session =>
  { session with handles := session.handles.setIfInBounds number handle }

/-- Writes all that waits to be written to a handle; says whether that could be done. -/
def flushHandle (number : Nat) : Running Bool := do
  let handle ← handleAt number
  match handle.outlet with
  | some outlet =>
    if outlet.waiting.isEmpty then return true
    setHandle number { handle with outlet := some { outlet with waiting := [], size := 0 } }
    match ← act (Act.write outlet.descriptor outlet.waiting.reverse.flatten) with
    | .ok () => return true
    | .error cause =>
      setFault (causeNumber cause)
      return false
  | none => return true

/-- Writes all that waits to be written. -/
def flushAll : Running Unit := do
  for number in List.range (← get).handles.size do
    let _ ← flushHandle number

/-- How much is written at once. -/
def blockSize : Nat := 8192

/-- Writes a text to a handle; says whether that could be done. -/
def write (number : Nat) (text : Bytes) : Running Bool := do
  let handle ← handleAt number
  match handle.memory, handle.outlet with
  | some address, _ =>
    let old ← textOf (← scalarAt address)
    setScalar address (.text (old ++ text))
    return true
  | none, some outlet =>
    let outlet := { outlet with waiting := text :: outlet.waiting, size := outlet.size + text.length }
    setHandle number { handle with outlet := some outlet }
    if handle.flushes || blockSize ≤ outlet.size then flushHandle number else return true
  | none, none =>
    setFault 9
    return false

/-- Closes a handle: how the command behind it has ended, and whether it was open. -/
def closeHandle (number : Nat) : Running Bool := do
  let handle ← handleAt number
  if !handle.isOpen then
    setFault 9
    return false
  let fine ← flushHandle number
  if let some descriptor := handle.descriptor? then act (Act.close descriptor)
  setHandle number { name := handle.name }
  match handle.child with
  | none => return fine
  | some child =>
    let status : Nat := match ← act (Act.join child) with
      | .exited code => code * 256
      | .killed signal => signal
    setShared "?" (.int status)
    if status != 0 then setFault 0
    return fine && status == 0

/-! ## Lines -/

/-- The separator of lines: none, or a text; an empty one stands for empty lines. -/
def separator : Running (Option Bytes) := do
  match ← sharedValue "/" with
  | .nothing => return none
  | .reference _ => return none
  | value => return some (← textOf value)

/-- Takes a text up to a separator and with it. -/
def takeThrough (wanted : Bytes) : (fuel : Nat) → (found : Bytes) → Bytes → Bytes × Bytes × Bool
  | 0, found, rest => (found.reverse, rest, false)
  | _, found, [] => (found.reverse, [], false)
  | fuel + 1, found, c :: rest =>
    if wanted.isPrefixOf (c :: rest) then
      (found.reverse ++ wanted, (c :: rest).drop wanted.length, true)
    else takeThrough wanted fuel (c :: found) rest

def readRest (inlet : Inlet) : Act Inlet := do
  if inlet.ended then return inlet
  match ← Act.readAll inlet.descriptor with
  | .error _ => return { inlet with ended := true }
  | .ok more => return { inlet with buffered := inlet.buffered ++ more, ended := true }

/-- Reads the next line of a handle, with its end; none at the end. -/
def readLine (number : Nat) : Running (Option Bytes) := do
  let handle ← handleAt number
  let some inlet := handle.inlet | return none
  let mode ← separator
  let record ← match ← sharedValue "/" with
    | .reference address => do pure (some (← scalarAt address).toNat)
    | _ => pure none
  setHandle number { handle with inlet := none }
  let (line, inlet) ← match record, mode with
    | some size, _ => do
      let inlet ← act (readRest inlet)
      let text := inlet.buffered.take size
      pure (if text.isEmpty then none else some text, { inlet with buffered := inlet.buffered.drop size })
    | none, none => do
      let inlet ← act (readRest inlet)
      let text := inlet.buffered
      pure (if text.isEmpty then none else some text, { inlet with buffered := [] })
    | none, some [c] => do
      match ← act (inlet.nextLine c) with
      | .ok (some (line, whole), inlet) => pure (some (if whole then line ++ [c] else line), inlet)
      | .ok (none, inlet) => pure (none, inlet)
      | .error cause => do
        setFault (causeNumber cause)
        pure (none, { inlet with ended := true })
    | none, some wanted => do
      let inlet ← act (readRest inlet)
      let text := if wanted.isEmpty then inlet.buffered.dropWhile (· == 10) else inlet.buffered
      let mark := if wanted.isEmpty then [10, 10] else wanted
      let (line, rest, _) := takeThrough mark (text.length + 1) [] text
      let rest := if wanted.isEmpty then rest.dropWhile (· == 10) else rest
      pure (if line.isEmpty then none else some line, { inlet with buffered := rest })
  let handle ← handleAt number
  let lines := if line.isSome then handle.lines + 1 else handle.lines
  setHandle number { handle with inlet := some inlet, lines }
  modify ({ · with lastRead := some number })
  return line

/-- Reads all lines of a handle. `fuel` bounds them. -/
def readLines (number : Nat) : (fuel : Nat) → Running (List Bytes)
  | 0 => return []
  | fuel + 1 => do
    match ← readLine number with
    | none => return []
    | some line => return line :: (← readLines number fuel)

/-- Nothing more can be read at a handle. -/
def atEnd (number : Nat) : Running Bool := do
  let handle ← handleAt number
  match handle.inlet with
  | none => return true
  | some inlet =>
    match ← act inlet.peek with
    | .ok inlet =>
      setHandle number { handle with inlet := some inlet }
      return inlet.isEmpty
    | .error _ => return true

/-! ## Signals and processes -/

def signalNames : List (String × Nat) :=
  [("HUP", 1), ("INT", 2), ("QUIT", 3), ("ILL", 4), ("TRAP", 5), ("ABRT", 6), ("BUS", 7), ("FPE", 8),
   ("KILL", 9), ("USR1", 10), ("SEGV", 11), ("USR2", 12), ("PIPE", 13), ("ALRM", 14), ("TERM", 15),
   ("CHLD", 17), ("CONT", 18), ("STOP", 19), ("TSTP", 20), ("TTIN", 21), ("TTOU", 22), ("WINCH", 28)]

def signalNumber? (text : Bytes) : Option Nat :=
  if Bytes.allDigits text then some (Bytes.digitsValue text)
  else
    let bare := if (utf8 "SIG").isPrefixOf text then text.drop 3 else text
    if bare = utf8 "ZERO" then some 0
    else (signalNames.find? fun entry => utf8 entry.1 == bare).map Prod.snd

/-- The environment of programs, as the table of it says. -/
def environment : Running Environment := do
  let table ← tableAt (← sharedPlace .table (utf8 "main::ENV"))
  let entries ← table.entries.mapM fun (name, address) => do return (name, ← textOf (← scalarAt address))
  return { entries }

/-- The call for programs that the program runs. -/
def currentCall : Running Call := do
  return { (← get).call with environment := ← environment }

/-- Waits for a process, and gives the number that tells how it has ended. -/
def awaitStatus (child : Nat) : Running Nat := do
  match ← act (Act.join child) with
  | .exited code => return code * 256
  | .killed signal => return signal

def needsShell (text : Bytes) : Bool :=
  text.any fun c => (utf8 "$&*()\x7b\x7d[]'\";\\|?<>~\n").contains c || c == 96

/-- Lets a command take the place of the process: a text, or words. -/
def become (call : Call) (words : List Bytes) : Act Nat := do
  match words with
  | [] => return 255
  | [text] =>
    if needsShell text then
      let _ ← call.launch call.directory call.environment Call.shellPath [utf8 "sh", utf8 "-c", text]
      return 255
    let words := Reading.wordsOf text
    let _ ← call.launch.search call.directory call.environment (words.headD []) words
    return 255
  | words =>
    let _ ← call.launch.search call.directory call.environment (words.headD []) words
    return 255

/-- Some command of that name can be run. -/
def isRunnable (call : Call) (words : List Bytes) : Act Bool := do
  let words := match words with
    | [text] => if needsShell text then [Call.shellPath] else Reading.wordsOf text
    | words => words
  let name := words.headD []
  let path := (call.environment.get? (utf8 "PATH")).getD Launch.defaultPath
  let paths := if name.contains Path.slash then [name]
    else (Launch.directoriesIn path).map fun place => if place.isEmpty then name else place ++ Path.slash :: name
  Act.look fun machine => paths.any fun path => machine.files.isExecutable call.directory path

end Running

end ShellCompletion.Perl
