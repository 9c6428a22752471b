import ShellCompletion.Command.Perl.Functions
import ShellCompletion.Command.Shell.Expansion
import ShellCompletion.Command.Utility.Listing

/-!
# Files of Perl programs

How handles are opened to files, to commands, to other handles and to the values of variables; what is
known of files; and how files and directories are made, moved and removed.
-/
namespace ShellCompletion.Perl

/-- A text without the blanks around it. -/
def trimmed (text : Bytes) : Bytes :=
  ((text.dropWhile Bytes.isSpace).reverse.dropWhile Bytes.isSpace).reverse

/-- The mode and the target in a text that tells both. -/
def splitOpening (text : Bytes) : Bytes × Bytes :=
  let text := trimmed text
  if text.head? = some '|'.toUInt8 then (utf8 "|-", trimmed (text.drop 1))
  else if text.getLast? = some '|'.toUInt8 then (utf8 "-|", trimmed text.dropLast)
  else
    let mode := text.takeWhile (utf8 "+<>&=").contains
    (if mode.isEmpty then utf8 "<" else mode, trimmed (text.drop mode.length))

def braceParts : (depth : Nat) → (part : Bytes) → Bytes → Option (List Bytes × Bytes)
  | _, _, [] => none
  | depth, part, c :: rest =>
    if c = 0x7d then
      match depth with
      | 0 => some ([part.reverse], rest)
      | depth + 1 => braceParts depth (c :: part) rest
    else if c = 0x7b then braceParts (depth + 1) (c :: part) rest
    else if c = ','.toUInt8 && depth = 0 then
      (braceParts 0 [] rest).map fun (parts, rest) => (part.reverse :: parts, rest)
    else braceParts depth (c :: part) rest

/-- The texts that a text with braces stands for. `fuel` bounds the braces. -/
def bracesOut : (fuel : Nat) → Bytes → List Bytes
  | 0, s => [s]
  | fuel + 1, s =>
    let before := s.takeWhile (· != 0x7b)
    match s.drop before.length with
    | [] => [s]
    | _ :: after =>
      match braceParts 0 [] after with
      | none => [s]
      | some (parts, rest) => parts.flatMap fun part => bracesOut fuel (before ++ part ++ rest)

/-- The paths that the words of a text stand for. -/
def globbed (machine : Machine) (directory home text : Bytes) : List Bytes :=
  (Reading.wordsOf text).flatMap fun word =>
    let word := if word = utf8 "~" || (utf8 "~/").isPrefixOf word then home ++ word.drop 1 else word
    (bracesOut (word.length + 1) word).flatMap fun word =>
      let pattern := Pattern.ofText word
      if Pattern.isOpen pattern then Shell.pathsMatching {} machine directory pattern else [word]

/-- A descriptor that leads nowhere. -/
def noDescriptor : Nat := 1000000000

namespace Running

def handleOf? (package : Bytes) (value : Scalar) : Running (Option Nat) := do
  match value with
  | .handle number => return some number
  | .reference address =>
    match ← cellAt address with
    | .scalar (.handle number) => return some number
    | _ => return none
  | .nothing => return none
  | value =>
    let name ← textOf value
    let bare := if name.head? = some '*'.toUInt8 then name.drop 1 else name
    namedHandle package bare

def directory : Running Bytes := do return (← get).call.directory

/-- Notes how something went, and says whether it went well. -/
def settled {α : Type} (result : Except FileCause α) : Running Bool := do
  match result with
  | .ok _ => return true
  | .error cause =>
    setFault (causeNumber cause)
    return false

/-! ## Opening -/

/-- The descriptor for a handle: those that are always there keep theirs. -/
def descriptorFor (number : Nat) : Running Nat :=
  if number < 3 then return number else act (Act.freeDescriptor Act.ownDescriptors)

/-- The number by which a program knows a descriptor. -/
def shownDescriptor (descriptor : Nat) : Nat :=
  if Act.ownDescriptors ≤ descriptor then descriptor - Act.ownDescriptors + 3 else descriptor

/-- What opening a file without a terminal leaves behind as the last fault. -/
def openedFault : Nat := 25

def openFile (number : Nat) (mode path : Bytes) : Running (Except FileCause Handle) := do
  let descriptor ← descriptorFor number
  let directory ← directory
  let is (text : String) : Bool := mode == utf8 text
  let isThere ← act (Act.look fun machine => machine.files.exists? directory path)
  if path.isEmpty then return .error .notFound
  let opened (mode : OpenMode) : Running (Except FileCause Unit) :=
    act (Act.openAt descriptor directory path mode)
  let handle : Handle := { name := [], path := some path }
  if is "<" then
    return (← opened .read).map fun _ => { handle with inlet := some { descriptor } }
  else if is ">" then
    return (← opened .write).map fun _ => { handle with outlet := some { descriptor } }
  else if is ">>" then
    return (← opened .append).map fun _ => { handle with outlet := some { descriptor } }
  else if is "+<" && !isThere then return .error .notFound
  else
    if is "+>" then
      match ← opened .write with
      | .error cause => return .error cause
      | .ok () => act (Act.close descriptor)
    return (← opened .readWrite).map fun _ =>
      { handle with inlet := some { descriptor }, outlet := some { descriptor } }

/-- Opens what another descriptor leads to. -/
def openSame (number source : Nat) (reads : Bool) : Running (Except FileCause Handle) := do
  let descriptor ← descriptorFor number
  let found ← act (Act.access fun machine =>
    match machine.descriptors.lookup source with
    | some channel => (true, machine.point descriptor channel)
    | none => (false, machine))
  if !found then return .error .badDescriptor
  else if reads then return .ok { name := [], inlet := some { descriptor } }
  else return .ok { name := [], outlet := some { descriptor } }

/-- Opens the value of a variable as a file. -/
def openMemory (address : Nat) (mode : Bytes) : Running Handle := do
  if mode = utf8 "<" then
    let text ← textOf (← scalarAt address)
    return { name := [], memory := some address
             inlet := some { descriptor := noDescriptor, buffered := text, ended := true } }
  else
    if mode = utf8 ">>" then setScalar address (.text (← textOf (← scalarAt address)))
    else setScalar address (.text [])
    return { name := [], memory := some address }

/-- Goes on in two processes: the number of the new one, and zero in that. -/
def divide : Running Nat := do
  flushAll
  act fun next => .fork (next 0) next

/-- Opens a command to read what it prints, or to write what it reads. A dash stands for the program
    itself. The number of the process comes second; it is zero in the new one. -/
def openCommand (number : Nat) (reads : Bool) (words : List Bytes) :
    Running (Except FileCause (Handle × Nat)) := do
  flushAll
  let call ← currentCall
  let isSelf := words = [utf8 "-"]
  if !isSelf && !(← act (isRunnable call words)) then return .error .notFound
  let (intake, outlet) ← act Act.openPipe
  let (kept, given, goal) := if reads then (intake, outlet, 1) else (outlet, intake, 0)
  let child ← if isSelf then divide
    else act (Act.fork do
      Act.moveDescriptor given goal
      Act.close kept
      become call words)
  if child = 0 then
    act (Act.moveDescriptor given goal)
    act (Act.close kept)
    return .ok ({ name := [] }, 0)
  act (Act.close given)
  let kept ← if number < 3 then do
      act (Act.moveDescriptor kept number)
      pure number
    else pure kept
  let handle : Handle := if reads then { name := [], inlet := some { descriptor := kept } }
    else { name := [], outlet := some { descriptor := kept } }
  return .ok ({ handle with child := some child }, child)

/-- A mode without what it says of the coding of a text. -/
def bareMode (mode : Bytes) : Bytes :=
  (Bytes.before ':'.toUInt8 mode).filter fun c => !Bytes.isSpace c

def openHandle (number : Nat) (package mode : Bytes) (targets : List Scalar) : Running Scalar := do
  let old ← handleAt number
  let (mode, targets) ← match targets with
    | [] => do
      let (mode, target) := splitOpening mode
      pure (mode, [Scalar.text target])
    | targets => pure (bareMode mode, targets)
  if old.isOpen then
    let _ ← flushHandle number
    if 3 ≤ number then let _ ← closeHandle number
  let target := targets.headD .nothing
  let isCommand := mode = utf8 "-|" || mode = utf8 "|-"
  let reads := mode.head? = some '<'.toUInt8 || mode = utf8 "-|"
  let put (handle : Handle) (value : Scalar) : Running Scalar := do
    setHandle number { handle with name := old.name, flushes := number = 2 }
    return value
  if isCommand then
    match ← openCommand number reads (← targets.mapM textOf) with
    | .error cause =>
      setFault (causeNumber cause)
      return .nothing
    | .ok (handle, 0) =>
      if handle.isOpen then return .int 0
      return .int 0
    | .ok (handle, child) => put handle (Scalar.ofNat child)
  else if mode.contains '&'.toUInt8 then
    let source ← match ← handleOf? package target with
      | some source => do
        let _ ← flushHandle source
        pure (← handleAt source).descriptor?
      | none => do
        let text ← textOf target
        pure (if Bytes.allDigits text then some (Bytes.digitsValue text) else none)
    match ← openSame number (source.getD noDescriptor) reads with
    | .ok handle => put handle (.int 1)
    | .error cause =>
      setFault (causeNumber cause)
      return .nothing
  else match target with
    | .reference address =>
      let handle ← openMemory address mode
      put handle (.int 1)
    | target =>
      let path ← textOf target
      if path = utf8 "-" then
        match ← openSame number (if reads then 0 else 1) reads with
        | .ok handle => put handle (.int 1)
        | .error _ => return .nothing
      else match ← openFile number mode path with
        | .ok handle =>
          setFault openedFault
          put handle (.int 1)
        | .error cause =>
          setFault (causeNumber cause)
          return .nothing

/-- Two new handles, of which the first one reads what is written to the second one. -/
def openPair (reader writer : Nat) : Running Unit := do
  let (intake, outlet) ← act Act.openPipe
  setHandle reader { name := (← handleAt reader).name, inlet := some { descriptor := intake } }
  setHandle writer { name := (← handleAt writer).name, outlet := some { descriptor := outlet } }

/-! ## Places in files -/

/-- Reads some bytes of a handle; fewer at the end. `fuel` bounds the portions. -/
def readBytes (number : Nat) : (fuel count : Nat) → Running Bytes
  | 0, _ => return []
  | fuel + 1, count => do
    let handle ← handleAt number
    match handle.inlet with
    | none => return []
    | some inlet =>
      if count ≤ inlet.buffered.length || inlet.ended then
        let bytes := inlet.buffered.take count
        setHandle number { handle with inlet := some { inlet with buffered := inlet.buffered.drop count } }
        return bytes
      else match ← act inlet.refill with
        | .ok inlet =>
          setHandle number { handle with inlet := some inlet }
          readBytes number fuel count
        | .error cause =>
          setFault (causeNumber cause)
          return []

/-- Where in a file a handle is. -/
def tell (number : Nat) : Running Int := do
  let handle ← handleAt number
  let waiting := (handle.outlet.map (·.size)).getD 0
  let buffered := (handle.inlet.map (·.buffered.length)).getD 0
  match handle.memory, handle.descriptor? with
  | some address, _ => do
    let size := (← textOf (← scalarAt address)).length
    return size - buffered
  | none, some descriptor =>
    let offset ← act (Act.look fun machine => ((machine.channel? descriptor).map (·.2.offset)).getD 0)
    return offset + waiting - buffered
  | none, none => return -1

/-- Goes to a place in a file. -/
def seek (number : Nat) (place : Int) (start : Nat) : Running Bool := do
  let _ ← flushHandle number
  let here ← tell number
  let handle ← handleAt number
  let size ← match handle.memory, handle.descriptor? with
    | some address, _ => do pure (← textOf (← scalarAt address)).length
    | none, some descriptor => act (Act.look fun machine =>
        match machine.channel? descriptor with
        | some (_, { endpoint := .file place, .. }) => (machine.contentAt place).length
        | _ => 0)
    | none, none => pure 0
  let base : Int := if start = 1 then here else if start = 2 then size else 0
  let goal := base + place
  if goal < 0 || !handle.isOpen then
    setFault 22
    return false
  match handle.memory with
  | some address =>
    let text ← textOf (← scalarAt address)
    setHandle number { handle with
      inlet := handle.inlet.map fun inlet => { inlet with buffered := text.drop goal.toNat } }
  | none =>
    act (Act.change fun machine =>
      match machine.channel? (handle.descriptor?.getD noDescriptor) with
      | some (channel, _) =>
        { machine with channels := machine.channels.modify channel ({ · with offset := goal.toNat }) }
      | none => machine)
    setHandle number { handle with
      inlet := handle.inlet.map fun inlet => { inlet with buffered := [], ended := false } }
  return true

/-! ## What is known of files -/

/-- What lies at a path, a link being followed or not. -/
def nodeAt (path : Bytes) (follows : Bool) : Running (Except FileCause (List Bytes × FileNode)) := do
  let directory ← directory
  act (Act.look fun machine =>
    if follows then
      match machine.files.locate directory path with
      | .ok place => match machine.files.node? place with
        | some node => .ok (place, node)
        | none => .error .notFound
      | .error cause => .error cause
    else match Utility.entryAt machine directory path with
      | .ok (place, some node) => .ok (place, node)
      | .ok (_, none) => .error .notFound
      | .error cause => .error cause)

/-- What is known of a file, number by number. -/
def statusOf (place : List Bytes) (node : FileNode) : Running (List Scalar) := act (Act.look fun machine =>
  let entry : Utility.Listed := { name := [], place, node }
  let kind : Nat := match node with
    | .directory => 16384
    | .link _ => 40960
    | .pipe => if place.head? == some (utf8 "dev") then 8192 else 4096
    | .file .. => 32768
  let time := (machine.changedAt place).fdiv 1000000
  [.int 64, Scalar.ofNat (Utility.Listing.fileNumber entry), Scalar.ofNat (kind + machine.modeAt place node),
    Scalar.ofNat (entry.links machine), .int 0, .int 0, .int 0, Scalar.ofNat entry.size, .int time, .int time,
    .int time, .int 4096, Scalar.ofNat (2 * entry.blocks)])

def nodeOfHandle (number : Nat) : Running (Option (List Bytes × FileNode)) := do
  let handle ← handleAt number
  act (Act.look fun machine =>
    let endpoint : Option Endpoint := (handle.descriptor?.bind machine.channel?).map fun entry => entry.2.endpoint
    match endpoint with
    | some (.file place) | some (.folder place) => (machine.files.node? place).map fun node => (place, node)
    | some (.intake _) | some (.outlet _) | some .collector => some ([], .pipe)
    | some _ => some ([utf8 "dev", utf8 "null"], .pipe)
    | none => none)

def testResult (letter : UInt8) (place : List Bytes) (node : FileNode) : Running Scalar := do
  let is (letters : String) : Bool := (utf8 letters).contains letter
  let isDevice := place.head? == some (utf8 "dev")
  let machine ← act (Act.look id)
  let mode := machine.modeAt place node
  let entry : Utility.Listed := { name := [], place, node }
  let content := match node with
    | .file content _ => content
    | _ => []
  if is "erwoRWO" then return .int 1
  else if is "xX" then
    return Scalar.ofBool (match node with
      | .file .. => Permissions.isExecutable mode
      | node => node == .directory)
  else if is "s" then return if entry.size = 0 then .text [] else Scalar.ofNat entry.size
  else if is "z" then return Scalar.ofBool (entry.size = 0)
  else if is "f" then
    return Scalar.ofBool (match node with
      | .file .. => true
      | _ => false)
  else if is "d" then return Scalar.ofBool (node == .directory)
  else if is "l" then
    return Scalar.ofBool (match node with
      | .link _ => true
      | _ => false)
  else if is "p" then return Scalar.ofBool (node == .pipe && !isDevice)
  else if is "c" then return Scalar.ofBool (node == .pipe && isDevice)
  else if is "MAC" then
    let start := (← sharedValue "^T").toInt
    let start := if start = 0 then machine.clock.fdiv 1000000 else start
    return Scalar.settled (floatOfInt (start - (machine.changedAt place).fdiv 1000000) / 86400.0)
  else if is "TB" then
    let isText := content.all fun c => 32 ≤ c || (8 ≤ c && c ≤ 13) || c = 27
    return Scalar.ofBool (isText == is "T" || content.isEmpty)
  else if is "u" then return Scalar.ofBool (mode / 2048 % 2 = 1)
  else if is "g" then return Scalar.ofBool (mode / 1024 % 2 = 1)
  else if is "k" then return Scalar.ofBool (mode / 512 % 2 = 1)
  else return Scalar.ofBool false

def testFile (package : Bytes) (letter : UInt8) (value : Scalar) : Running Scalar := do
  let isPath := match value with
    | .handle _ | .reference _ => false
    | _ => true
  let name ← textOf value
  let number? ← if isPath && !(name = utf8 "STDIN" || name = utf8 "STDOUT" || name = utf8 "STDERR")
    then pure none else handleOf? package value
  let found ← match number? with
    | some number =>
      if letter = 't'.toUInt8 then return Scalar.ofBool false
      match ← nodeOfHandle number with
      | some found => pure (Except.ok found)
      | none => pure (Except.error FileCause.badDescriptor)
    | none => do
      let last := (← get).tested
      let path := if name = utf8 "_" then last else name
      modify ({ · with tested := path })
      nodeAt path (letter != 'l'.toUInt8)
  match found with
  | .ok (place, node) => testResult letter place node
  | .error cause =>
    setFault (causeNumber cause)
    return .nothing

/-! ## Changing files -/

def countFine (paths : List Bytes) (change : Bytes → Running Bool) : Running Scalar := do
  let mut count : Nat := 0
  for path in paths do
    if ← change path then count := count + 1
  return Scalar.ofNat count

/-- Takes a file away. -/
def removeFile (path : Bytes) : Running Bool := do
  match ← nodeAt path false with
  | .ok (_, .directory) => settled (Except.error FileCause.isDirectory : Except FileCause Unit)
  | .ok (place, _) =>
    act (Utility.removePlace place)
    return true
  | .error cause => settled (Except.error cause : Except FileCause Unit)

def makeDirectory (path : Bytes) (mode : Option Nat) : Running Bool := do
  let directory ← directory
  match ← act (Act.look fun machine => Utility.entryAt machine directory path) with
  | .ok (place, none) =>
    act (Utility.putNode place .directory)
    if let some mode := mode then act (Utility.setMode place (mode - (mode &&& 18)))
    return true
  | .ok (_, some _) => settled (Except.error FileCause.occupied : Except FileCause Unit)
  | .error cause => settled (Except.error cause : Except FileCause Unit)

/-- Takes an empty directory away. -/
def removeDirectory (path : Bytes) : Running Bool := do
  match ← nodeAt path false with
  | .ok (place, .directory) =>
    if ← act (Act.look fun machine => Utility.isEmptyAt machine.files place) then
      act (Utility.removePlace place)
      return true
    else settled (Except.error FileCause.notEmpty : Except FileCause Unit)
  | .ok _ => settled (Except.error FileCause.notDirectory : Except FileCause Unit)
  | .error cause => settled (Except.error cause : Except FileCause Unit)

/-- Puts what lies at a path to another one, and takes it away from there if it is to be moved. -/
def transfer (source target : Bytes) (moves : Bool) : Running Bool := do
  let directory ← directory
  match ← nodeAt source false, ← act (Act.look fun machine => Utility.entryAt machine directory target) with
  | .ok (place, node), .ok (goal, old) =>
    if place = goal then return true
    let isTaken := old == some .directory && (node != .directory ||
      !(← act (Act.look fun machine => Utility.isEmptyAt machine.files goal)))
    if isTaken then
      return ← settled (Except.error (if node = .directory then .notEmpty else .isDirectory) : Except FileCause Unit)
    if moves then act (Utility.removePlace goal)
    act (Utility.copyPlace place goal moves)
    if moves then act (Utility.removePlace place)
    return true
  | .error cause, _ => settled (Except.error cause : Except FileCause Unit)
  | _, .error cause => settled (Except.error cause : Except FileCause Unit)

def makeLink (target path : Bytes) : Running Bool := do
  let directory ← directory
  match ← act (Act.look fun machine => Utility.entryAt machine directory path) with
  | .ok (place, none) =>
    act (Utility.putNode place (.link target))
    return true
  | .ok (_, some _) => settled (Except.error FileCause.occupied : Except FileCause Unit)
  | .error cause => settled (Except.error cause : Except FileCause Unit)

def changeAt (path : Bytes) (change : List Bytes → Act Unit) : Running Bool := do
  match ← nodeAt path true with
  | .ok (place, _) =>
    act (change place)
    return true
  | .error cause => settled (Except.error cause : Except FileCause Unit)

/-- Cuts a file off, or fills it up. -/
def truncateAt (place : List Bytes) (size : Nat) : Act Unit := Act.change fun machine =>
  match machine.tree.node? place with
  | some (.file content executable) =>
    machine.store place
      (.file (content.take size ++ List.replicate (size - content.length) 0) executable)
  | _ => machine

/-- Makes another directory the current one. -/
def changeDirectory (path : Bytes) : Running Bool := do
  let session ← get
  let here := session.call.directory
  let isThere ← act (Act.look fun machine => machine.files.isDirectory here path)
  if isThere then
    let next ← act (Act.look fun machine => machine.files.physicalPath (Path.append here path))
    modify fun session => { session with call := { session.call with directory := next } }
    return true
  else
    match ← nodeAt path true with
    | .ok _ => settled (Except.error FileCause.notDirectory : Except FileCause Unit)
    | .error cause => settled (Except.error cause : Except FileCause Unit)

def openDirectory (number : Nat) (path : Bytes) : Running Bool := do
  match ← nodeAt path true with
  | .ok (place, .directory) =>
    let names ← act (Act.look fun machine => machine.files.namesIn place)
    let old ← handleAt number
    setHandle number { old with names := some (utf8 "." :: utf8 ".." :: names), read := 0 }
    return true
  | .ok _ => settled (Except.error FileCause.notDirectory : Except FileCause Unit)
  | .error cause => settled (Except.error cause : Except FileCause Unit)

/-- Takes a whole tree of files away; says how many there were. -/
def removeAll (path : Bytes) : Running Nat := do
  match ← nodeAt path false with
  | .ok (place, _) =>
    let count ← act (Act.look fun machine => (Utility.placesBelow machine place).length)
    act (Utility.removePlace place)
    return max count 1
  | .error _ => return 0

end Running

end ShellCompletion.Perl
