import ShellCompletion.Command.Machine.Opening
import ShellCompletion.Environment

/-!
# Actions

What a process goes on to do: an `Action` is the rest of its life. It looks at the machine and
changes it, waits until something holds of the machine, starts another process, and ends. `Act` is
the part of a life that leads up to a result.
-/
namespace ShellCompletion

/-- What a process goes on to do. -/
inductive Action where
  | exit (status : Nat)
  /-- Looks at the machine and changes it. -/
  | act (step : Machine → Action × Machine)
  /-- Waits until something holds of the machine. -/
  | wait (ready : Machine → Bool) (next : Action)
  /-- Starts a process, and goes on with the number of that. -/
  | fork (child : Action) (next : Nat → Action)

/-- Steps of a process with a result. They take what the process does with the result. -/
def Act (α : Type) : Type := (α → Action) → Action

namespace Act

instance : Monad Act where
  pure result := fun next => next result
  bind act then_ := fun next => act fun result => then_ result next

/-- Ends the process. -/
def exit {α : Type} (status : Nat) : Act α := fun _ => .exit status

/-- Looks at the machine and changes it. -/
def access {α : Type} (step : Machine → α × Machine) : Act α := fun next =>
  .act fun machine =>
    let (result, machine) := step machine
    (next result, machine)

def look {α : Type} (view : Machine → α) : Act α := access fun machine => (view machine, machine)

def change (step : Machine → Machine) : Act Unit := access fun machine => ((), step machine)

/-- Does something that may fail. -/
def attempt {α : Type} (step : Machine → Except FileCause (α × Machine)) :
    Act (Except FileCause α) :=
  access fun machine => match step machine with
    | .ok (result, machine) => (.ok result, machine)
    | .error cause => (.error cause, machine)

def waitUntil (ready : Machine → Bool) : Act Unit := fun next => .wait ready (next ())

/-- Starts a process that ends with the status that its steps give. -/
def fork (child : Act Nat) : Act Nat := fun next => .fork (child .exit) next

/-! ## Processes -/

/-- The number of the process. -/
def self : Act Nat := look (·.current)

/-- Waits until a process has ended. -/
def join (number : Nat) : Act Ending := do
  waitUntil fun machine => !machine.isAlive number
  access fun machine =>
    (((machine.endingOf? number).getD (.exited 127)), machine.forget number)

/-- Runs steps in a process of their own, and waits until that has ended. -/
def inProcess (child : Act Nat) : Act Ending := do join (← fork child)

/-- Sets the time at which the process wants to go on. -/
def setWake (wake : Option Nat) : Act Unit :=
  change fun machine => machine.update machine.current ({ · with wake })

/-- Waits until something holds or some microseconds have gone by. -/
def waitAtMost (duration : Nat) (ready : Machine → Bool) : Act Unit := do
  let wake := (← look (·.now)) + duration
  setWake (some wake)
  waitUntil fun machine => wake ≤ machine.now || ready machine
  setWake none

def sleep (duration : Nat) : Act Unit := waitAtMost duration fun _ => false

/-- Waits without end. -/
def hang {α : Type} : Act α := fun _ => .wait (fun _ => false) (.exit 0)

def send (signal number : Nat) : Act Bool := access (·.send signal number)

def meetSignals (ignored caught : List Nat) : Act Unit :=
  change fun machine => machine.update machine.current ({ · with ignored, caught })

/-! ## Channels -/

/-- How much is read at once. -/
def portion : Nat := 65536

def read (descriptor most : Nat) : Act (Except FileCause Bytes) := do
  waitUntil (·.canRead descriptor)
  access (·.read descriptor most)

/-- More bytes than this are never read into one text. -/
def maxText : Nat := 16777216

/-- Reads up to the end, which never comes after more than `room` bytes. `fuel` bounds the
    portions. -/
def readRest (descriptor : Nat) : (fuel room : Nat) → Act (Except FileCause Bytes)
  | 0, _ => hang
  | fuel + 1, room => do
    match ← read descriptor portion with
    | .error cause => return .error cause
    | .ok [] => return .ok []
    | .ok bytes =>
      if room < bytes.length then hang
      else return (← readRest descriptor fuel (room - bytes.length)).map (bytes ++ ·)

def readAll (descriptor : Nat) : Act (Except FileCause Bytes) :=
  readRest descriptor (maxText + 1) maxText

/-- Writes all of a text; each time at least a byte of it. -/
def writeParts (descriptor : Nat) : (fuel : Nat) → Bytes → Act (Except FileCause Unit)
  | 0, _ => return .ok ()
  | fuel + 1, bytes => do
    if bytes.isEmpty then return .ok ()
    waitUntil (·.canWrite descriptor)
    match ← access (·.write descriptor bytes) with
    | .error cause => return .error cause
    | .ok rest => writeParts descriptor fuel rest

def write (descriptor : Nat) (bytes : Bytes) : Act (Except FileCause Unit) :=
  writeParts descriptor bytes.length bytes

/-- Opens a path at a descriptor. The named pipe is waited for until somebody opens its other end. -/
def openAt (descriptor : Nat) (directory path : Bytes) (mode : OpenMode) :
    Act (Except FileCause Unit) := do
  match ← attempt fun machine => do
      let (channel, machine) ← machine.openPath directory path mode
      return (channel, machine.point descriptor channel) with
  | .error cause => return .error cause
  | .ok channel =>
    waitUntil fun machine => !machine.isAlone channel
    return .ok ()

def close (descriptor : Nat) : Act Unit := change (·.close descriptor)

def freeDescriptor (least : Nat) : Act Nat := look fun machine =>
  let used := machine.descriptors.map Prod.fst
  ((List.range (used.length + 1)).map (· + least)).find? (!used.contains ·) |>.getD least

/-- Descriptors from here on are a process's own: a program that takes its place does not get them. -/
def ownDescriptors : Nat := 1000

/-- Keeps what a descriptor leads to at one of the process's own. -/
def saveDescriptor (descriptor : Nat) : Act (Nat × Option Nat) := do
  match ← look (·.descriptors.lookup descriptor) with
  | none => return (descriptor, none)
  | some channel =>
    let kept ← freeDescriptor ownDescriptors
    change (·.point kept channel)
    return (descriptor, some kept)

/-- Makes a descriptor lead to what was kept of it. -/
def restoreDescriptor : Nat × Option Nat → Act Unit
  | (descriptor, none) => close descriptor
  | (descriptor, some kept) => change fun machine =>
    match machine.descriptors.lookup kept with
    | some channel => (machine.point descriptor channel).close kept
    | none => machine

/-- Makes a descriptor lead to where another one leads, which is closed. -/
def moveDescriptor (source target : Nat) : Act Unit := restoreDescriptor (target, some source)

/-- Adds a pipe: the descriptors from which it is read and to which it is written. -/
def openPipe : Act (Nat × Nat) := do
  let intake ← freeDescriptor ownDescriptors
  let outlet ← freeDescriptor (intake + 1)
  change fun machine =>
    let (pipe, machine) := machine.addPipe
    let (reading, machine) := machine.addChannel { endpoint := .intake pipe, writable := false }
    let (writing, machine) := machine.addChannel { endpoint := .outlet pipe, readable := false }
    (machine.point intake reading).point outlet writing
  return (intake, outlet)

/-- Opens a text for reading. -/
def provide (descriptor : Nat) (text : Bytes) : Act Unit := change fun machine =>
  let (pipe, machine) := machine.addPipe
  let machine := { machine with pipes := machine.pipes.set! pipe text }
  let (channel, machine) := machine.addChannel { endpoint := .intake pipe, writable := false }
  machine.point descriptor channel

/-- Gives bytes of a file back that were read and are not wanted. -/
def giveBack (descriptor count : Nat) : Act Unit := change fun machine =>
  match machine.channel? descriptor with
  | some (number, { endpoint := .file _, .. }) =>
    { machine with channels := machine.channels.modify number fun channel =>
        { channel with offset := channel.offset - count } }
  | _ => machine

end Act

/-- Lets a program take the place of a process: the one at a path, seen from a directory, with its
    environment and words. If that cannot be done, it says why. -/
abbrev Launch := (directory : Bytes) → (environment : Environment) → (path : Bytes) →
  (words : List Bytes) → Act FileCause

namespace Launch

/-- The search path of a process that is given none. -/
def defaultPath : Bytes := utf8 "/bin:/usr/bin"

/-- Tries paths one after the other, and says at the end why none could be launched. -/
def first (launch : Launch) (directory : Bytes) (environment : Environment) (words : List Bytes) :
    (cause : FileCause) → List Bytes → Act FileCause
  | cause, [] => return cause
  | cause, path :: rest => do
    match ← launch directory environment path words with
    | .notFound | .notDirectory => first launch directory environment words cause rest
    | .denied => first launch directory environment words .denied rest
    | other => return other

/-- The directories of a search path. One that is longer than any path is passed over, and what comes
    after it starts with a directory of no name. -/
def directoriesIn (path : Bytes) : List Bytes :=
  let directories := Bytes.fields ':'.toUInt8 path
  let isShort (directory : Bytes) : Bool := directory.length < FileTree.maxPath
  if directories.getLast?.any isShort then
    directories.map fun directory => if isShort directory then directory else []
  else directories.dropLast.map fun directory => if isShort directory then directory else []

/-- Launches the program that a name leads to in the directories of the search path; one with a slash
    is a path itself. -/
def search (launch : Launch) (directory : Bytes) (environment : Environment) (name : Bytes)
    (words : List Bytes) : Act FileCause :=
  if name.isEmpty then return .notFound
  else if name.contains Path.slash then launch directory environment name words
  else
    let path := (environment.get? (utf8 "PATH")).getD defaultPath
    let paths := (directoriesIn path).map fun place =>
      if place.isEmpty then name else place ++ Path.slash :: name
    launch.first directory environment words .notFound paths

end Launch

end ShellCompletion
