import ShellCompletion.Environment
import ShellCompletion.FileTree

/-!
# Machines

What running processes share: the files, the time, and the channels over which they read and write. A
process has descriptors, which are its names for channels. Channels stay open as long as a process
that has not ended holds them: a pipe that nothing can write to any longer ends, and writing to one
that nothing can read from ends the writer. The output that is collected goes to a channel of its
own.
-/
namespace ShellCompletion

/-- What a channel leads to. -/
inductive Endpoint where
  /-- Takes what is written and has nothing to read. -/
  | null
  /-- Zero bytes without end. -/
  | zeros
  /-- Zero bytes as well, but no room for what is written. -/
  | full
  /-- Takes the output that is collected. -/
  | collector
  /-- Where the pipe of that number is read from. -/
  | intake (pipe : Nat)
  /-- Where the pipe of that number is written to. -/
  | outlet (pipe : Nat)
  | file (place : List Bytes)
  | folder (place : List Bytes)
deriving DecidableEq, Repr

structure Channel where
  endpoint : Endpoint
  readable : Bool := true
  writable : Bool := true
  /-- Where in a file the next byte is read or written. -/
  offset : Nat := 0
  /-- Whatever is written goes to the end. -/
  append : Bool := false
deriving DecidableEq, Repr

/-- How a process ended. -/
inductive Ending where
  | exited (code : Nat)
  | killed (signal : Nat)
deriving DecidableEq, Repr

/-- The code by which others know how a process ended. -/
def Ending.status : Ending → Nat
  | exited code => code % 256
  | killed signal => 128 + signal

/-- What a process was started with. -/
structure Startup where
  /-- The name of the file that was asked for. -/
  name : Bytes := []
  words : List Bytes := []
  environment : Environment := { entries := [] }
  /-- The place of the program. -/
  program : List Bytes := []
  directory : Bytes := [Path.slash]
deriving Repr

structure Process where
  number : Nat
  parent : Nat
  startup : Startup := {}
  /-- The channels by descriptor. -/
  descriptors : List (Nat × Nat)
  ending : Option Ending := none
  stopped : Bool := false
  /-- When it wants to go on. -/
  wake : Option Nat := none
  /-- When it is to be sent the signal of the clock. -/
  alarm : Option Nat := none
  /-- The signals that it ignores. -/
  ignored : List Nat := []
  /-- The signals that it catches, and those of them that have come. -/
  caught : List Nat := []
  pending : List Nat := []
deriving Repr

/-- What is known of a place beside what lies there. -/
structure Attributes where
  /-- Its permissions, if they are not the usual ones. -/
  mode : Option Nat := none
  /-- When what lies there was last changed, in microseconds after the start of 1970. -/
  changed : Int
deriving Repr

/-- Processes, and what they share. -/
structure Machine where
  tree : FileTree
  /-- What is known of places that have been changed. -/
  attributes : List (List Bytes × Attributes) := []
  /-- In microseconds after the start. -/
  now : Nat := 0
  channels : Array Channel := #[]
  /-- What has been written to pipes and not yet been read. -/
  pipes : Array Bytes := #[]
  /-- The pipes of the named pipes that have been opened. -/
  namedPipes : List (List Bytes × Nat) := []
  processes : List Process := []
  /-- The number of the process that runs. -/
  current : Nat
  /-- The number that the next process gets. -/
  next : Nat
  /-- What has been collected with its times, the last first. -/
  collected : List (Nat × Bytes) := []
  /-- How many bytes have been collected. -/
  size : Nat := 0
  /-- When nothing could be collected any more. -/
  closed : Option Nat := none
  /-- When the first process ended, and with what status. -/
  ended : Option (Nat × Nat) := none

/-- What a file is opened for. -/
inductive OpenMode where
  | read
  | write
  /-- For writing, unless a file is there. -/
  | fresh
  | append
  | readWrite
deriving DecidableEq, Repr

def OpenMode.writes : OpenMode → Bool
  | read => false
  | _ => true

namespace Machine

/-! ## Processes -/

def firstNumber : Nat := 1000

def process? (machine : Machine) (number : Nat) : Option Process :=
  machine.processes.find? (·.number = number)

def update (machine : Machine) (number : Nat) (change : Process → Process) : Machine :=
  { machine with processes := machine.processes.map fun process =>
      if process.number = number then change process else process }

/-- There is a process of that number that has not ended. -/
def isAlive (machine : Machine) (number : Nat) : Bool :=
  (machine.process? number).any (·.ending.isNone)

/-- The process may go on. -/
def isActive (machine : Machine) (number : Nat) : Bool :=
  (machine.process? number).any fun process => process.ending.isNone && !process.stopped

def endingOf? (machine : Machine) (number : Nat) : Option Ending :=
  (machine.process? number).bind (·.ending)

/-- The descriptors of the process that runs. -/
def descriptors (machine : Machine) : List (Nat × Nat) :=
  ((machine.process? machine.current).map (·.descriptors)).getD []

def channel? (machine : Machine) (descriptor : Nat) : Option (Nat × Channel) := do
  let number ← machine.descriptors.lookup descriptor
  let channel ← machine.channels[number]?
  return (number, channel)

/-- A process that has not ended holds a channel to that end. -/
def holds (machine : Machine) (endpoint : Endpoint) : Bool :=
  machine.processes.any fun process => process.ending.isNone &&
    process.descriptors.any fun entry =>
      machine.channels[entry.2]?.any fun channel => channel.endpoint = endpoint

/-- Notes when the collected output has been closed. -/
def settle (machine : Machine) : Machine :=
  if machine.closed.isNone && !machine.holds .collector then
    { machine with closed := some machine.now }
  else machine

def finish (machine : Machine) (number : Nat) (ending : Ending) : Machine :=
  let machine := machine.update number fun process =>
    { process with ending := some ending, descriptors := [], wake := none }
  let machine := if number = firstNumber then
      { machine with ended := some (machine.now, ending.status) }
    else machine
  machine.settle

/-- Forgets a process that has ended. -/
def forget (machine : Machine) (number : Nat) : Machine :=
  { machine with processes := machine.processes.filter (·.number != number) }

/-- Adds a process that has the descriptors of the one that runs. -/
def spawn (machine : Machine) : Machine :=
  let parent := machine.process? machine.current
  let process : Process :=
    { number := machine.next, parent := machine.current, descriptors := machine.descriptors
      ignored := (parent.map (·.ignored)).getD [], startup := (parent.map (·.startup)).getD {} }
  { machine with processes := machine.processes ++ [process], next := machine.next + 1 }

/-! ## Signals -/

/-- The signals that stop a process, those that have no effect on one, and the one that lets it go
    on. -/
def stopping : List Nat := [19, 20, 21, 22]
def harmless : List Nat := [17, 18, 23, 28]
def continuing : Nat := 18

/-- The signals that cannot be met otherwise. -/
def irresistible : List Nat := [9, 19]

/-- The signal of a writer that nobody reads, and the one of the clock. -/
def pipeSignal : Nat := 13
def alarmSignal : Nat := 14

def send (machine : Machine) (signal number : Nat) : Bool × Machine :=
  match machine.process? number with
  | none => (false, machine)
  | some process =>
    let resistible := !irresistible.contains signal
    let machine := if signal = continuing then
        machine.update number ({ · with stopped := false })
      else machine
    let after :=
      if signal = 0 || process.ending.isSome || (resistible && process.ignored.contains signal) then
        machine
      else if resistible && process.caught.contains signal then
        machine.update number fun process =>
          { process with pending := process.pending.filter (· != signal) ++ [signal] }
      else if stopping.contains signal then machine.update number ({ · with stopped := true })
      else if harmless.contains signal then machine
      else machine.finish number (.killed signal)
    (true, after)

/-- Goes on to a time, at which some processes may be waiting for the signal of the clock. -/
def advance (machine : Machine) (now : Nat) : Machine :=
  let due := machine.processes.filter fun process => process.ending.isNone && process.alarm.any (· ≤ now)
  due.foldl (fun machine process =>
    ((machine.update process.number ({ · with alarm := none })).send alarmSignal process.number).2)
    { machine with now }

/-! ## Descriptors -/

/-- Makes a descriptor of the process that runs lead to a channel. -/
def point (machine : Machine) (descriptor channel : Nat) : Machine :=
  (machine.update machine.current fun process =>
    { process with descriptors :=
        process.descriptors.filter (·.1 != descriptor) ++ [(descriptor, channel)] }).settle

def close (machine : Machine) (descriptor : Nat) : Machine :=
  (machine.update machine.current fun process =>
    { process with descriptors := process.descriptors.filter (·.1 != descriptor) }).settle

/-- Adds a channel, whose number comes first. -/
def addChannel (machine : Machine) (channel : Channel) : Nat × Machine :=
  (machine.channels.size, { machine with channels := machine.channels.push channel })

/-- Adds a pipe, whose number comes first. -/
def addPipe (machine : Machine) : Nat × Machine :=
  (machine.pipes.size, { machine with pipes := machine.pipes.push [] })

/-! ## Files -/

/-- When machines start, in microseconds after the start of 1970. -/
def startTime : Int := 1767225600000000

def clock (machine : Machine) : Int := startTime + machine.now

def changedAt (machine : Machine) (place : List Bytes) : Int :=
  ((machine.attributes.lookup place).map (·.changed)).getD startTime

/-- The permissions that files of a kind have, if nobody changes them. -/
def usualMode : FileNode → Nat
  | .file _ executable => if executable then 493 else 420
  | .directory => 493
  | .link _ => 511
  | .pipe => 420

/-- The permissions of what lies at a place. -/
def modeAt (machine : Machine) (place : List Bytes) (node : FileNode) : Nat :=
  ((machine.attributes.lookup place).bind (·.mode)).getD (usualMode node)

def note (machine : Machine) (place : List Bytes) (attributes : Attributes) : Machine :=
  { machine with
    attributes := (place, attributes) :: machine.attributes.filter (·.1 != place) }

def touch (machine : Machine) (place : List Bytes) (time : Int) : Machine :=
  machine.note place ⟨(machine.attributes.lookup place).bind (·.mode), time⟩

def store (machine : Machine) (place : List Bytes) (node : FileNode) : Machine :=
  { machine with tree := machine.tree.put place node }.touch place machine.clock

/-- Takes away what lies at a place, with everything below it. -/
def erase (machine : Machine) (place : List Bytes) : Machine :=
  { machine with
    tree := ⟨machine.tree.nodes.filter fun entry => !place.isPrefixOf entry.1⟩
    attributes := machine.attributes.filter fun entry => !place.isPrefixOf entry.1 }

/-! ## Reading and writing -/

/-- How many bytes fit into a pipe. -/
def pipeRoom : Nat := 65536

def contentAt (machine : Machine) (place : List Bytes) : Bytes :=
  match machine.tree.node? place with
  | some (.file content _) => content
  | _ => []

def canRead (machine : Machine) (descriptor : Nat) : Bool :=
  match machine.channel? descriptor with
  | some (_, { endpoint := .intake pipe, .. }) =>
    !(machine.pipes[pipe]?.getD []).isEmpty || !machine.holds (.outlet pipe)
  | _ => true

def read (machine : Machine) (descriptor most : Nat) : Except FileCause Bytes × Machine :=
  match machine.channel? descriptor with
  | none => (.error .badDescriptor, machine)
  | some (number, channel) =>
    if !channel.readable then (.error .badDescriptor, machine)
    else match channel.endpoint with
      | .null | .collector | .outlet _ => (.ok [], machine)
      | .zeros | .full => (.ok (List.replicate most 0), machine)
      | .folder _ => (.error .isDirectory, machine)
      | .intake pipe =>
        let waiting := machine.pipes[pipe]?.getD []
        (.ok (waiting.take most),
          { machine with pipes := machine.pipes.modify pipe (·.drop most) })
      | .file place =>
        let bytes := ((machine.contentAt place).drop channel.offset).take most
        (.ok bytes, { machine with channels := machine.channels.modify number fun channel =>
          { channel with offset := channel.offset + bytes.length } })

def canWrite (machine : Machine) (descriptor : Nat) : Bool :=
  match machine.channel? descriptor with
  | some (_, { endpoint := .outlet pipe, .. }) =>
    decide ((machine.pipes[pipe]?.getD []).length < pipeRoom) || !machine.holds (.intake pipe)
  | _ => true

def overwrite (content : Bytes) (offset : Nat) (bytes : Bytes) : Bytes :=
  content.take offset ++ List.replicate (offset - content.length) 0 ++ bytes ++
    content.drop (offset + bytes.length)

/-- Writes to a descriptor. What a pipe has no room for is left. -/
def write (machine : Machine) (descriptor : Nat) (bytes : Bytes) : Except FileCause Bytes × Machine :=
  match machine.channel? descriptor with
  | none => (.error .badDescriptor, machine)
  | some (number, channel) =>
    if !channel.writable then (.error .badDescriptor, machine)
    else match channel.endpoint with
      | .null | .zeros => (.ok [], machine)
      | .full => (.error .noSpace, machine)
      | .intake _ | .folder _ => (.error .badDescriptor, machine)
      | .collector =>
        (.ok [], { machine with
          collected := (machine.now, bytes) :: machine.collected
          size := machine.size + bytes.length })
      | .outlet pipe =>
        if !machine.holds (.intake pipe) then
          (.error .brokenPipe, (machine.send pipeSignal machine.current).2)
        else
          let room := pipeRoom - (machine.pipes[pipe]?.getD []).length
          (.ok (bytes.drop room),
            { machine with pipes := machine.pipes.modify pipe (· ++ bytes.take room) })
      | .file place =>
        match machine.tree.node? place with
        | some (.file content executable) =>
          let offset := if channel.append then content.length else channel.offset
          let content := overwrite content offset bytes
          (.ok [], { machine.store place (.file content executable) with
            channels := machine.channels.modify number fun channel =>
              { channel with offset := offset + bytes.length } })
        | _ => (.ok [], machine)

end Machine

end ShellCompletion
