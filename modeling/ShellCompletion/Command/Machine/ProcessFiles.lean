import ShellCompletion.Command.Machine.Basic

/-!
# The files that tell about processes

Each process has a directory below `/proc`: what it was started with, the links to its program, its
directory and its channels, and what state it is in. These files are made up from the processes when
they are looked at. A pipe is reached over the link of a descriptor that leads to it; its name tells
its number.
-/
namespace ShellCompletion.Machine

/-- The number by which files know a pipe; the collected output goes to the first one. -/
def pipeMark : Endpoint → Option Nat
  | .collector => some 0
  | .intake pipe | .outlet pipe => some (pipe + 1)
  | _ => none

def pipeName (mark : Nat) : Bytes := utf8 "pipe:[" ++ Bytes.decimal (20000 + mark) ++ utf8 "]"

def pathOf (place : List Bytes) : Bytes :=
  if place.isEmpty then [Path.slash] else place.flatMap (Path.slash :: ·)

/-- What the link of a descriptor says. -/
def targetOf (endpoint : Endpoint) : Bytes :=
  match endpoint with
  | .null => utf8 "/dev/null"
  | .zeros => utf8 "/dev/zero"
  | .full => utf8 "/dev/full"
  | .collector | .intake _ | .outlet _ => pipeName ((pipeMark endpoint).getD 0)
  | .file place | .folder place => pathOf place

/-- The name of the program, cut to the length that is kept. -/
def Startup.shortName (startup : Startup) : Bytes := (Path.fileName startup.name).take 15

/-- What is told about the state of a process, line by line. -/
def statusLines (process : Process) : List (String × Bytes) :=
  let four : Bytes := utf8 "0\t0\t0\t0"
  [("Name", Startup.shortName process.startup), ("Umask", utf8 "0022"),
   ("State", utf8 (if process.stopped then "T (stopped)" else
      if process.wake.isSome then "S (sleeping)" else "R (running)")),
   ("Tgid", Bytes.decimal process.number), ("Ngid", utf8 "0"), ("Pid", Bytes.decimal process.number),
   ("PPid", Bytes.decimal process.parent), ("TracerPid", utf8 "0"), ("Uid", four), ("Gid", four)]

/-- The files of a process, by the names below its directory. -/
def filesOf (machine : Machine) (process : Process) : List (List Bytes × FileNode) :=
  let file (content : Bytes) : FileNode := .file content false
  let startup := process.startup
  let ended (texts : List Bytes) : Bytes := texts.flatMap (· ++ [0])
  let status := (statusLines process).flatMap fun (name, value) =>
    utf8 name ++ utf8 ":\t" ++ value ++ [10]
  let brief := Bytes.decimal process.number ++ utf8 " (" ++ Startup.shortName startup ++ utf8 ") R " ++
    Bytes.decimal process.parent ++ [10]
  let links := process.descriptors.filterMap fun (descriptor, channel) =>
    (machine.channels[channel]?).map fun channel => (descriptor, channel.endpoint)
  let descriptors := links.map fun (descriptor, endpoint) =>
    ([utf8 "fd", Bytes.decimal descriptor], FileNode.link (targetOf endpoint))
  let pipes := (links.filterMap fun link => pipeMark link.2).map fun mark =>
    ([utf8 "fd", pipeName mark], FileNode.pipe)
  [([], .directory), ([utf8 "comm"], file (Startup.shortName startup ++ [10])),
   ([utf8 "cmdline"], file (ended startup.words)),
   ([utf8 "environ"], file (ended (startup.environment.entries.map fun entry =>
      entry.1 ++ utf8 "=" ++ entry.2))),
   ([utf8 "exe"], .link (pathOf startup.program)), ([utf8 "cwd"], .link startup.directory),
   ([utf8 "root"], .link [Path.slash]), ([utf8 "status"], file status),
   ([utf8 "stat"], file brief), ([utf8 "fd"], .directory)] ++ descriptors ++ pipes

def processesPlace : List Bytes := [utf8 "proc"]

def placeOf (number : Nat) : List Bytes := processesPlace ++ [Bytes.decimal number]

/-- The files that tell about processes, seen by the one that runs. -/
def processFiles (machine : Machine) : List (List Bytes × FileNode) :=
  let processes := machine.processes.filter (·.ending.isNone)
  let own := processes.flatMap fun process =>
    (machine.filesOf process).map fun (names, node) => (placeOf process.number ++ names, node)
  let device (name : String) (target : String) : List Bytes × FileNode :=
    ([utf8 "dev", utf8 name], .link (utf8 target))
  [(processesPlace, FileNode.directory),
   (processesPlace ++ [utf8 "self"], .link (Bytes.decimal machine.current)),
   device "fd" "/proc/self/fd", device "stdin" "/proc/self/fd/0", device "stdout" "/proc/self/fd/1",
   device "stderr" "/proc/self/fd/2"] ++ own

def files (machine : Machine) : FileTree := ⟨machine.processFiles ++ machine.tree.nodes⟩

/-- The descriptor of a process that a place tells about, and whether that is the pipe it leads to:
    the channel that the process has there. -/
def channelAt? (machine : Machine) (place : List Bytes) : Option Endpoint :=
  match place with
  | [_, number, _, name] => do
    let process ← machine.process? (Bytes.digitsValue number)
    process.descriptors.findSome? fun (_, channel) => do
      let channel ← machine.channels[channel]?
      let mark ← pipeMark channel.endpoint
      if pipeName mark = name then some channel.endpoint else none
  | _ => none

end ShellCompletion.Machine
