import ShellCompletion.Command.Machine.ProcessFiles

/-!
# Opening files

A path leads to a channel: to what a file holds, to one end of a pipe, or to a device. What is written
to a path that leads nowhere makes a file there.
-/
namespace ShellCompletion.Machine

def parentPlace (machine : Machine) (directory path : Bytes) :
    Except FileCause (List Bytes × Bytes) := do
  if path.isEmpty then .error .notFound
  let name := Path.fileName (Path.dropSlashes path)
  let above := Bytes.throughLast Path.slash (Path.dropSlashes path)
  let tree := machine.files
  let place ← tree.locate directory (if above.isEmpty then Path.dot else above)
  if tree.node? place ≠ some .directory then .error .notDirectory
  else if FileTree.maxName < name.length then .error .nameTooLong
  else return (place, name)

def devices : List (String × Endpoint) :=
  [("null", .null), ("zero", .zeros), ("full", .full), ("random", .zeros), ("urandom", .zeros)]

/-- Where a path leads that a file is to be made at: past links whose target is not there yet. -/
def targetPlace (machine : Machine) (directory path : Bytes) : Except FileCause (List Bytes) := do
  let rec follow : (links : Nat) → List Bytes → Bytes → Except FileCause (List Bytes)
    | 0, _, _ => .error .tooManyLinks
    | links + 1, place, name =>
      match machine.tree.node? (place ++ [name]) with
      | some (.link target) => do
        let (place, name) ← machine.parentPlace (pathOf place) target
        follow links place name
      | _ => .ok (place ++ [name])
  let (place, name) ← machine.parentPlace directory path
  follow FileTree.maxLinks place name

/-- The end of a pipe that is reached over either of its ends. -/
def endOf (writes : Bool) : Endpoint → Endpoint
  | .intake pipe | .outlet pipe => if writes then .outlet pipe else .intake pipe
  | other => other

def openPlace (machine : Machine) (mode : OpenMode) (place : List Bytes) (node : FileNode) :
    Except FileCause (Nat × Machine) :=
  let readable := mode = .read || mode = .readWrite
  let writable := mode.writes
  let add (channel : Channel) : Except FileCause (Nat × Machine) := .ok (machine.addChannel channel)
  let isOwn := processesPlace.isPrefixOf place
  match node with
  | .directory => if writable then .error .isDirectory else add { endpoint := .folder place }
  | .link _ => .error .notFound
  | .pipe =>
    match place, machine.channelAt? place with
    | [_, name], _ =>
      match devices.find? (utf8 ·.1 = name) with
      | some (_, endpoint) => add { endpoint, readable, writable }
      | none => .error .noDevice
    | _, some endpoint => add { endpoint := endOf writable endpoint, readable, writable }
    | _, none =>
      let (pipe, machine) := match machine.namedPipes.lookup place with
        | some pipe => (pipe, machine)
        | none =>
          let (pipe, machine) := machine.addPipe
          (pipe, { machine with namedPipes := (place, pipe) :: machine.namedPipes })
      let endpoint := if writable then Endpoint.outlet pipe else .intake pipe
      .ok (machine.addChannel { endpoint, readable, writable })
  | .file content executable =>
    if mode = .fresh then .error .occupied
    else if isOwn then
      if writable then .error .denied
      else
        let (pipe, machine) := machine.addPipe
        let machine := { machine with pipes := machine.pipes.set! pipe content }
        .ok (machine.addChannel { endpoint := .intake pipe, writable := false })
    else
      let machine := if mode = .write then machine.store place (.file [] executable) else machine
      .ok (machine.addChannel { endpoint := .file place, readable, writable, append := mode = .append })

/-- Opens a path, seen from a directory. The number of the channel comes first. -/
def openPath (machine : Machine) (directory path : Bytes) (mode : OpenMode) :
    Except FileCause (Nat × Machine) :=
  let tree := machine.files
  match tree.locate directory path with
  | .ok place =>
    match tree.node? place with
    | some node => machine.openPlace mode place node
    | none => .error .notFound
  | .error .notFound =>
    if mode = .read then .error .notFound
    else if path.getLast? = some Path.slash then .error .isDirectory
    else do
      let place ← machine.targetPlace directory path
      if processesPlace.isPrefixOf place then .error .notFound
      return (machine.store place (.file [] false)).addChannel
        { endpoint := .file place, readable := mode = .readWrite, append := mode = .append }
  | .error cause => .error cause

/-- A channel to one end of a named pipe that nobody holds the other end of. -/
def isAlone (machine : Machine) (channel : Nat) : Bool :=
  let isNamed (pipe : Nat) : Bool := machine.namedPipes.any (·.2 = pipe)
  match machine.channels[channel]? with
  | some { endpoint := .intake pipe, .. } => isNamed pipe && !machine.holds (.outlet pipe)
  | some { endpoint := .outlet pipe, .. } => isNamed pipe && !machine.holds (.intake pipe)
  | _ => false

end ShellCompletion.Machine
