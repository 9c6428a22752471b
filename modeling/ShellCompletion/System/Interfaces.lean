import ShellCompletion.Candidate
import ShellCompletion.FileTree
import ShellCompletion.Matching

/-!
# Network interfaces

The interfaces of a machine are the directories in `/sys/class/net`. Physical ones are listed first,
then wireless ones, others, virtual ones, and the loopback last.
-/
namespace ShellCompletion

inductive InterfaceType where
  | ethernet
  | wireless
  | loopback
  | other
deriving DecidableEq, Repr

namespace InterfaceType

def all : List InterfaceType := [ethernet, wireless, loopback, other]

def name : InterfaceType → String
  | ethernet => "ethernet"
  | wireless => "wireless"
  | loopback => "loopback"
  | other => "other"

end InterfaceType

structure Interface where
  name : Bytes
  type : InterfaceType
  /-- The state of its link. -/
  state : Bytes
deriving DecidableEq, Repr

namespace Interface

/-- How the names of virtual interfaces start. -/
def virtualNames : List Bytes :=
  [utf8 "docker", utf8 "br-", utf8 "veth", utf8 "virbr", utf8 "tun", utf8 "tap"]

/-- Interfaces of a lower rank are listed first. -/
def rank (name : Bytes) (type : InterfaceType) : Nat :=
  if type = .loopback ∨ name = utf8 "lo" then 4
  else if virtualNames.any (·.isPrefixOf name) then 3
  else if type = .wireless ∨ (utf8 "wl").isPrefixOf name then 1
  else if (utf8 "eth").isPrefixOf name ∨ (utf8 "en").isPrefixOf name then 0
  else 2

/-- `a` is not listed after `b`: by rank, then by name. -/
def le (a b : Interface) : Bool :=
  let rankA := rank a.name a.type
  let rankB := rank b.name b.type
  if rankA ≠ rankB then rankA < rankB else Bytes.le a.name b.name

/-- The content of a small file without the blanks around it; empty if it cannot be read. -/
def readTrimmed (tree : FileTree) (path : Bytes) : Bytes :=
  ((tree.read [] path).toOption.map Bytes.trim).getD []

def read (tree : FileTree) (directory name : Bytes) : Interface :=
  let place := Path.append directory name
  let state := readTrimmed tree (Path.append place (utf8 "operstate"))
  let type := readTrimmed tree (Path.append place (utf8 "type"))
  { name
    state := if state.isEmpty then utf8 "unknown" else state
    type :=
      if type = utf8 "1" then
        if tree.isDirectory [] (Path.append place (utf8 "wireless")) then .wireless else .ethernet
      else if type = utf8 "772" then .loopback
      else .other }

/-- The interfaces of a machine whose files lie below `root`. -/
def all (tree : FileTree) (root : Bytes) : Except FileError (List Interface) := do
  let directory := Path.append root (utf8 "sys/class/net")
  let entries ← tree.list [] directory
  let names := (entries.filter (·.kind == .directory)).map Entry.name
  return (names.map (read tree directory)).mergeSort le

/-- The interfaces whose names match the token. -/
def candidates (settings : Settings) (token : Bytes) (interfaces : List Interface) :
    List Candidate :=
  (interfaces.filter fun i => settings.accepts i.name token).map fun i =>
    .of .argument i.name (some (utf8 i.type.name ++ utf8 " (" ++ i.state ++ utf8 ")"))

end Interface

end ShellCompletion
