import ShellCompletion.System.Accounts
import ShellCompletion.System.Interfaces

/-!
# System tables

The tables of users, groups, network interfaces and processes of a machine, read from its files and
each kept in a cache of its own.
-/
namespace ShellCompletion

/-- A running process. -/
structure ProcessEntry where
  pid : Int32
  command : Bytes
deriving DecidableEq, Repr

namespace ProcessEntry

/-- The processes of a machine whose files lie below `root`, by number: the directories in `proc`
    whose names are numbers and whose command can be read. Of a number the lower 32 bits count. -/
def all (tree : FileTree) (root : Bytes) : Except FileError (List ProcessEntry) := do
  let directory := Path.append root (utf8 "proc")
  let entries ← tree.list [] directory
  let processes := entries.filterMap fun entry =>
    if entry.kind = .directory then
      match Account.number? entry.name with
      | none => none
      | some number =>
        let command := Interface.readTrimmed tree
          (Path.append (Path.append directory entry.name) (utf8 "comm"))
        if command.isEmpty then none else some ⟨Int32.ofNat number, command⟩
    else none
  return processes.mergeSort (fun a b => a.pid ≤ b.pid)

/-- The processes whose number starts with a token of digits, or whose command matches any other
    token. -/
def candidates (settings : Settings) (token : Bytes) (processes : List ProcessEntry) :
    List Candidate :=
  (processes.filter fun process =>
    if Bytes.allDigits token then token.isPrefixOf (Bytes.decimalInt process.pid.toInt)
    else settings.accepts process.command token).map fun process =>
    .of .process (Bytes.decimalInt process.pid.toInt) (some process.command)

end ProcessEntry

/-- The tables known so far. -/
structure SystemTables where
  users : Cache (List User) := { timeToLive := 5000 }
  groups : Cache (List Group) := { timeToLive := 5000 }
  interfaces : Cache (List Interface) := { timeToLive := 2000 }
  processes : Cache (List ProcessEntry) := { timeToLive := 1000 }

/-- The files of a machine, those below `root`. -/
structure SystemFiles where
  tree : FileTree
  root : Bytes

namespace SystemTables

/-- The rows of a table; none if it cannot be read. -/
def rows {α : Type} (result : Except FileError (List α)) : List α := result.toOption.getD []

def userCandidates (settings : Settings) (files : SystemFiles) (now : Int) (token : Bytes) :
    StateM SystemTables (List Candidate) := fun tables =>
  let (users, cache) := tables.users.load now (utf8 "passwd") fun _ =>
    (files.tree.read [] (Path.append files.root (utf8 "etc/passwd"))).map usersOf
  (ShellCompletion.userCandidates settings.includeSystemUsers token (rows users),
    { tables with users := cache })

def groupCandidates (files : SystemFiles) (now : Int) (token : Bytes) :
    StateM SystemTables (List Candidate) := fun tables =>
  let (groups, cache) := tables.groups.load now (utf8 "group") fun _ =>
    (files.tree.read [] (Path.append files.root (utf8 "etc/group"))).map groupsOf
  (ShellCompletion.groupCandidates token (rows groups), { tables with groups := cache })

def interfaceCandidates (settings : Settings) (files : SystemFiles) (now : Int) (token : Bytes) :
    StateM SystemTables (List Candidate) := fun tables =>
  let (interfaces, cache) := tables.interfaces.load now (utf8 "net") fun _ =>
    Interface.all files.tree files.root
  (Interface.candidates settings token (rows interfaces), { tables with interfaces := cache })

def processCandidates (settings : Settings) (files : SystemFiles) (now : Int) (token : Bytes) :
    StateM SystemTables (List Candidate) := fun tables =>
  let (processes, cache) := tables.processes.load now (utf8 "proc") fun _ =>
    ProcessEntry.all files.tree files.root
  (ProcessEntry.candidates settings token (rows processes), { tables with processes := cache })

end SystemTables

end ShellCompletion
