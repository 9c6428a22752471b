import ShellCompletion.Command.Perl.Starting
import ShellCompletion.Command.Shell.Starting
import ShellCompletion.Command.Utility.Comparing
import ShellCompletion.Command.Utility.Computing
import ShellCompletion.Command.Utility.Cutting
import ShellCompletion.Command.Utility.Dates
import ShellCompletion.Command.Utility.Editing
import ShellCompletion.Command.Utility.Encoding
import ShellCompletion.Command.Utility.Files
import ShellCompletion.Command.Utility.Finding
import ShellCompletion.Command.Utility.Layout
import ShellCompletion.Command.Utility.Listing
import ShellCompletion.Command.Utility.Processes
import ShellCompletion.Command.Utility.Quantities
import ShellCompletion.Command.Utility.Scanning
import ShellCompletion.Command.Utility.Searching
import ShellCompletion.Command.Utility.Sorting
import ShellCompletion.Command.Utility.Text
import ShellCompletion.Command.Utility.Translating

/-!
# Programs

What is run when a file is. A file of a standard program holds a mark and the name of the program. The
first line of another one may ask for a program that reads it; without such a line it is a script.
-/
namespace ShellCompletion.Program

/-! ## The standard programs -/

def utilities : List (String × Utility) :=
  Utility.textual ++ Utility.searching ++ Utility.editing ++ Utility.computing ++ Utility.filing ++
    Utility.processing ++ Utility.sorting ++ Utility.translating ++
    Utility.layingOut ++ Utility.dating ++ Utility.encoding ++ Utility.finding ++ Utility.listings ++ Utility.comparing ++
    Utility.scanning ++ Utility.counting ++ Utility.cutting ++ Perl.programs

def shells : List String := ["dash", "bash"]

/-- What the file of a standard program starts with. -/
def mark : Bytes := [127, 69, 76, 70, 2, 1, 1, 0, 0, 0, 0, 0, 0, 0, 0, 0]

def programLinks : List (String × String) :=
  [("/bin", "usr/bin"), ("/sbin", "usr/sbin"), ("/lib", "usr/lib"), ("/usr/bin/sh", "dash"),
   ("/usr/bin/awk", "/etc/alternatives/awk"), ("/usr/bin/nawk", "/etc/alternatives/nawk"),
   ("/etc/alternatives/awk", "/usr/bin/mawk"), ("/etc/alternatives/nawk", "/usr/bin/mawk")]

/-- The tree with the files that are always there, as far as it has none in their places. -/
def complete (tree : FileTree) : FileTree :=
  let standard := (shells ++ utilities.map Prod.fst).map fun name =>
    (utf8 "/usr/bin/" ++ utf8 name, FileNode.file (mark ++ utf8 name) true)
  let devices := ("tty" :: Machine.devices.map Prod.fst).map fun name =>
    (utf8 "/dev/" ++ utf8 name, FileNode.pipe)
  let links := programLinks.map fun (name, target) => (utf8 name, FileNode.link (utf8 target))
  let tree := (standard ++ devices ++ links).foldl (fun tree (path, node) =>
    if tree.exists? [Path.slash] path then tree else tree.add path node) tree
  ["/etc", "/home", "/opt", "/root", "/tmp", "/usr/lib", "/usr/local/bin", "/usr/sbin", "/var/tmp"].foldl
    (fun tree path => tree.addDirectory (utf8 path)) tree

/-! ## Files that can be run -/

/-- How much of a file is looked at. -/
def startLength : Nat := 256

def isGap (c : UInt8) : Bool := c == 32 || c == 9

/-- The interpreter that the first line of a file asks for, and the argument that it gives it. -/
def interpreter? (content : Bytes) : Option (Bytes × Option Bytes) :=
  if !(utf8 "#!").isPrefixOf content then none
  else
    let start := content.take startLength
    let isWhole := start.contains 10 || content.length < startLength
    let line := if start.contains 10 then (Bytes.before 10 start).drop 2
      else (start.take (startLength - 1)).drop 2
    let text := (line.reverse.dropWhile isGap).reverse.dropWhile isGap
    let name := text.takeWhile fun c => !isGap c && c != 0
    let cut := !isWhole && name.length == (line.dropWhile isGap).length
    let rest := text.drop name.length
    let argument := if rest.head?.any isGap then Bytes.untilNul (rest.dropWhile isGap) else []
    if name.isEmpty || cut then none
    else some (name, if argument.isEmpty then none else some argument)

/-- A standard program and where it lies. -/
structure Found where
  name : Bytes
  place : List Bytes
  /-- The words that it is run with. -/
  words : List Bytes

/-- The standard program that is run with some words when a file is; none if the file says nothing
    about that. `depth` bounds the interpreters that are scripts themselves. -/
def resolve (tree : FileTree) (directory : Bytes) : (depth : Nat) → (path : Bytes) →
    (words : List Bytes) → Except FileCause (Option Found)
  | 0, _, _ => .error .tooManyLinks
  | depth + 1, path, words => do
    let place ← tree.locate directory path
    match tree.node? place with
    | some (.file content true) =>
      if mark.isPrefixOf content then return some ⟨content.drop mark.length, place, words⟩
      else match interpreter? content with
        | none => return none
        | some (name, argument) =>
          resolve tree directory depth name (name :: argument.toList ++ path :: words.drop 1)
    | _ => .error .denied

/-- How many files may ask for one another. -/
def maxDepth : Nat := 6

def shellPath : Bytes := utf8 "/bin/sh"

/-- A process whose place a program takes: the descriptors that shells keep for themselves are closed,
    and no signal is caught any longer. -/
def leave (startup : Startup) (machine : Machine) : Machine :=
  (machine.update machine.current fun process =>
    { process with
      descriptors := process.descriptors.filter (·.1 < Act.ownDescriptors), caught := [], startup }).settle

/-- Lets the program of a file take the place of the process. `fuel` bounds how often. -/
def launch : (fuel : Nat) → Launch
  | 0 => fun _ _ _ _ => return .denied
  | fuel + 1 => fun directory environment path words => do
    let tree ← Act.look (·.files)
    match resolve tree directory maxDepth path words with
    | .error cause => return cause
    | .ok found =>
      let shell : Found :=
        ⟨utf8 "dash", Path.names (utf8 "/usr/bin/dash"), shellPath :: path :: words.drop 1⟩
      let program := found.getD shell
      let name := if found.isSome then path else shellPath
      Act.change fun machine =>
        leave { name, words := program.words, environment, program := program.place, directory } machine
      match utilities.find? fun entry => utf8 entry.1 == program.name with
      | some (_, utility) =>
        Act.exit (← utility
          { name := program.words.headD [], arguments := program.words.drop 1, environment, directory
            launch := launch fuel })
      | none =>
        let extended := program.name == utf8 "bash"
        Act.exit (← Shell.run (launch fuel) extended directory environment program.words)

end ShellCompletion.Program
