import ShellCompletion.Environment
import ShellCompletion.FileTree
import ShellCompletion.Json.Reader

/-!
# Surroundings

What the program may see of the machine: variables, files, the current directory and the time. They
are given by a JSON document, which has the members

* `directory`: the current directory, which is the root if it is missing,
* `epoch`: the seconds since 1970, zero if they are missing,
* `environment`: an object with the variables and their values,
* `files`: an array of objects, each with a `path` and a `kind`. The kind is `file`, which is meant
  if none is given, `executable`, `directory`, `pipe` or `link`. Files have a `content`, which may be
  empty or missing, and links have a `target`.
-/
namespace ShellCompletion

/-- What the program may see of the machine. -/
structure Surroundings where
  environment : Environment := { entries := [] }
  tree : FileTree := .empty
  /-- The current directory. -/
  directory : Bytes := [Path.slash]
  /-- Seconds since 1970. -/
  epoch : Int := 0

namespace Surroundings

/-- The path of the current directory, in which no link stands for another directory. -/
def currentDirectory (surroundings : Surroundings) : Bytes :=
  surroundings.tree.physicalPath surroundings.directory

/-- The tree with the file that a document describes. -/
def addFile? (tree : FileTree) (file : Json) : Option FileTree := do
  let path ← (file.member? (utf8 "path")).bind Json.string?
  let text (name : String) : Bytes := ((file.member? (utf8 name)).bind Json.string?).getD []
  let kind := text "kind"
  if kind = utf8 "directory" then return tree.addDirectory path
  else if kind = utf8 "pipe" then return tree.add path .pipe
  else if kind = utf8 "link" then return tree.add path (.link (text "target"))
  else if kind = utf8 "executable" then return tree.add path (.file (text "content") true)
  else if kind = utf8 "file" ∨ kind = [] then return tree.add path (.file (text "content") false)
  else none

/-- The variable that a member sets. -/
def ofMember? (member : Bytes × Json) : Option (Bytes × Bytes) :=
  member.2.string?.map fun value => (member.1, value)

/-- The surroundings that a document describes; none if a part of it is of the wrong kind. -/
def ofDocument? (document : Json) : Option Surroundings := do
  let entries ← match document.value? (utf8 "environment") with
    | none => some []
    | some (.object members) => members.mapM ofMember?
    | some _ => none
  let directory ← match document.value? (utf8 "directory") with
    | none => some [Path.slash]
    | some value => value.string?
  let epoch ← match document.value? (utf8 "epoch") with
    | none => some 0
    | some (.integer seconds) => some seconds
    | some _ => none
  let files ← match document.value? (utf8 "files") with
    | none => some []
    | some value => value.items?
  let tree ← files.foldlM addFile? FileTree.empty
  return { environment := { entries }, tree, directory, epoch }

/-- The surroundings that a text describes; bare ones if it is blank. -/
def ofText? (text : Bytes) : Option Surroundings :=
  if text.all Bytes.isSpace then some {} else (Json.parse? text).bind ofDocument?

end Surroundings

end ShellCompletion
