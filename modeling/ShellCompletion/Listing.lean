import ShellCompletion.Cache
import ShellCompletion.Candidate
import ShellCompletion.Environment
import ShellCompletion.Matching
import ShellCompletion.Path.Basic
import ShellCompletion.Quoting

/-!
# Directory listings

A token that is a path names a directory to read and the start of a name in it (`SplitToken`). The
entries that match become candidates: directories end in a slash, names are quoted where a shell
needs it. Listings are cached for two seconds under the normal spelling of their directory.
-/
namespace ShellCompletion

/-- What a directory entry is, once links are followed. -/
inductive EntryKind where
  | file
  | directory
  | executable
  | other
deriving DecidableEq, Repr

namespace EntryKind

def all : List EntryKind := [file, directory, executable, other]

def name : EntryKind → String
  | file => "file"
  | directory => "directory"
  | executable => "executable"
  | other => "other"

end EntryKind

/-- An entry of a directory. -/
structure Entry where
  name : Bytes
  kind : EntryKind
deriving DecidableEq, Repr

/-- The directories of a system. -/
structure DirectoryReader where
  /-- Lists a directory, or says why it cannot be read. -/
  read : Bytes → Except Bytes (List Entry)
  /-- The root that slashes alone name. -/
  rootOf : Bytes → Bytes

/-! ## Cached listings -/

/-- The listings known so far, and the directories read for them, in order. -/
structure Listings where
  cache : Cache (List Entry) := { timeToLive := 2000 }
  reads : List Bytes := []

namespace Listings

/-- The entries of a directory. It is read only if no fresh listing is known under its normal
    spelling. -/
def list (reader : DirectoryReader) (now : Int) (directory : Directory) :
    StateM Listings (Except Bytes (List Entry)) := fun listings =>
  let key := directory.key reader.rootOf
  match listings.cache.lookup now key with
  | (some entries, cache) => (.ok entries, { listings with cache })
  | (none, cache) =>
    let reads := listings.reads ++ [key]
    match reader.read key with
    | .error e => (.error e, { cache, reads })
    | .ok entries => (.ok entries, { cache := cache.store now key entries, reads })

end Listings

/-! ## Path tokens -/

/-- Which entries are wanted. Directories always are, since what is wanted may lie in them. -/
structure PathFilter where
  directoriesOnly : Bool := false
  executablesOnly : Bool := false
  /-- Plain files end in one of these; if there are none, any will do. -/
  extensions : List Bytes := []

/-- The extension as it ends a name: with a dot in front, unless it is empty. -/
def withDot (extension : Bytes) : Bytes :=
  if extension.isEmpty || extension.head? == some '.'.toUInt8 then extension
  else '.'.toUInt8 :: extension

namespace PathFilter

def passes (filter : PathFilter) (entry : Entry) : Bool :=
  if entry.kind = .directory then true
  else if filter.directoriesOnly then false
  else if filter.executablesOnly && entry.kind != .executable then false
  else filter.extensions.isEmpty ||
    filter.extensions.any (fun extension => Bytes.endsWith entry.name (withDot extension))

end PathFilter

/-- A path token taken apart. -/
structure SplitToken where
  /-- The directory as typed, with the slash after it; empty if the token has none. -/
  display : Bytes
  /-- The directory to read. -/
  directory : Directory
  /-- The start of a name in it. -/
  namePart : Bytes
deriving DecidableEq, Repr

/-- Takes a token apart at its last slash, unquoted. A relative directory is looked for in
    `current`. -/
def SplitToken.of (env : Environment) (current token : Bytes) : SplitToken :=
  let plain := unquote token
  let display := Bytes.throughLast Path.slash plain
  { display
    directory := if display.isEmpty then .ofPath current
      else (Directory.ofPath current).append (env.expandTilde display)
    namePart := Bytes.afterLast Path.slash plain }

/-- The text that is typed for a name: quoted if needed, but a tilde and slash at the front stay
    bare so that the shell expands them. -/
def pathText (display name : Bytes) (isDirectory : Bool) : Bytes :=
  let tail := name ++ if isDirectory then [Path.slash] else []
  if (utf8 "~/").isPrefixOf display then utf8 "~/" ++ quoteIfNeeded (display.drop 2 ++ tail)
  else quoteIfNeeded (display ++ tail)

def Entry.isShown (settings : Settings) (namePart : Bytes) (entry : Entry) : Bool :=
  (settings.showHiddenFiles || namePart.head? == some '.'.toUInt8 ||
    entry.name.head? != some '.'.toUInt8) && settings.accepts entry.name namePart

/-- The category of an entry's candidate. -/
def EntryKind.category : EntryKind → Category
  | .directory => .directory
  | .executable => .executable
  | .file | .other => .file

def Entry.candidate (display : Bytes) (entry : Entry) : Candidate :=
  .of entry.kind.category (pathText display entry.name (entry.kind == .directory))

/-- The candidates among the entries of the token's directory. -/
def SplitToken.candidates (settings : Settings) (filter : PathFilter) (split : SplitToken)
    (entries : List Entry) : List Candidate :=
  (entries.filter fun entry => entry.isShown settings split.namePart && filter.passes entry).map
    (Entry.candidate split.display)

/-- What paths are completed with: the settings, the environment, a way to read directories, and the
    time. -/
structure PathContext where
  settings : Settings
  environment : Environment
  reader : DirectoryReader
  now : Int

/-- The candidates for a path token. A directory that cannot be read has none. -/
def pathCandidates (context : PathContext) (filter : PathFilter) (current token : Bytes) :
    StateM Listings (List Candidate) := do
  let split := SplitToken.of context.environment current token
  match ← Listings.list context.reader context.now split.directory with
  | .error _ => return []
  | .ok entries => return split.candidates context.settings filter entries

/-- The first entry whose path as typed extends the input, for callers that want one answer. A
    leading `./` of the entry's path may be left out. -/
def pathExtension (env : Environment) (reader : DirectoryReader) (current input : Bytes) :
    Option Bytes :=
  if input.isEmpty || input.getLast? == some Path.slash then none
  else
    let split := SplitToken.of env current input
    match reader.read split.directory.path with
    | .error _ => none
    | .ok entries => entries.findSome? fun entry =>
      let display := split.display ++ entry.name
      if input.isPrefixOf display then some display
      else if (utf8 "./").isPrefixOf display && input.isPrefixOf (display.drop 2) then
        some (display.drop 2)
      else none

/-! ## Executables -/

/-- The executable entries of listed directories whose names match, each name from the first
    directory that has it. -/
def executablesIn (settings : Settings) (env : Environment) (typed : Bytes)
    (found : List (Bytes × List Entry)) : List Candidate :=
  let all := found.flatMap fun (directory, entries) =>
    (entries.filter fun entry =>
      entry.kind == .executable && settings.accepts entry.name typed).map fun entry =>
        Candidate.of .executable entry.name (some (env.contractHome directory))
  all.foldl (fun kept new => if kept.any (·.text = new.text) then kept else kept ++ [new]) []

/-- Reads the directories in order; those that cannot be read are left out. -/
def listAll (context : PathContext) : List Bytes → StateM Listings (List (Bytes × List Entry))
  | [] => pure []
  | directory :: rest => do
    let entries ← Listings.list context.reader context.now (.ofPath directory)
    let more ← listAll context rest
    return (entries.toOption.map ((directory, ·))).toList ++ more

/-- The executables of the directories whose names match what has been typed. -/
def executableCandidates (context : PathContext) (typed : Bytes) (directories : List Bytes) :
    StateM Listings (List Candidate) := do
  let found ← listAll context directories
  return executablesIn context.settings context.environment typed found

end ShellCompletion
