import ShellCompletion.Listing

/-!
# File trees

A file tree holds files, directories, links and pipes under the absolute names of their places.
Paths lead to places as in a POSIX file system: links are followed, dots name a directory itself
and the one above it, and a slash at the end asks for a directory.
-/
namespace ShellCompletion

/-- What a place in a file tree holds. -/
inductive FileNode where
  | file (content : Bytes) (executable : Bool)
  | directory
  /-- A link to the target, seen from the directory it lies in. -/
  | link (target : Bytes)
  /-- A named pipe. -/
  | pipe
deriving DecidableEq, Repr

/-- Why a path leads nowhere, or to something of the wrong kind. -/
inductive FileCause where
  | notFound
  | notDirectory
  | isDirectory
  | occupied
  | tooManyLinks
  | nameTooLong
  | denied
  | notEmpty
  /-- What is written has no reader. -/
  | brokenPipe
  /-- A descriptor that is not open in the way that it is used. -/
  | badDescriptor
  /-- A device that is not there. -/
  | noDevice
  | noSpace
deriving DecidableEq, Repr

namespace FileCause

def message : FileCause → String
  | notFound => "No such file or directory"
  | notDirectory => "Not a directory"
  | isDirectory => "Is a directory"
  | occupied => "File exists"
  | tooManyLinks => "Too many levels of symbolic links"
  | nameTooLong => "File name too long"
  | denied => "Permission denied"
  | notEmpty => "Directory not empty"
  | brokenPipe => "Broken pipe"
  | badDescriptor => "Bad file descriptor"
  | noDevice => "No such device or address"
  | noSpace => "No space left on device"

end FileCause

/-- A failed operation on a file, with the path it was asked for. -/
inductive FileError where
  | cannotOpen (path : Bytes) (cause : FileCause)
  | cannotRead (path : Bytes) (cause : FileCause)
  | cannotList (path : Bytes) (cause : FileCause)
deriving DecidableEq, Repr

namespace FileError

def message : FileError → Bytes
  | cannotOpen path cause => utf8 "Failed to open file '" ++ path ++ utf8 "': " ++ utf8 cause.message
  | cannotRead path cause =>
    utf8 "Failed to read from file '" ++ path ++ utf8 "': " ++ utf8 cause.message
  | cannotList path cause =>
    utf8 "Failed to list directory '" ++ path ++ utf8 "': " ++ utf8 cause.message

end FileError

/-- Nodes by place. A place is the list of names that leads to it from the root, which is always a
    directory. -/
structure FileTree where
  nodes : List (List Bytes × FileNode)
deriving Repr

namespace FileTree

def empty : FileTree := ⟨[]⟩

/-- What lies at a place. -/
def node? (tree : FileTree) (place : List Bytes) : Option FileNode :=
  if place.isEmpty then some .directory else tree.nodes.lookup place

/-! ## Paths to places -/

/-- The longest name that a directory entry can have, and the length that a path does not reach. -/
def maxName : Nat := 255
def maxPath : Nat := 4096

/-- How many links are followed on the way to one place. -/
def maxLinks : Nat := 40

/-- Follows names from a place. A name is looked up only in a directory; an empty one, as after a
    slash at the end, stays there. `links` bounds the links that may still be followed. -/
def walk (tree : FileTree) (links : Nat) (place : List Bytes) :
    List Bytes → Except FileCause (List Bytes)
  | [] => .ok place
  | name :: rest =>
    if tree.node? place ≠ some .directory then .error .notDirectory
    else if name.isEmpty || name == Path.dot then walk tree links place rest
    else if name = Path.dotDot then walk tree links place.dropLast rest
    else if maxName < name.length then .error .nameTooLong
    else match tree.node? (place ++ [name]) with
      | none => .error .notFound
      | some (.link target) =>
        if _positive : 0 < links then
          walk tree (links - 1) (if Path.isAbsolute target then [] else place)
            (Path.parts target ++ rest)
        else .error .tooManyLinks
      | some _ => walk tree links (place ++ [name]) rest
termination_by names => (links, names.length)

/-- The place that a path leads to, seen from the directory `base`. A path ends at a NUL byte. -/
def locate (tree : FileTree) (base path : Bytes) : Except FileCause (List Bytes) :=
  let path := Bytes.untilNul path
  if path.isEmpty then .error .notFound
  else if maxPath ≤ path.length then .error .nameTooLong
  else if Path.isAbsolute path then tree.walk maxLinks [] (Path.parts path)
  else do
    let start ← tree.walk maxLinks [] (Path.parts base)
    tree.walk maxLinks start (Path.parts path)

/-- What a path leads to, links followed. -/
def find? (tree : FileTree) (base path : Bytes) : Except FileCause FileNode := do
  let place ← tree.locate base path
  match tree.node? place with
  | none => .error .notFound
  | some node => .ok node

def isDirectory (tree : FileTree) (base path : Bytes) : Bool :=
  match tree.find? base path with
  | .ok .directory => true
  | _ => false

/-- A path leads somewhere. -/
def exists? (tree : FileTree) (base path : Bytes) : Bool :=
  match tree.find? base path with
  | .ok _ => true
  | .error _ => false

/-- A path leads to a file that may be run. -/
def isExecutable (tree : FileTree) (base path : Bytes) : Bool :=
  match tree.find? base path with
  | .ok (.file _ executable) => executable
  | _ => false

/-- The path of the directory `base` without links and dots; the root if there is no such
    directory. -/
def physicalPath (tree : FileTree) (base : Bytes) : Bytes :=
  match tree.walk maxLinks [] (Path.parts base) with
  | .ok (name :: rest) => (name :: rest).flatMap (Path.slash :: ·)
  | _ => [Path.slash]

/-! ## Reading -/

/-- The content of a file. -/
def read (tree : FileTree) (base path : Bytes) : Except FileError Bytes :=
  match tree.find? base path with
  | .error cause => .error (.cannotOpen path cause)
  | .ok .directory => .error (.cannotRead path .isDirectory)
  | .ok (.file content _) => .ok content
  | .ok _ => .ok []

def namesIn (tree : FileTree) (place : List Bytes) : List Bytes :=
  tree.nodes.filterMap fun (other, _) =>
    if other.dropLast = place then other.getLast? else none

/-- What the entry of that name in the directory at a place is, links followed. -/
def kindOf (tree : FileTree) (place : List Bytes) (name : Bytes) : EntryKind :=
  match tree.walk maxLinks place [name] with
  | .error _ => .other
  | .ok target =>
    match tree.node? target with
    | some .directory => .directory
    | some (.file _ executable) => if executable then .executable else .file
    | _ => .other

/-- The entries of a directory, sorted by name. -/
def list (tree : FileTree) (base path : Bytes) : Except FileError (List Entry) :=
  match tree.locate base path with
  | .error cause => .error (.cannotList path cause)
  | .ok place =>
    if tree.node? place = some .directory then
      .ok (((tree.namesIn place).mergeSort Bytes.le).map fun name => ⟨name, tree.kindOf place name⟩)
    else .error (.cannotList path .notDirectory)

/-- The tree as a reader of directories. Slashes alone stay as they are. -/
def reader (tree : FileTree) (base : Bytes) : DirectoryReader where
  read path := (tree.list base path).mapError FileError.message
  rootOf := id

/-! ## Building -/

/-- Puts a node at a place, in the stead of what lay there. -/
def put (tree : FileTree) (place : List Bytes) (node : FileNode) : FileTree :=
  if tree.nodes.any (·.1 = place) then
    ⟨tree.nodes.map fun entry => if entry.1 = place then (place, node) else entry⟩
  else ⟨tree.nodes ++ [(place, node)]⟩

/-- Makes a place and those above it directories, as far as nothing else lies there. `place` is the
    part that is there already. -/
def makeDirectories (tree : FileTree) (place : List Bytes) :
    List Bytes → Except FileCause FileTree
  | [] => .ok tree
  | name :: rest =>
    match tree.walk maxLinks place [name] with
    | .ok next =>
      if tree.node? next = some .directory then makeDirectories tree next rest
      else .error .notDirectory
    | .error .notFound =>
      if (tree.node? (place ++ [name])).isSome then .error .occupied
      else makeDirectories (tree.put (place ++ [name]) .directory) (place ++ [name]) rest
    | .error cause => .error cause

/-- Makes an absolute path and those above it directories, unless something else lies there. -/
def addDirectory (tree : FileTree) (path : Bytes) : FileTree :=
  (tree.makeDirectories [] (Path.names path)).toOption.getD tree

/-- Puts a node at the place of an absolute path, with the directories above it. -/
def add (tree : FileTree) (path : Bytes) (node : FileNode) : FileTree :=
  let place := Path.names path
  let tree := (tree.makeDirectories [] place.dropLast).toOption.getD tree
  match tree.walk maxLinks [] place.dropLast, place.getLast? with
  | .ok directory, some name => tree.put (directory ++ [name]) node
  | _, _ => tree

/-- Takes away what lies at an absolute path, with everything below it. -/
def remove (tree : FileTree) (path : Bytes) : FileTree :=
  let place := Path.names path
  ⟨tree.nodes.filter fun entry => !place.isPrefixOf entry.1⟩

end FileTree

end ShellCompletion
