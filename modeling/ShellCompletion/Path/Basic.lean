import ShellCompletion.Bytes

/-!
# Paths

Paths are byte strings whose names are separated by slashes. A `Directory` is a path that leads to
one, together with the slashes that it starts from. Its normal form resolves the dots of the path
without looking at any file, and its key is the spelling under which it is known: the normal form
without a slash at its end. Which root slashes name is left to the system: POSIX and C++ let two
slashes be a root of their own.
-/
namespace ShellCompletion.Path

/-- The separator of names. -/
def slash : UInt8 := '/'.toUInt8

def isAbsolute (path : Bytes) : Bool := path.head? == some slash

def hasFileName (path : Bytes) : Bool := (path.getLast?).any (· != slash)

def fileName (path : Bytes) : Bytes := Bytes.afterLast slash path

/-- `path` as seen from the directory `base`. -/
def append (base path : Bytes) : Bytes :=
  if isAbsolute path then path
  else if hasFileName base then base ++ slash :: path
  else base ++ path

/-- The text without one slash at its end, unless it is that slash. -/
def dropSlash (text : Bytes) : Bytes :=
  if 1 < text.length ∧ text.getLast? = some slash then text.dropLast else text

/-- The last name of a path, with one slash after it disregarded. -/
def baseName (path : Bytes) : Bytes :=
  let trimmed := dropSlash path
  let name := Bytes.afterLast slash trimmed
  if name.isEmpty then trimmed else name

def parts (path : Bytes) : List Bytes := Bytes.fields slash path

/-- The names of a path: what stands between its slashes, without empty texts. -/
def names (path : Bytes) : List Bytes := (parts path).filter (!·.isEmpty)

def dot : Bytes := utf8 "."

def dotDot : Bytes := utf8 ".."

/-- Resolves the dots of names. `reached` holds the names so far, the last one first; two dots drop
    the name before them, and at the root they have no effect. -/
def resolveDots (absolute : Bool) (reached : List Bytes) : List Bytes → List Bytes
  | [] => reached.reverse
  | name :: rest =>
    if name = dot then resolveDots absolute reached rest
    else if name = dotDot then
      match reached with
      | [] => resolveDots absolute (if absolute then [] else [dotDot]) rest
      | last :: before =>
        if last = dotDot then resolveDots absolute (dotDot :: reached) rest
        else resolveDots absolute before rest
    else resolveDots absolute (name :: reached) rest

/-- The path ends at a directory rather than at a name: in a slash or in dots. -/
def endsAtDirectory (path : Bytes) : Bool :=
  let last := fileName path
  last.isEmpty || last == dot || last == dotDot

/-- The path holds a name below its root. -/
def hasNames (path : Bytes) : Bool := path.any (· != slash)

/-- The path without the slashes at its end. -/
def dropSlashes (path : Bytes) : Bytes := (path.reverse.dropWhile (· == slash)).reverse

/-- Two spellings have the same root and the same names, also in a slash at the end. -/
def sameSpelling (a b : Bytes) : Bool :=
  let elements (path : Bytes) : List Bytes :=
    names path ++ if hasFileName path || !hasNames path then [] else [[]]
  isAbsolute a == isAbsolute b && elements a == elements b

/-- The name ends in the extension, and something stands before it. -/
def hasExtension (extension name : Bytes) : Bool :=
  decide (extension.length < name.length) && Bytes.endsWith name extension

end ShellCompletion.Path

namespace ShellCompletion

/-- A directory as it is looked for. -/
structure Directory where
  /-- The slashes that the path starts from; empty if the path is relative. -/
  root : Bytes
  path : Bytes
deriving DecidableEq, Repr

namespace Directory

/-- The directory of a path. Slashes alone are kept together; before other names, any number of them is
    one slash. -/
def ofPath (path : Bytes) : Directory where
  root := if !Path.hasNames path then path else if Path.isAbsolute path then [Path.slash] else []
  path := path

/-- The directory of a path as seen from this one, whose root it shares unless the path has one of
    its own. -/
def append (base : Directory) (path : Bytes) : Directory :=
  if Path.isAbsolute path then ofPath path else ⟨base.root, Path.append base.path path⟩

/-- The path without dots, empty names and names that two dots cancel, from the root that its slashes
    name. A slash at the end stays, or takes the place of dots at the end, unless nothing or only two
    dots stand before it. -/
def normal (rootOf : Bytes → Bytes) (directory : Directory) : Bytes :=
  let absolute := !directory.root.isEmpty
  let root := if absolute then rootOf directory.root else []
  if !Path.hasNames directory.path then root
  else
    let names := Path.resolveDots absolute [] (Path.names directory.path)
    let body := Bytes.join [Path.slash] names
    let closing := if Path.endsAtDirectory directory.path && !names.isEmpty &&
        names.getLast? != some Path.dotDot then [Path.slash] else []
    if !absolute && names.isEmpty then Path.dot else root ++ body ++ closing

/-- The spelling under which the directory is known. -/
def key (rootOf : Bytes → Bytes) (directory : Directory) : Bytes :=
  let path := directory.normal rootOf
  if !Path.hasFileName path && Path.hasNames path then Path.dropSlashes path else path

end Directory

end ShellCompletion
