import ShellCompletion.FileTree
import ShellCompletion.Schema.Bundled
import ShellCompletion.Schema.Database
import ShellCompletion.Schema.Document

/-!
# Loading schemas

A database is loaded from the bundled documents and from those in a list of directories. The first
schema of a command stays, later ones are shadowed, and a document that cannot be read is reported
and passed over.
-/
namespace ShellCompletion

/-- A schema on its way into a database, or what is said about a document that gave none. -/
abbrev Submission := Except Bytes Schema

/-- What a load has done. -/
structure LoadReport where
  loaded : Nat := 0
  rejected : Nat := 0
  shadowed : Nat := 0
  /-- One message for each rejected document, in order. -/
  errors : List Bytes := []
deriving DecidableEq, Repr

/-- A load on its way: what it has done so far, and the database that it fills. -/
structure Load extends LoadReport where
  database : Database := .empty

namespace Load

/-- Takes one submission into the database. -/
def step (load : Load) : Submission → Load
  | .error message =>
    { load with rejected := load.rejected + 1, errors := load.errors ++ [message] }
  | .ok schema =>
    match load.database.add schema with
    | (true, database) => { load with database, loaded := load.loaded + 1 }
    | (false, _) => { load with shadowed := load.shadowed + 1 }

/-- Takes submissions in, one after the other, starting from an empty database. -/
def all (submissions : List Submission) : Load := submissions.foldl step {}

end Load

/-- The schema in the text of a document; the message about one that is refused names its source. -/
def submission (library : JsonLibrary) (source text : Bytes) : Submission :=
  (Schema.ofText library text).mapError fun fault => source ++ utf8 ": " ++ fault.message library

/-- What the bundled documents give. -/
def Bundled.submissions (library : JsonLibrary) : List Submission :=
  documents.map fun (source, text) => submission library source text

namespace FileTree

/-- The paths of the documents in a directory, sorted by name; none if it is no directory. -/
def documentsIn (tree : FileTree) (base directory : Bytes) : List Bytes :=
  match tree.list base directory with
  | .error _ => []
  | .ok entries =>
    ((entries.map Entry.name).filter (Path.hasExtension (utf8 ".json"))).map (Path.append directory)

/-- What the document at a path gives. -/
def submissionAt (library : JsonLibrary) (tree : FileTree) (base path : Bytes) : Submission :=
  match tree.read base path with
  | .error e => .error e.message
  | .ok text => submission library path text

/-- What a load goes through: the bundled documents, if they are wanted, and then those of each
    directory. -/
def submissions (library : JsonLibrary) (tree : FileTree) (base : Bytes) (bundled : Bool)
    (directories : List Bytes) : List Submission :=
  (if bundled then Bundled.submissions library else []) ++
    directories.flatMap fun directory =>
      (tree.documentsIn base directory).map (tree.submissionAt library base)

/-- Loads the schemas in directories, after the bundled ones if they are wanted. -/
def loadSchemas (library : JsonLibrary) (tree : FileTree) (base : Bytes) (bundled : Bool)
    (directories : List Bytes) : Load :=
  Load.all (tree.submissions library base bundled directories)

end FileTree

/-- A loader: where it looks for documents, and what its last load has done. -/
structure SchemaLoader where
  directories : List Bytes
  /-- The bundled schemas are loaded as well. -/
  bundled : Bool := true
  report : LoadReport := {}

namespace SchemaLoader

/-- The loader looks in one more directory, after the others. -/
def addDirectory (loader : SchemaLoader) (directory : Bytes) : SchemaLoader :=
  { loader with directories := loader.directories ++ [directory] }

/-- Loads a new database. The report is that of this load alone. -/
def load (loader : SchemaLoader) (library : JsonLibrary) (tree : FileTree) (base : Bytes) :
    Database × SchemaLoader :=
  let load := tree.loadSchemas library base loader.bundled loader.directories
  (load.database, { loader with report := load.toLoadReport })

end SchemaLoader

end ShellCompletion
