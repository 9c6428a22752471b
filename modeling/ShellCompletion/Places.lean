import ShellCompletion.Environment
import ShellCompletion.FileTree
import ShellCompletion.Settings

/-!
# Places of files

Where the program keeps its files: below the directories that the environment names for settings and
for caches, or below the home directory.
-/
namespace ShellCompletion

/-- The name of the program's own directories. -/
def ownName : Bytes := utf8 "tabsh"

namespace Environment

/-- The program's directory below the one that a variable names. Where that is no absolute path, it
    is below `fallback` in the home directory. -/
def ownDirectory (env : Environment) (name fallback : String) : Bytes :=
  let base := match (env.get? (utf8 name)).filter Path.isAbsolute with
    | some directory => directory
    | none => Path.append env.home (utf8 fallback)
  Path.append base ownName

def settingsDirectory (env : Environment) : Bytes := env.ownDirectory "XDG_CONFIG_HOME" ".config"

def cacheDirectory (env : Environment) : Bytes := env.ownDirectory "XDG_CACHE_HOME" ".cache"

def historyFile (env : Environment) : Bytes := Path.append env.cacheDirectory (utf8 "history.txt")

def settingsFile (env : Environment) : Bytes := Path.append env.settingsDirectory (utf8 "config.json")

end Environment

/-- The paths without those that spell an earlier one. -/
def distinctPaths (paths : List Bytes) : List Bytes :=
  paths.foldl (fun kept path => if kept.any (Path.sameSpelling · path) then kept else kept ++ [path])
    []

/-- Where schema documents are looked for: beside the settings, in the home directory, in the
    directories that the settings add, and in the current directory. -/
def schemaDirectories (settings : Settings) (env : Environment) (current : Bytes) : List Bytes :=
  let completions := utf8 "completions"
  let inHome := Path.append (Path.append env.home (utf8 ".config")) ownName
  distinctPaths ([Path.append env.settingsDirectory completions, Path.append inHome completions] ++
    settings.extraSchemaDirectories ++ [Path.append current completions])

/-- Makes the directory of the cache, as far as nothing else lies there. -/
def FileTree.makeCacheDirectory (tree : FileTree) (env : Environment) (current : Bytes) :
    Except FileCause FileTree := do
  let path := env.cacheDirectory
  let start ← if Path.isAbsolute path then .ok [] else tree.walk maxLinks [] (Path.parts current)
  tree.makeDirectories start (Path.names path)

end ShellCompletion
