import ShellCompletion.Bytes

/-!
# The environment

The variables of a process and its user's account, and what follows from them: the home directory
that a tilde stands for, and the directories in which commands are looked up.
-/
namespace ShellCompletion

/-- What a process is started with. -/
structure Environment where
  /-- Variables with their values. -/
  entries : List (Bytes × Bytes)
  /-- The home directory of the user in the password database, if the user is in it. -/
  accountHome : Option Bytes := none
deriving Repr

namespace Environment

/-- The value of a variable that is set. -/
def get? (env : Environment) (name : Bytes) : Option Bytes := env.entries.lookup name

/-- The environment without a variable. -/
def unset (env : Environment) (name : Bytes) : Environment :=
  { env with entries := env.entries.filter (·.1 != name) }

/-- The environment with a value for a variable, which stays in its place if it is set already. -/
def set (env : Environment) (name value : Bytes) : Environment :=
  if env.entries.any (·.1 = name) then
    { env with entries := env.entries.map fun entry => if entry.1 = name then (name, value) else entry }
  else { env with entries := env.entries ++ [(name, value)] }

/-- The home directory: the one that is set, else that of the account, else the root. -/
def home (env : Environment) : Bytes :=
  ((env.get? (utf8 "HOME")).filter (!·.isEmpty)).getD (env.accountHome.getD (utf8 "/"))

/-- A leading tilde, alone or before a slash, stands for the home directory. -/
def expandTilde (env : Environment) (path : Bytes) : Bytes :=
  match path with
  | [] => []
  | c :: rest =>
    if c = '~'.toUInt8 ∧ (rest = [] ∨ rest.head? = some '/'.toUInt8) then env.home ++ rest else path

/-- The text without the slashes at its end, of which the first byte stays. -/
def trimSlashes (path : Bytes) : Bytes :=
  match path with
  | [] => []
  | c :: rest => c :: (rest.reverse.dropWhile (· == '/'.toUInt8)).reverse

/-- The home directory at the front of a path is shown as a tilde. -/
def contractHome (env : Environment) (path : Bytes) : Bytes :=
  let home := trimSlashes env.home
  if home.isEmpty || home == utf8 "/" then path
  else if path = home then utf8 "~"
  else if home.isPrefixOf path && (path.drop home.length).head? == some '/'.toUInt8 then
    '~'.toUInt8 :: path.drop home.length
  else path

/-- The directories of the search path, without empty ones. -/
def searchPath (env : Environment) : List Bytes :=
  match env.get? (utf8 "PATH") with
  | none => []
  | some path => (Bytes.fields ':'.toUInt8 path).filter (!·.isEmpty)

end Environment

end ShellCompletion
