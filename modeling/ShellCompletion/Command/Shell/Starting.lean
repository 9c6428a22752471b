import ShellCompletion.Command.Shell.Evaluation

/-!
# The start of shells

What a shell finds when it starts: its variables, the options that its arguments set, and the script
that they name or hold.
-/
namespace ShellCompletion.Shell

/-! ## The first variables -/

/-- The directory of a shell. The one that the environment names counts if it is the same. -/
def startDirectory (machine : Machine) (environment : Environment) (directory : Bytes) : Bytes :=
  let here := machine.files.walk FileTree.maxLinks [] (Path.parts directory)
  let isHere (path : Bytes) : Bool := Path.isAbsolute path &&
    match here, machine.files.locate directory path with
    | .ok a, .ok b => a == b
    | _, _ => false
  ((environment.get? (utf8 "PWD")).filter isHere).getD (machine.files.physicalPath directory)

/-- The shell that a program starts with. -/
def initial (machine : Machine) (environment : Environment) (directory name : Bytes) : Shell :=
  let given := (environment.entries.filter fun entry => isName entry.1).map fun (name, value) =>
    ({ name, value := some value, exported := true } : Variable)
  let directory := startDirectory machine environment directory
  let process := machine.process? machine.current
  let parent := (process.map (·.parent)).getD 1
  let defaults : List Variable :=
    [{ name := utf8 "IFS", value := some defaultSeparators },
     { name := utf8 "PATH", value := some systemPath },
     { name := utf8 "PS1", value := some (utf8 "# ") },
     { name := utf8 "PS2", value := some (utf8 "> ") },
     { name := utf8 "PS4", value := some (utf8 "+ ") },
     { name := utf8 "OPTIND", value := some (utf8 "1") }]
  let shell : Shell :=
    { name, arguments := [], bindings := defaults, directory, root := machine.current, line := 0
      traps := ((process.map (·.ignored)).getD []).map fun signal => (signal, []) }
  let shell := given.foldl (fun shell entry =>
    if entry.name = utf8 "IFS" then shell else shell.store entry) shell
  let shell := shell.store { name := utf8 "OPTIND", value := some (utf8 "1") }
  let shell := shell.store { name := utf8 "PPID", value := some (Bytes.decimal parent) }
  shell.store { name := utf8 "PWD", value := some directory, exported := true }

/-- The names and values that describe the machine and the shell. -/
def descriptions : List (String × String) :=
  [("BASH", "/usr/bin/bash"), ("BASH_VERSION", "5.2.21(1)-release"), ("HOSTNAME", "localhost"),
   ("HOSTTYPE", "x86_64"), ("MACHTYPE", "x86_64-pc-linux-gnu"), ("OPTERR", "1"),
   ("OSTYPE", "linux-gnu"), ("PS4", "+ "), ("SHELL", "/bin/bash"), ("TERM", "dumb")]

def versionParts : List Bytes :=
  ["5", "2", "21", "1", "release", "x86_64-pc-linux-gnu"].map utf8

/-- How many shells surround a shell that is given a number of them. -/
def levelAfter (given : Option Bytes) : Nat :=
  let level := ((given.bind Bytes.readInteger).getD 0 + 1).toNat
  if 1000 ≤ level then 1 else level

/-- The shell of the extended language that a program starts with. -/
def initialExtended (machine : Machine) (environment : Environment) (directory name : Bytes) : Shell :=
  let process := machine.process? machine.current
  let parent := (process.map (·.parent)).getD 1
  let given := environment.entries.filter fun entry =>
    isName entry.1 && ! ["IFS", "UID", "EUID", "PPID"].any (utf8 · = entry.1)
  let integer (name : String) (n : Nat) (fixed : Bool) : Variable :=
    { name := utf8 name, value := some (Bytes.decimal n), integer := true, fixed }
  let shell : Shell :=
    { name, extended := true, arguments := [], root := machine.current, line := 0
      directory := startDirectory machine environment directory
      options := utf8 "hB", settings := Builtin.startSettings
      start := machine.now, seed := machine.current * 7919 + 1
      traps := ((process.map (·.ignored)).getD []).map fun signal => (signal, []) }
  let defaults : List Variable :=
    descriptions.map (fun entry => { name := utf8 entry.1, value := some (utf8 entry.2) }) ++
    [{ name := utf8 "IFS", value := some defaultSeparators },
     { name := utf8 "PATH", value := some systemPath },
     { name := utf8 "BASH_VERSINFO", value := some [], fixed := true
       elements := some (.ofList versionParts) },
     { name := utf8 "OLDPWD", value := none, exported := true },
     integer "UID" 0 true, integer "EUID" 0 true, integer "PPID" parent true]
  let shell := { shell with bindings := defaults }
  let shell := given.foldl (fun shell (name, value) =>
    shell.store { name, value := some value, exported := true }) shell
  let level := levelAfter (environment.get? (utf8 "SHLVL"))
  ([{ name := utf8 "SHLVL", value := some (Bytes.decimal level), exported := true },
    { name := utf8 "PWD", value := some shell.directory, exported := true },
    { name := utf8 "_", value := some name },
    integer "OPTIND" 1 false] : List Variable).foldl store shell

/-! ## The plain language -/

/-- Runs the script that the arguments name or hold, or else the one that comes as input. -/
def runArguments (launch : Launch) (arguments : List Bytes) : Step Nat := do
  let (kept, _, rest) ← readStart arguments
  if kept.contains 'c'.toUInt8 then
    match rest with
    | [] => fail (utf8 "-c requires an argument")
    | text :: rest =>
      modify fun shell =>
        { shell with name := rest.headD shell.name, arguments := rest.drop 1, line := 1 }
      runLines launch manySteps { last := true } ⟨text, 1⟩ 0
  else
    match if (← get).hasOption 's' then [] else rest with
    | [] =>
      modify fun shell =>
        let options := if shell.hasOption 's' then shell.options else 's'.toUInt8 :: shell.options
        { shell with arguments := rest, line := 1, options }
      let text ← Act.readAll 0
      runLines launch manySteps { shown := true } ⟨text.toOption.getD [], 1⟩ 0
    | path :: others =>
      let shell ← get
      let node ← Act.look fun machine => machine.files.find? shell.directory path
      match node with
      | .error cause =>
        fail (utf8 "cannot open " ++ path ++ utf8 ": " ++ openFault cause "No such file")
      | .ok node =>
        set { shell with name := path, arguments := others, line := 1 }
        match node with
        | .file content _ => runLines launch manySteps { shown := true } ⟨content, 1⟩ 0
        | _ => return 0
where
  readStart (arguments : List Bytes) : Step (Bytes × Bool × List Bytes) :=
    Builtin.readSettings (utf8 "c") (arguments.length + 1) arguments

/-! ## The extended language -/

/-- What the arguments ask for. -/
structure Request where
  /-- The script is the first argument. -/
  isText : Bool := false
  /-- The script comes as input. -/
  isInput : Bool := false
  /-- Files are read first that are meant for the first shell of a user. -/
  isLogin : Bool := false
  isInteractive : Bool := false
  /-- The shell only tells its version. -/
  showsVersion : Bool := false

/-- The options that are words, which come first. -/
def longOptions : List String :=
  ["debug", "debugger", "dump-po-strings", "dump-strings", "help", "init-file", "login", "noediting",
   "noprofile", "norc", "posix", "pretty-print", "rcfile", "restricted", "verbose", "version"]

/-- How the shell is used. -/
def startUsage : Bytes :=
  utf8 "Usage:\tbash [GNU long option] [option] ...\n\tbash [GNU long option] [option] script-file ...\n" ++
  utf8 "GNU long options:\n" ++
  (longOptions.flatMap fun option => utf8 "\t--" ++ utf8 option ++ utf8 "\n") ++
  utf8 "Shell options:\n\t-ilrsD or -c command or -O shopt_option\t\t(invocation only)\n" ++
  utf8 "\t-abefhkmnptuvxBCEHPT or -o option\n"

/-- Says that the arguments are not understood. -/
def refuseStart {α : Type} (text : Bytes) (usage : Bool) : Step α := do
  let name := (← get).name
  let _ ← Act.write 2 (name ++ utf8 ": " ++ text ++ utf8 "\n" ++ if usage then startUsage else [])
  throw (.exit 2)

/-- Reads the options that are words. -/
def readLong : (fuel : Nat) → Request → List Bytes → Step (Request × List Bytes)
  | 0, request, arguments => return (request, arguments)
  | _, request, [] => return (request, [])
  | fuel + 1, request, word :: rest => do
    let arguments := word :: rest
    if word.head? != some '-'.toUInt8 then return (request, arguments)
    let isLong := (utf8 "--").isPrefixOf word
    let name := word.drop (if isLong then 2 else 1)
    match longOptions.find? (utf8 · = name) with
    | none =>
      if isLong && !name.isEmpty then refuseStart (word ++ utf8 ": invalid option") true
      else return (request, arguments)
    | some "login" => readLong fuel { request with isLogin := true } rest
    | some "version" => readLong fuel { request with showsVersion := true } rest
    | some "posix" => do
      Builtin.putSetting (utf8 "posix") true
      readLong fuel request rest
    | some "verbose" => do
      Builtin.putLetter 'v'.toUInt8 true
      readLong fuel request rest
    | some "init-file" | some "rcfile" =>
      if rest.isEmpty then refuseStart (word ++ utf8 ": option requires an argument") false
      else readLong fuel request (rest.drop 1)
    | some _ => readLong fuel request rest

/-- Reads the options that are letters. -/
def readShort : (fuel : Nat) → Request → List Bytes → Step (Request × List Bytes)
  | 0, request, arguments => return (request, arguments)
  | _, request, [] => return (request, [])
  | fuel + 1, request, word :: rest => do
    let arguments := word :: rest
    if word = utf8 "-" || word = utf8 "--" then return (request, rest)
    let on := word.head? == some '-'.toUInt8
    if !on && (word.head? != some '+'.toUInt8 || word.length < 2) then return (request, arguments)
    let (request, rest) ← (word.drop 1).foldlM (fun (state : Request × List Bytes) letter => do
      let (request, rest) := state
      let is (c : Char) : Bool := letter == c.toUInt8
      if is 'c' then return ({ request with isText := true }, rest)
      else if is 's' then return ({ request with isInput := true }, rest)
      else if is 'l' then return ({ request with isLogin := true }, rest)
      else if is 'i' then return ({ request with isInteractive := true }, rest)
      else if is 'r' || is 'D' then return (request, rest)
      else if is 'o' then
        Builtin.nameOption rest.head? on
        return (request, rest.drop 1)
      else if is 'O' then
        let name := rest.headD []
        if rest.isEmpty then let _ ← Builtin.shopt [utf8 (if on then "-s" else "-u")]
        else if Builtin.otherOptions.any (utf8 ·.1 = name) then Builtin.putSetting name on
        else refuse 2 (name ++ utf8 ": invalid shell option name")
        return (request, rest.drop 1)
      else if (utf8 "abefhkmnptuvxBCEHPT").contains letter then
        Builtin.putLetter letter on
        return (request, rest)
      else refuseStart (word.take 1 ++ letter :: utf8 ": invalid option") true) (request, rest)
    readShort fuel request rest

/-- Runs the script of a file, if there is one, before the one that is wanted. -/
def runFirst (launch : Launch) (path : Bytes) : Step Bool := do
  let shell ← get
  match ← Act.look fun machine => machine.files.find? shell.directory path with
  | .ok (.file content _) =>
    let caller : Caller := { name := utf8 "source", line := 0, source := path, isFunction := false }
    modify ({ · with callers := caller :: shell.callers, line := 1 })
    let _ ← failing (runLines launch manySteps { inner := true } ⟨content, 1⟩ 0)
    modify ({ · with callers := shell.callers })
    return true
  | _ => return false

/-- Runs the scripts of files that the user wants to be run at the start. -/
def prepare (launch : Launch) (request : Request) : Step Unit := do
  let shell ← get
  let home := (shell.value? (utf8 "HOME")).getD []
  if request.isLogin then
    let mut done := false
    for name in [".bash_profile", ".bash_login", ".profile"] do
      if !done then done ← runFirst launch (home ++ utf8 "/" ++ utf8 name)
  else if request.isInteractive then let _ ← runFirst launch (home ++ utf8 "/.bashrc")
  else if let some path := shell.value? (utf8 "BASH_ENV") then
    if !path.isEmpty && !shell.hasSetting "posix" then let _ ← runFirst launch path

/-- Runs a script that comes as input. The commands of the script find what it has left of that. -/
def runInput (launch : Launch) (arguments : List Bytes) : Step Nat := do
  modify fun shell => { shell with arguments, line := 1, options := 's'.toUInt8 :: shell.options }
  let text ← Act.readAll 0
  runLines launch manySteps { shown := true, resumes := true, streams := true }
    ⟨text.toOption.getD [], 1⟩ 0

/-- The first line of a file shows that it is no script. -/
def isNoScript (content : Bytes) : Bool := ((Bytes.before 10 content).take 80).contains 0

def runFile (launch : Launch) (path : Bytes) (arguments : List Bytes) : Step Nat := do
  let shell ← get
  let find (path : Bytes) : Step (Except FileCause FileNode) :=
    Act.look fun machine => machine.files.find? shell.directory path
  let searched ← match ← find path with
    | .error _ =>
      if path.contains Path.slash then pure none
      else Act.look fun machine => Builtin.findProgram shell machine path
    | .ok _ => pure none
  let say (text : Bytes) (status : Nat) : Step Nat := do
    let _ ← Act.write 2 (text ++ utf8 "\n")
    throw (.exit status)
  let name := shell.name
  set { shell with name := path, arguments, line := 1, script := some path }
  match ← find (searched.getD path) with
  | .error cause =>
    say (name ++ utf8 ": " ++ path ++ utf8 ": " ++ utf8 cause.message)
      (if cause = .notFound ∨ cause = .notDirectory then 127 else 126)
  | .ok .directory => say (path ++ utf8 ": " ++ path ++ utf8 ": Is a directory") 126
  | .ok node =>
    let content ← match node with
      | .file content _ => pure content
      | _ => do
        let descriptor ← Act.freeDescriptor Act.ownDescriptors
        match ← Act.openAt descriptor shell.directory (searched.getD path) .read with
        | .ok () => do
          let text ← Act.readAll descriptor
          Act.close descriptor
          pure (text.toOption.getD [])
        | .error _ => pure []
    if isNoScript content then
      say (path ++ utf8 ": " ++ path ++ utf8 ": cannot execute binary file") 126
    else runLines launch manySteps { shown := true, resumes := true } ⟨content, 1⟩ 0

/-- Runs the script that the arguments name or hold, or else the one that comes as input. -/
def runRequest (launch : Launch) (arguments : List Bytes) : Step Nat := do
  let (request, rest) ← readLong (arguments.length + 1) {} arguments
  let (request, rest) ← failing' (readShort (rest.length + 1) request rest)
  if request.showsVersion then
    return ← print (utf8 "GNU bash, version 5.2.21(1)-release (x86_64-pc-linux-gnu)\n")
  if request.isInteractive then
    modify fun shell => { shell with
      options := utf8 "iH" ++ shell.options, settings := utf8 "expand_aliases" :: shell.settings }
  Builtin.noteSettings
  if request.isText then
    match rest with
    | [] => refuseStart (utf8 "-c: option requires an argument") false
    | text :: rest =>
      modify fun shell => { shell with
        name := rest.headD shell.name, arguments := rest.drop 1, line := 1
        options := 'c'.toUInt8 :: shell.options, fromText := true }
      modify (·.store { name := utf8 "BASH_EXECUTION_STRING", value := some text })
      prepare launch request
      runLines launch manySteps { last := true } ⟨text, 1⟩ 0
  else
    prepare launch request
    match if request.isInput then [] else rest with
    | [] => runInput launch rest
    | path :: others => runFile launch path others
where
  failing' (step : Step (Request × List Bytes)) : Step (Request × List Bytes) := do
    try step
    catch stop => match stop with
      | .refuse status => throw (.exit status)
      | stop => throw stop

/-! ## Both languages -/

/-- The life of a process that runs a shell with those words. -/
def run (launch : Launch) (extended : Bool) (directory : Bytes) (environment : Environment)
    (words : List Bytes) : Act Nat := do
  let name := words.headD []
  if extended then
    let shell ← Act.look fun machine => initialExtended machine environment directory name
    runToEnd launch manySteps (runRequest launch (words.drop 1)) shell
  else
    let shell ← Act.look fun machine => initial machine environment directory name
    runToEnd launch manySteps (runArguments launch (words.drop 1)) shell

end ShellCompletion.Shell
