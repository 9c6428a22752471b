import ShellCompletion.Command.Condition
import ShellCompletion.Command.Format
import ShellCompletion.Command.Shell.Expansion
import ShellCompletion.Command.Shell.Usage
import ShellCompletion.System.Signals

/-!
# Builtin commands

The commands that a shell runs itself, since they look at its own state or change it.
-/
namespace ShellCompletion

/-- A command that a shell runs itself. -/
structure Builtin where
  name : String
  /-- A fault of a special one ends the script, and what is assigned for it stays. -/
  special : Bool := false
  /-- Its arguments may assign. -/
  assigns : Bool := false
  /-- It runs a script or another command, which is left to the evaluation of scripts. -/
  passes : Bool := false
  run : List Bytes → Step Nat

namespace Builtin

open Shell

/-! ## Arguments -/

/-- Says what is wrong with an option, which ends the command; in the extended language, the command is
    shown as it is used. -/
def misuse {α : Type} (plain extended : Bytes) : Step α := do
  let shell ← get
  if !shell.extended then fail plain
  else
    complain extended
    let _ ← Act.write 2 (usage (shell.command.getD []))
    throw (.refuse 2)

/-- The letters of options in front of the arguments, each with its value if it takes one, and the
    arguments. -/
def readOptions (allowed withValue : String) : (fuel : Nat) → List Bytes →
    Step (List (UInt8 × Bytes) × List Bytes)
  | 0, arguments => return ([], arguments)
  | _, [] => return ([], [])
  | fuel + 1, word :: rest => do
    if word = utf8 "--" then return ([], rest)
    match word with
    | dash :: letter :: more =>
      if dash ≠ '-'.toUInt8 then return ([], word :: rest)
      else if (utf8 withValue).contains letter then
        match more, rest with
        | [], [] =>
          misuse (utf8 "No arg for -" ++ [letter] ++ utf8 " option")
            (dash :: letter :: utf8 ": option requires an argument")
        | [], value :: rest =>
          let (options, rest) ← readOptions allowed withValue fuel rest
          return ((letter, value) :: options, rest)
        | value, rest =>
          let (options, rest) ← readOptions allowed withValue fuel rest
          return ((letter, value) :: options, rest)
      else if (utf8 allowed).contains letter then
        let rest := if more.isEmpty then rest else (dash :: more) :: rest
        let (options, rest) ← readOptions allowed withValue fuel rest
        return ((letter, []) :: options, rest)
      else misuse (utf8 "Illegal option -" ++ [letter]) (dash :: letter :: utf8 ": invalid option")
    | _ => return ([], word :: rest)

def options (allowed withValue : String) (arguments : List Bytes) :
    Step (List (UInt8 × Bytes) × List Bytes) :=
  readOptions allowed withValue ((arguments.map fun word => word.length + 1).foldl (· + ·) 1) arguments

def hasLetter (options : List (UInt8 × Bytes)) (letter : Char) : Bool :=
  options.any (·.1 == letter.toUInt8)

def number (text : Bytes) : Step Nat := do
  if Bytes.allDigits text && Bytes.digitsValue text < 2147483648 then return Bytes.digitsValue text
  else if (← get).extended then refuse 1 (text ++ utf8 ": numeric argument required")
  else fail (utf8 "Illegal number: " ++ text)

/-- The name that an argument has to be, and the value after it if it has one. -/
def splitAssignment (text : Bytes) : Step (Bytes × Option Bytes) := do
  let name := Bytes.before '='.toUInt8 text
  if !isName name then fail (name ++ utf8 ": bad variable name")
  return (name, if name.length < text.length then some (text.drop (name.length + 1)) else none)

def line (parts : List Bytes) : Bytes := parts.flatten ++ utf8 "\n"

/-! ## Variables -/

/-- The variables that have a value, by name. -/
def shown (shell : Shell) (isShown : Variable → Bool) (start : Bytes) : Bytes :=
  ((shell.bindings.filter isShown).mergeSort fun a b => Bytes.le a.name b.name).flatMap fun entry =>
    match entry.value with
    | some value => line [start, entry.name, utf8 "=", quote value]
    | none => []

def mark (command : String) (isMarked : Variable → Bool) (setMark : Variable → Variable)
    (arguments : List Bytes) : Step Nat := do
  let (letters, names) ← options "p" "" arguments
  if names.isEmpty || hasLetter letters 'p' then
    print (shown (← get) isMarked (utf8 command ++ utf8 " "))
  else
    for text in names do
      let (name, value) ← splitAssignment text
      if let some value := value then assign name value
      let shell ← get
      set (shell.store (setMark ((shell.binding? name).getD { name, value := none })))
    return 0

def unset (arguments : List Bytes) : Step Nat := do
  let (letters, names) ← options "vf" "" arguments
  for name in names do
    if hasLetter letters 'f' then
      modify fun shell => { shell with functions := shell.functions.filter (·.1 != name) }
    else
      if !isName name then fail (name ++ utf8 ": bad variable name")
      let shell ← get
      if (shell.binding? name).any (·.fixed) then fail (name ++ utf8 ": is read only")
      set (shell.forget name)
  return 0

def localVariables (arguments : List Bytes) : Step Nat := do
  if (← get).locals.isEmpty then fail (utf8 "not in a function")
  for text in arguments do
    if text = utf8 "-" then keepOptions
    else
      let (name, value) ← splitAssignment text
      putAside name
      if let some value := value then assign name value
  return 0

/-! ## Options and arguments -/

/-- The options with their letters, which most of them have. -/
def optionNames : List (String × Option Char) :=
  [("errexit", some 'e'), ("noglob", some 'f'), ("ignoreeof", some 'I'), ("interactive", some 'i'),
   ("monitor", some 'm'), ("noexec", some 'n'), ("stdin", some 's'), ("xtrace", some 'x'),
   ("verbose", some 'v'), ("vi", some 'V'), ("emacs", some 'E'), ("noclobber", some 'C'),
   ("allexport", some 'a'), ("notify", some 'b'), ("nounset", some 'u'), ("nolog", none),
   ("debug", none)]

def setOption (letter : UInt8) (on : Bool) : Step Unit := do
  if !optionNames.any (fun entry => entry.2.any (·.toUInt8 = letter)) then
    fail (utf8 "Illegal option " ++ (if on then utf8 "-" else utf8 "+") ++ [letter])
  modify fun shell =>
    let others := shell.options.filter (· != letter)
    { shell with options := if on then letter :: others else others }

def setNamedOption (name : Option Bytes) (on : Bool) : Step Unit := do
  match name with
  | none =>
    let shell ← get
    let isOn (letter : Option Char) : Bool := letter.any shell.hasOption
    let spelled (entry : String × Option Char) : Bytes :=
      if on then
        line [Format.pad { left := true, width := 16 } [] (utf8 entry.1) false,
          utf8 (if isOn entry.2 then "on" else "off")]
      else line [utf8 (if isOn entry.2 then "set -o " else "set +o "), utf8 entry.1]
    let start := if on then utf8 "Current option settings\n" else []
    let _ ← print (start ++ optionNames.flatMap spelled)
  | some name =>
    match optionNames.find? (utf8 ·.1 = name) with
    | some (_, some letter) => setOption letter.toUInt8 on
    | some (_, none) => pure ()
    | none => fail (utf8 "Illegal option " ++ (if on then utf8 "-o " else utf8 "+o ") ++ name)

/-- Sets options by their letters; the arguments after them come back, and whether two dashes stood
    before those. Letters of `kept` are not options, and come back as well. -/
def readSettings (kept : Bytes) : (fuel : Nat) → List Bytes → Step (Bytes × Bool × List Bytes)
  | 0, arguments => return ([], false, arguments)
  | _, [] => return ([], false, [])
  | fuel + 1, word :: rest => do
    match word with
    | [] => return ([], false, word :: rest)
    | c :: letters =>
      let on := c == '-'.toUInt8
      if !on && c != '+'.toUInt8 then return ([], false, word :: rest)
      else if on && letters.isEmpty then
        if kept.isEmpty then
          modify fun shell =>
            let kept := shell.options.filter fun letter => !(utf8 "xv").contains letter
            { shell with options := kept }
        return ([], false, rest)
      else if on && letters = utf8 "-" then return ([], true, rest)
      else
        let rest ← letters.foldlM (fun rest letter => do
          if kept.contains letter then return rest
          else if letter = 'o'.toUInt8 then
            setNamedOption rest.head? on
            return rest.drop 1
          else
            setOption letter on
            return rest) rest
        let (found, dashes, rest) ← readSettings kept fuel rest
        return (letters.filter kept.contains ++ found, dashes, rest)

def setCommand (arguments : List Bytes) : Step Nat := do
  if arguments.isEmpty then print (shown (← get) (fun _ => true) [])
  else
    let (_, dashes, rest) ← readSettings [] (arguments.length + 1) arguments
    if dashes || !rest.isEmpty then
      modify ({ · with arguments := rest, optionOffset := 0 })
    return 0

def shift (arguments : List Bytes) : Step Nat := do
  let count ← match arguments with
    | [] => pure 1
    | text :: _ => number text
  let shell ← get
  if shell.arguments.length < count then fail (utf8 "can't shift that many")
  set { shell with arguments := shell.arguments.drop count, optionOffset := 0 }
  return 0

def nextOption (arguments : List Bytes) : Step Nat := do
  match arguments with
  | spec :: name :: words =>
    let shell ← get
    let words := if words.isEmpty then shell.arguments else words
    let index := (Bytes.digitsValue ((shell.value? (utf8 "OPTIND")).getD (utf8 "1"))).max 1
    let silent := spec.head? == some ':'.toUInt8
    let spec := if silent then spec.drop 1 else spec
    let finish (index offset : Nat) (letter : UInt8) (status : Nat) : Step Nat := do
      assign (utf8 "OPTIND") (Bytes.decimal index)
      assign name [letter]
      modify ({ · with optionOffset := offset })
      return status
    let isCluster := 1 < index && 0 < shell.optionOffset
    let current := if isCluster then (words[index - 2]?.getD []).drop shell.optionOffset else []
    let (cluster, index, offset, ended) :=
      if !current.isEmpty then (current, index, shell.optionOffset, false)
      else match words[index - 1]? with
        | none => ([], index, 0, true)
        | some word =>
          if word = utf8 "--" then ([], index + 1, 0, true)
          else if word.head? = some '-'.toUInt8 ∧ 1 < word.length then (word.drop 1, index + 1, 1, false)
          else ([], index, 0, true)
    match cluster with
    | [] => finish index 0 '?'.toUInt8 (if ended then 1 else 0)
    | letter :: more =>
      let after := (spec.dropWhile (· != letter)).drop 1
      let next := if more.isEmpty then 0 else offset + 1
      if letter = ':'.toUInt8 ∨ !spec.contains letter then
        if silent then assign (utf8 "OPTARG") [letter]
        else
          let _ ← Act.write 2 (line [utf8 "Illegal option -", [letter]])
          modify (·.forget (utf8 "OPTARG"))
        finish index next '?'.toUInt8 0
      else if after.head? ≠ some ':'.toUInt8 then
        assign (utf8 "OPTARG") []
        finish index next letter 0
      else if !more.isEmpty then
        assign (utf8 "OPTARG") more
        finish index 0 letter 0
      else match words[index - 1]? with
        | some value =>
          assign (utf8 "OPTARG") value
          finish (index + 1) 0 letter 0
        | none =>
          if silent then
            assign (utf8 "OPTARG") [letter]
            finish index 0 ':'.toUInt8 0
          else
            let _ ← Act.write 2 (line [utf8 "No arg for -", [letter], utf8 " option"])
            modify (·.forget (utf8 "OPTARG"))
            finish index 0 '?'.toUInt8 0
  | _ => fail (utf8 "Usage: getopts optstring var [arg]")

/-! ## Directories -/

/-- The path without dots, seen from a directory. -/
def logicalPath (directory path : Bytes) : Bytes :=
  let full := Path.append directory path
  Path.slash :: Bytes.join [Path.slash] (Path.resolveDots true [] (Path.names full))

/-- Goes to a directory; says whether that could be done. -/
def goTo (path : Bytes) (physical : Bool) : Step Bool := do
  let shell ← get
  let target := if physical then path else logicalPath shell.directory path
  let tree ← Act.look (·.files)
  if !tree.isDirectory shell.directory target then return false
  else
    let reached := if physical then tree.physicalPath (Path.append shell.directory target) else target
    let export_ (name value : Bytes) : Step Unit := do
      assign name value
      modify fun shell => match shell.binding? name with
        | some entry => shell.store { entry with exported := true }
        | none => shell
    export_ (utf8 "OLDPWD") shell.directory
    modify ({ · with directory := reached })
    Act.change fun machine => machine.update machine.current fun process =>
      { process with startup := { process.startup with directory := reached } }
    export_ (utf8 "PWD") reached
    return true

def cd (arguments : List Bytes) : Step Nat := do
  let (letters, rest) ← options "LP" "" arguments
  let physical := letters.getLast?.any (·.1 == 'P'.toUInt8)
  let shell ← get
  let back := rest.head? == some (utf8 "-")
  let target := if back then (shell.value? (utf8 "OLDPWD")).getD []
    else match rest with
      | [] => (shell.value? (utf8 "HOME")).getD []
      | path :: _ => path
  let dotted := Path.isAbsolute target ||
    (Path.names target).head?.any fun name => name == Path.dot || name == Path.dotDot
  let target := if target.isEmpty then Path.dot else target
  let tree ← Act.look (·.files)
  let bases := if dotted then [] else match shell.value? (utf8 "CDPATH") with
    | some bases => Bytes.fields ':'.toUInt8 bases
    | none => []
  let found := (bases.map fun base => (base, Path.append base target)).find? fun entry =>
    tree.isDirectory shell.directory entry.2
  let (base, path) := found.getD ([], target)
  if ← goTo path physical then
    if back || !base.isEmpty then print (line [(← get).directory]) else return 0
  else fail (utf8 "can't cd to " ++ target)

def pwd (arguments : List Bytes) : Step Nat := do
  let (letters, _) ← options "LP" "" arguments
  let shell ← get
  let tree ← Act.look (·.files)
  let physical := letters.getLast?.any (·.1 == 'P'.toUInt8)
  print (line [if physical then tree.physicalPath shell.directory else shell.directory])

/-! ## Texts -/

/-- Reads a line: its bytes, and whether it has come to its end. Unless it is `raw`, a backslash
    quotes a byte and joins lines. -/
def readBytes (raw : Bool) : (fuel : Nat) → (quoting : Bool) → List PatternByte →
    Act (List PatternByte × Bool)
  | 0, _, _ => Act.hang
  | fuel + 1, quoting, found => do
    match ← Act.read 0 1 with
    | .ok [c] =>
      if c = 0 then readBytes raw fuel quoting found
      else if quoting then readBytes raw fuel false (if c = 10 then found else (c, true) :: found)
      else if c = 92 ∧ !raw then readBytes raw fuel true found
      else if c = 10 then return (found.reverse, true)
      else readBytes raw fuel false ((c, false) :: found)
    | _ => return (found.reverse, false)

def readLine (arguments : List Bytes) : Step Nat := do
  let (letters, names) ← options "r" "pt" arguments
  if names.isEmpty then fail (utf8 "arg count")
  let (bytes, complete) ← readBytes (hasLetter letters 'r') 10000000 false []
  let fields := fieldsOfLine (← get).separators names.length bytes
  for (name, index) in names.zipIdx do
    if !isName name then fail (name ++ utf8 ": bad variable name")
    assign name (fields[index]?.getD [])
  return if complete then 0 else 1

def printf (arguments : List Bytes) : Step Nat := do
  let (_, arguments) ← options "" "" arguments
  match arguments with
  | [] => fail (utf8 "usage: printf format [arg ...]")
  | format :: arguments =>
    let printed := Format.print Format.scripts format arguments
    for fault in printed.faults do complain fault.2
    let invalid := printed.invalid.map fun spelled =>
      if spelled.isEmpty then utf8 "missing format character"
      else spelled ++ utf8 ": invalid directive"
    if let some text := invalid then complain text
    let status ← print printed.text (if printed.faults.isEmpty then 0 else 1)
    if invalid.isSome then throw (.failure 2) else return status

def test (bracket : Bool) (arguments : List Bytes) : Step Nat := do
  if bracket && arguments.getLast? != some (utf8 "]") then fail (utf8 "missing ]")
  let machine ← Act.look id
  let setting : Condition.Setting := { machine, directory := (← get).directory }
  match Condition.evaluate setting (if bracket then arguments.dropLast else arguments) with
  | .ok true => return 0
  | .ok false => return 1
  | .error fault => fail fault.message

/-! ## Signals and jobs -/

/-- The name of a signal; the end of a script is signal zero. -/
def signalName (signal : Nat) : Bytes :=
  if signal = 0 then utf8 "EXIT"
  else match Signal.all.find? (·.number = signal) with
    | some entry => if signal = 16 then utf8 "16" else utf8 entry.shortName
    | none =>
      if signal < 34 then Bytes.decimal signal
      else if signal = 34 then utf8 "RTMIN"
      else if signal < 50 then utf8 "RTMIN+" ++ Bytes.decimal (signal - 34)
      else if signal < 64 then utf8 "RTMAX-" ++ Bytes.decimal (64 - signal)
      else utf8 "RTMAX"

/-- The signal of a name or number. -/
def signalOf? (text : Bytes) : Option Nat :=
  if Bytes.allDigits text then
    if Bytes.digitsValue text < 65 then some (Bytes.digitsValue text) else none
  else (List.range 65).find? fun signal => signalName signal == Bytes.upper text

/-- Tells the machine which signals are met by traps. -/
def meetSignals : Step Unit := do
  let traps := (← get).traps.filter fun trap => trap.1 != 0 && decide (trap.1 < 65)
  Act.meetSignals ((traps.filter (·.2.isEmpty)).map Prod.fst)
    ((traps.filter (!·.2.isEmpty)).map Prod.fst)

def trap (arguments : List Bytes) : Step Nat := do
  let (_, words) ← options "" "" arguments
  match words with
  | [] =>
    let traps := (← get).traps.mergeSort fun a b => a.1 ≤ b.1
    print (traps.flatMap fun (signal, action) =>
      line [utf8 "trap -- ", quote action, utf8 " ", signalName signal])
  | first :: rest =>
    let resets := rest.isEmpty || Bytes.allDigits first
    let action := if resets || first == utf8 "-" then none else some first
    for word in if resets then words else rest do
      match signalOf? word with
      | none =>
        let _ ← Act.write 2 (line [utf8 "trap: ", word, utf8 ": bad trap"])
        meetSignals
        return 1
      | some signal =>
        modify fun shell =>
          let others := shell.traps.filter (·.1 != signal)
          { shell with traps := match action with
              | none => others
              | some action => others ++ [(signal, action)] }
    meetSignals
    return 0

def jobOf? (shell : Shell) (text : Bytes) : Option Job :=
  if text.head? = some '%'.toUInt8 then
    let rest := text.drop 1
    if Bytes.allDigits rest then shell.jobs.find? (·.number = Bytes.digitsValue rest)
    else if rest.isEmpty || rest = utf8 "%" || rest = utf8 "+" then shell.jobs.head?
    else if rest = utf8 "-" then shell.jobs[1]?
    else none
  else shell.jobs.find? fun job => job.processes.getLast?.map Bytes.decimal == some text

def killUsage : Bytes :=
  utf8 "Usage: kill [-s sigspec | -signum | -sigspec] [pid | job]... or\nkill -l [exitstatus]"

def sendTo (signal : Nat) (text : Bytes) : Step Nat := do
  let sent ← if text.head? = some '%'.toUInt8 then
      if (jobOf? (← get) text).isNone then fail (utf8 "No such job: " ++ text)
      pure false
    else if text.head? = some '-'.toUInt8 then do
      let _ ← number (text.drop 1)
      pure false
    else do
      let target ← number text
      if target = 0 then
        for process in ← Act.look (·.processes) do
          let _ ← Act.send signal process.number
        pure true
      else Act.send signal target
  if sent then return 0
  else
    complain (utf8 "No such process\n")
    return 1

def kill (arguments : List Bytes) : Step Nat := do
  let direct := match arguments with
    | (dash :: name) :: _ => if dash = '-'.toUInt8 then signalOf? name else none
    | _ => none
  let starts := arguments.head?.any (·.head? == some '-'.toUInt8)
  let (letters, targets) ← if direct.isSome then pure ([], arguments.drop 1)
    else if starts then options "l" "s" arguments
    else pure ([], arguments)
  if hasLetter letters 'l' then
    match targets with
    | [] => print (utf8 "0\n" ++ (List.range 64).flatMap fun n => line [signalName (n + 1)])
    | text :: _ =>
      let n ← number text
      let signal := if 128 < n then n - 128 else n
      if signal = 0 ∨ 64 < signal then fail (utf8 "invalid signal number or exit status: " ++ text)
      print (line [signalName signal])
  else
    let signal ← match direct, letters.getLast? with
      | some signal, _ => pure signal
      | none, some (_, text) =>
        match signalOf? text with
        | some signal => pure signal
        | none => fail (utf8 "invalid signal number or name: " ++ text)
      | none, none => pure 15
    if targets.isEmpty then fail killUsage
    let mut status := 0
    for target in targets do
      if (← sendTo signal target) ≠ 0 then status := 1
    return status

/-- A signal has come that a trap meets. -/
def isInterrupted (machine : Machine) : Bool :=
  (machine.process? machine.current).any (!·.pending.isEmpty)

/-- Says how a process ended that was waited for, unless it ended by itself. -/
def report (ending : Ending) : Act Unit := do
  match ending with
  | .killed signal =>
    if signal ≠ 2 ∧ signal ≠ 13 then
      let text := ((Signal.all.find? (·.number = signal)).map (·.description)).getD "Unknown signal"
      let _ ← Act.write 2 (line [utf8 text])
  | .exited _ => pure ()

/-- Waits until jobs have ended; says whether a trap came first. -/
def waitFor (isMeant : Job → Bool) : Step Bool := do
  reap
  let processes := (((← get).jobs.filter isMeant).filter (·.ending.isNone)).flatMap (·.processes)
  let haveEnded (machine : Machine) : Bool := processes.all fun process => !machine.isAlive process
  Act.waitUntil fun machine => haveEnded machine || isInterrupted machine
  let ended ← Act.look haveEnded
  reap
  if ended then
    modify fun shell =>
      { shell with jobs := shell.jobs.map fun job =>
          { job with waited := job.waited || (isMeant job && job.ending.isSome) } }
  return !ended

/-- The exit code of a wait that a signal interrupts. -/
def interruptedStatus : Step Nat := do
  let signal ← Act.look fun machine =>
    ((machine.process? machine.current).bind (·.pending.getLast?)).getD 0
  return 128 + signal

def wait (arguments : List Bytes) : Step Nat := do
  let (_, words) ← options "" "" arguments
  match words with
  | [] => if ← waitFor fun _ => true then interruptedStatus else return 0
  | words =>
    let mut status := 0
    for word in words do
      match jobOf? (← get) word with
      | none =>
        if word.head? = some '%'.toUInt8 then fail (utf8 "No such job: " ++ word)
        let _ ← number word
        status := 127
      | some job =>
        if ← waitFor (·.number = job.number) then return ← interruptedStatus
        let ending := (((← get).jobs.find? (·.number = job.number)).bind (·.ending)).getD (.exited 127)
        report ending
        status := ending.status
    return status

def jobLine (sign : String) (job : Job) : Bytes :=
  let state := match job.ending with
    | none => utf8 "Running"
    | some (.exited 0) => utf8 "Done"
    | some (.exited code) => utf8 "Done(" ++ Bytes.decimal (code % 256) ++ utf8 ")"
    | some (.killed signal) =>
      utf8 (((Signal.all.find? (·.number = signal)).map (·.description)).getD "Unknown signal")
  let text := utf8 "[" ++ Bytes.decimal job.number ++ utf8 "] " ++ utf8 sign ++ utf8 " " ++ state
  line [Format.pad { left := true, width := 33 } [] text false]

/-- Shows the jobs; those that have ended are forgotten then. -/
def jobs (_ : List Bytes) : Step Nat := do
  reap
  let all := (← get).jobs
  let (text, _) := all.foldl (fun (text, running) job =>
    let sign := if running = 0 then "+" else if running = 1 then "-" else " "
    (text ++ jobLine sign job, if job.ending.isNone then running + 1 else running)) (([] : Bytes), 0)
  modify ({ · with jobs := all.filter (·.ending.isNone) })
  print text

/-! ## Control -/

/-- Ends the script. -/
def exit (arguments : List Bytes) : Step Nat := do
  let shell ← get
  match arguments with
  | [] => throw (.exit (shell.interrupted.getD shell.status))
  | text :: _ => throw (.exit (← number text))

def return_ (arguments : List Bytes) : Step Nat := do
  match arguments with
  | [] => throw (.fromFunction (← get).status)
  | text :: _ => throw (.fromFunction (← number text))

/-- Leaves loops, or goes on with one. -/
def leave (stop : Nat → Stop) (arguments : List Bytes) : Step Nat := do
  let count ← match arguments with
    | [] => pure 1
    | text :: _ => number text
  if count = 0 then fail (utf8 "Illegal number: " ++ arguments.headD [])
  let loops := (← get).loops
  if loops = 0 then return 0 else throw (stop (min count loops))

/-! ## Names -/

/-- The paths that a name without a slash can stand for. -/
def searchPaths (shell : Shell) (name : Bytes) : List Bytes :=
  let path := (shell.standardPath.or (shell.value? (utf8 "PATH"))).getD []
  (Bytes.fields ':'.toUInt8 path).map fun directory =>
    if directory.isEmpty then name else directory ++ Path.slash :: name

/-- The program that a name leads to. One with a slash is a path itself. -/
def findProgram (shell : Shell) (machine : Machine) (name : Bytes) : Option Bytes :=
  if name.contains Path.slash then
    if machine.files.exists? shell.directory name then some name else none
  else if name.isEmpty then none
  else (searchPaths shell name).find? (machine.files.isExecutable shell.directory)

def findScript (shell : Shell) (machine : Machine) (name : Bytes) : Option Bytes :=
  let isFile (path : Bytes) : Bool :=
    match machine.files.find? shell.directory path with
    | .ok (.file ..) => true
    | _ => false
  if name.contains Path.slash then some name else (searchPaths shell name).find? isFile

/-- Why no file in the search path is one for a name. -/
def searchFault (shell : Shell) (machine : Machine) (name : Bytes) : Bytes :=
  let causes := (searchPaths shell name).filterMap fun path =>
    match machine.files.find? shell.directory path with
    | .ok _ => some FileCause.denied
    | .error cause => if cause = .notFound ∨ cause = .notDirectory then none else some cause
  match causes.getLast? with
  | some cause => utf8 cause.message
  | none => utf8 "not found"

/-- Defines what names of commands stand for, or shows it. -/
def aliasCommand (arguments : List Bytes) : Step Nat := do
  let shown (entry : Bytes × Bytes) : Bytes := line [entry.1, utf8 "=", quote entry.2]
  let shell ← get
  if arguments.isEmpty then
    print ((shell.aliases.mergeSort fun a b => row a.1 ≤ row b.1).flatMap shown)
  else
    let mut status := 0
    for text in arguments do
      let name := Bytes.before '='.toUInt8 text
      if name.length < text.length && !name.isEmpty then
        modify fun shell =>
          let others := shell.aliases.filter (·.1 != name)
          { shell with aliases := (name, text.drop (name.length + 1)) :: others }
      else match (← get).aliases.lookup text with
        | some value => let _ ← print (shown (text, value))
        | none =>
          let _ ← Act.write 2 (line [utf8 "alias: ", text, utf8 " not found"])
          status := 1
    return status

def unalias (arguments : List Bytes) : Step Nat := do
  let (letters, names) ← options "a" "" arguments
  if hasLetter letters 'a' then modify ({ · with aliases := [] })
  let mut status := 0
  for name in names do
    if ((← get).aliases.lookup name).isNone then
      let _ ← Act.write 2 (line [utf8 "unalias: ", name, utf8 " not found"])
      status := 1
    modify fun shell => { shell with aliases := shell.aliases.filter (·.1 != name) }
  return status

def changedMode? (permissions : Nat) (clause : Bytes) : Option Nat :=
  let who := clause.takeWhile (utf8 "ugoa").contains
  match clause.drop who.length with
  | [] => none
  | sign :: letters =>
    if !(utf8 "+-=").contains sign || !letters.all (utf8 "rwxXst").contains then none
    else
      let bit (c : UInt8) : Nat :=
        if c = 'r'.toUInt8 then 4 else if c = 'w'.toUInt8 then 2
        else if c = 'x'.toUInt8 ∨ c = 'X'.toUInt8 then 1 else 0
      let bits := letters.foldl (fun bits c => bits ||| bit c) 0
      let isFor (letter : Char) : Bool :=
        who.isEmpty || who.contains 'a'.toUInt8 || who.contains letter.toUInt8
      let change (old : Nat) : Nat :=
        if sign = '+'.toUInt8 then old ||| bits
        else if sign = '-'.toUInt8 then old - (old &&& bits)
        else bits
      let part (letter : Char) (unit : Nat) : Nat :=
        let old := permissions / unit % 8
        unit * if isFor letter then change old else old
      some (part 'u' 64 + part 'g' 8 + part 'o' 1)

/-- The permissions that new files do not get. -/
def umask (arguments : List Bytes) : Step Nat := do
  let (letters, rest) ← options "S" "" arguments
  let mask := (← get).mask
  match rest with
  | [] =>
    if hasLetter letters 'S' then
      let group (name : String) (shift : Nat) : Bytes :=
        let has (bit : Nat) : Bool := mask / shift / bit % 2 == 0
        utf8 name ++ utf8 "=" ++ (if has 4 then utf8 "r" else []) ++ (if has 2 then utf8 "w" else []) ++
          if has 1 then utf8 "x" else []
      print (line [group "u" 64, utf8 ",", group "g" 8, utf8 ",", group "o" 1])
    else
      let digits := (Nat.toDigits 8 mask).map Char.toUInt8
      print (line [List.replicate (4 - digits.length) '0'.toUInt8, digits])
  | text :: _ =>
    if text.head?.any Bytes.isDigit then
      if !text.all Bytes.isOctal then fail (utf8 "Illegal number: " ++ text)
      modify ({ · with mask := Bytes.valueIn 8 text % 512 })
    else
      let change (permissions : Option Nat) (clause : Bytes) : Option Nat :=
        permissions.bind fun permissions => changedMode? permissions clause
      match (Bytes.fields ','.toUInt8 text).foldl change (some (511 - mask)) with
      | some permissions => modify ({ · with mask := 511 - permissions })
      | none => fail (utf8 "Illegal mode: " ++ text)
    return 0

/-- The builtin commands. Those that run others are left to the evaluation of scripts. -/
def all : List Builtin :=
  let nothing (_ : List Bytes) : Step Nat := return 0
  [{ name := ".", special := true, run := nothing },
   { name := ":", special := true, run := nothing },
   { name := "[", run := test true },
   { name := "alias", assigns := true, run := aliasCommand },
   { name := "bg", run := fun _ => fail (utf8 "No current job") },
   { name := "break", special := true, run := leave .leave },
   { name := "cd", run := cd },
   { name := "chdir", run := cd },
   { name := "command", run := nothing },
   { name := "continue", special := true, run := leave .again },
   { name := "echo", run := fun arguments => print (Format.echo arguments) },
   { name := "eval", special := true, run := nothing },
   { name := "exec", special := true, run := nothing },
   { name := "exit", special := true, run := exit },
   { name := "export", special := true, assigns := true
     run := mark "export" (·.exported) ({ · with exported := true }) },
   { name := "false", run := fun _ => return 1 },
   { name := "fg", run := fun _ => fail (utf8 "No current job") },
   { name := "getopts", run := nextOption },
   { name := "hash", run := nothing },
   { name := "jobs", run := jobs },
   { name := "kill", run := kill },
   { name := "local", special := true, assigns := true, run := localVariables },
   { name := "printf", run := printf },
   { name := "pwd", run := pwd },
   { name := "read", run := readLine },
   { name := "readonly", special := true, assigns := true
     run := mark "readonly" (·.fixed) ({ · with fixed := true }) },
   { name := "return", special := true, run := return_ },
   { name := "set", special := true, run := setCommand },
   { name := "shift", special := true, run := shift },
   { name := "test", run := test false },
   { name := "times", special := true
     run := fun _ => print (utf8 "0m0.000000s 0m0.000000s\n0m0.000000s 0m0.000000s\n") },
   { name := "trap", special := true, run := trap },
   { name := "true", run := nothing },
   { name := "type", run := nothing },
   { name := "ulimit"
     run := fun arguments =>
       if arguments.any (·.head?.any (· != '-'.toUInt8)) then return 0 else print (utf8 "unlimited\n") },
   { name := "umask", run := umask },
   { name := "unalias", run := unalias },
   { name := "unset", special := true, run := unset },
   { name := "wait", run := wait }]

def find? (name : Bytes) : Option Builtin := all.find? fun builtin => utf8 builtin.name = name

/-- What a name stands for, in a sentence or in short. -/
def describe (wordy : Bool) (name : Bytes) : Step Nat := do
  let shell ← get
  let say (short : Bytes) (long : String) : Step Nat :=
    print (line [if wordy then name ++ utf8 long else short])
  if ScriptReader.keywords.any (utf8 · = name) then say name " is a shell keyword"
  else if let some value := shell.aliases.lookup name then
    print (line [if wordy then name ++ utf8 " is an alias for " ++ value
      else utf8 "alias " ++ name ++ utf8 "=" ++ quote value])
  else if (shell.functions.lookup name).isSome then say name " is a shell function"
  else if let some builtin := find? name then
    say name (if builtin.special then " is a special shell builtin" else " is a shell builtin")
  else match ← Act.look fun machine => findProgram shell machine name with
    | some path => print (line [if wordy then name ++ utf8 " is " ++ path else path])
    | none =>
      if wordy then let _ ← Act.write 1 (line [name, utf8 ": not found"])
      return 127

end Builtin

end ShellCompletion
