import ShellCompletion.Command.Regex.Posix
import ShellCompletion.Command.Shell.Extended
import ShellCompletion.Command.Shell.Values

/-!
# Means of running scripts

What the evaluation of scripts is made of: how descriptors are redirected, how programs take the place of
a shell, how processes are waited for, and how loops are left.
-/
namespace ShellCompletion.Shell

/-- How a part of a script is run. -/
structure Mode where
  /-- Somebody looks at whether it fails, so that this does not end the script. -/
  tested : Bool := false
  /-- The process has nothing else to do. -/
  last : Bool := false
  /-- Lines may be shown as they are read. -/
  shown : Bool := false
  /-- A command of the script has the text read. -/
  inner : Bool := false
  /-- A fault that ends what is read at once does not end the rest. -/
  resumes : Bool := false
  /-- The process is a part of a pipeline. -/
  piped : Bool := false
  /-- What is read comes as input, which it shares with the commands. -/
  streams : Bool := false

/-- What a word is expanded for. -/
inductive Use where
  /-- Fields of a command. -/
  | fields
  /-- The value of a variable. -/
  | value
  /-- A single text. -/
  | single
  /-- A single text in which no tilde means anything. -/
  | verbatim
deriving DecidableEq, Repr

/-- A redirection where the words that name something have been expanded. -/
inductive Target where
  | file (descriptor : Nat) (mode : OpenMode) (path : Bytes)
  | duplicate (descriptor source : Nat)
  | close (descriptor : Nat)
  | document (descriptor : Nat) (body : Word)

def Target.descriptor : Target → Nat
  | file descriptor .. => descriptor
  | duplicate descriptor _ => descriptor
  | close descriptor => descriptor
  | document descriptor _ => descriptor

/-- How a loop goes on after its body. -/
inductive Turn where
  | next (status : Nat)
  | again
  | leave

/-- The search path of a shell that is given none. -/
def systemPath : Bytes := utf8 "/usr/local/sbin:/usr/local/bin:/usr/sbin:/usr/bin:/sbin:/bin"

/-- The parts of a parameter's value, or of its values if it is a list. -/
structure Contents where
  values : List Bytes
  /-- It is a list, which may be one text in quotes. -/
  list : Option Bool := none

namespace Contents

def ofOption (value : Option Bytes) : Contents := { values := value.toList }

def isThere (contents : Contents) : Bool := !contents.values.isEmpty

def text (contents : Contents) : Bytes := Bytes.join [32] contents.values

def map (contents : Contents) (change : Bytes → Bytes) : Contents :=
  { contents with values := contents.values.map change }

def parts (contents : Contents) (shell : Shell) (quoted whole : Bool) : List Part :=
  match contents.list with
  | some star => ofValues contents.values (betweenValues shell star) star quoted whole
  | none => ofValue quoted (contents.values.headD [])

end Contents

/-- How many calls of functions may surround one another. -/
def maxCalls (shell : Shell) : Nat := if shell.extended then 2000 else 1000

/-- More steps than any script takes. -/
def manySteps : Nat := 10000000

/-! ## Redirections -/

def openFault (cause : FileCause) (missing : String) : Bytes :=
  if cause = .notFound ∨ cause = .notDirectory then utf8 missing else utf8 cause.message

/-- Makes a descriptor lead to where another one leads; says whether that could be done. -/
def duplicate (descriptor source : Nat) : Step Bool := do
  match ← Act.look (·.descriptors.lookup source) with
  | none =>
    complain (Bytes.decimal source ++ utf8 ": Bad file descriptor")
    return false
  | some channel =>
    Act.change (·.point descriptor channel)
    return true

/-- Opens a file; says whether that could be done. -/
def openFile (descriptor : Nat) (mode : OpenMode) (path : Bytes) : Step Bool := do
  let shell ← get
  match ← Act.openAt descriptor shell.directory path mode with
  | .ok () => return true
  | .error cause =>
    if shell.extended then
      complain (path ++ utf8 ": " ++
        utf8 (if cause = .occupied then "cannot overwrite existing file" else cause.message))
    else if mode.writes then
      complain (utf8 "cannot create " ++ path ++ utf8 ": " ++ openFault cause "Directory nonexistent")
    else complain (utf8 "cannot open " ++ path ++ utf8 ": " ++ openFault cause "No such file")
    return false

/-! ## Programs -/

/-- What is said about a program that cannot be run, and the exit code. -/
def launchFault (cause : FileCause) : Bytes × Nat :=
  match cause with
  | .notFound | .notDirectory => (utf8 "not found", 127)
  | .nameTooLong | .tooManyLinks => (utf8 cause.message, 127)
  | cause => (utf8 cause.message, 126)

/-- What is said in the extended language about a file that cannot be run, and the exit code. -/
def fileFault (machine : Machine) (directory path : Bytes) (cause : FileCause) : Bytes × Nat :=
  match cause, machine.files.find? directory path with
  | .notFound, .ok _ => (utf8 "cannot execute: required file not found", 127)
  | .notFound, _ | .notDirectory, _ => (utf8 cause.message, 127)
  | _, .ok .directory => (utf8 "Is a directory", 126)
  | cause, _ => (utf8 cause.message, 126)

/-- The path of the file that a name leads to in the extended language: of one that can be run, or else
    of one that cannot. -/
def pathFor? (shell : Shell) (machine : Machine) (name : Bytes) : Option Bytes :=
  if name.contains Path.slash then some name
  else (Builtin.findProgram shell machine name).or (Builtin.findScript shell machine name)

def environmentFor (shell : Shell) (path : Bytes) (leaves : Bool) : Environment :=
  let level := utf8 "SHLVL"
  let shell := if leaves then
      match shell.binding? level with
      | some entry =>
        let depth := Bytes.digitsValue (entry.value.getD [])
        shell.store { entry with value := some (Bytes.decimal (depth - 1)) }
      | none => shell
    else shell
  let entries := shell.environment.entries.filter (·.1 != utf8 "_")
  { entries := entries ++ [(utf8 "_", path)] }

/-- The file is a script that does not say what reads it. -/
def isBareScript (content : Bytes) : Bool :=
  !(utf8 "#!").isPrefixOf content && !([127, 69, 76, 70] : Bytes).isPrefixOf content

/-- Lets a program take the place of a shell of the extended language. A script that does not say what
    reads it is read by such a shell. -/
def replaceExtended {α : Type} (launch : Launch) (leaves : Bool) (shown : Option Bytes)
    (words : List Bytes) : Step α := do
  let shell ← get
  let name := words.headD []
  match ← Act.look fun machine => pathFor? shell machine name with
  | none =>
    complain (name ++ utf8 (if shell.command.isSome then ": not found" else ": command not found"))
    throw (.failure 127)
  | some path =>
    let environment := environmentFor shell path leaves
    let node ← Act.look fun machine => machine.files.find? shell.directory path
    let bare := match node with
      | .ok (.file content true) => if isBareScript content then some content else none
      | _ => none
    let words := (shown.getD name) :: words.drop 1
    let isBinary := bare.any fun content => ((Bytes.before 10 content).take 80).contains 0
    let cause ← match bare with
      | none => (launch shell.directory environment path words : Act FileCause)
      | some _ =>
        if isBinary then pure FileCause.denied
        else (launch shell.directory environment (utf8 "/bin/bash")
          (utf8 "bash" :: path :: words.drop 1) : Act FileCause)
    let (text, status) ← Act.look fun machine =>
      if isBinary then (utf8 "cannot execute binary file: Exec format error", 126)
      else fileFault machine shell.directory path cause
    complain (path ++ utf8 ": " ++ text)
    throw (.failure status)

/-- Lets a program take the place of the shell. -/
def replaceBy {α : Type} (launch : Launch) (leaves : Bool) (words : List Bytes) : Step α := do
  let shell ← get
  if shell.extended then return ← replaceExtended launch leaves none words
  let name := words.headD []
  let paths := if name.contains Path.slash then [name] else Builtin.searchPaths shell name
  let cause ← launch.first shell.directory shell.environment words .notFound paths
  let (text, status) := launchFault cause
  complain (name ++ utf8 ": " ++ text)
  throw (Stop.failure status)

/-- The shell of a process that has just been started by another one. -/
def forChild (shell : Shell) : Shell :=
  let isKept (trap : Nat × Bytes) : Bool := trap.2.isEmpty ||
    (trap.1 == Builtin.errorTrap && shell.hasOption 'E')
  { shell with
    traps := shell.traps.filter isKept, jobs := [], interrupted := none, depth := shell.depth + 1 }

def putInBackground (number : Nat) (processes : List Nat) : Step Unit := modify fun shell =>
  { shell with jobs := { number, processes } :: shell.jobs, background := processes.getLast? }

/-- Makes ready a process that runs in the background: it has no input, and is not disturbed. -/
def detach (directory : Bytes) (hasInput : Bool) : Act Unit := do
  let ignored ← Act.look fun machine =>
    ((machine.process? machine.current).map (·.ignored)).getD []
  Act.meetSignals (ignored ++ [2, 3]) []
  if !hasInput then let _ ← Act.openAt 0 directory (utf8 "/dev/null") .read

/-- The texts of words, as they are shown before a command is run. -/
def showCommand (assigned : List (Bytes × Bytes)) (fields : List Bytes) : Step Unit := do
  let shell ← get
  if shell.hasOption 'x' && shell.extended then
    let start := (shell.value? (utf8 "PS4")).getD []
    for (name, value) in assigned do
      let _ ← Act.write 2 (start ++ name ++ utf8 "=" ++ Quoted.listed value ++ utf8 "\n")
    if !fields.isEmpty then
      let _ ← Act.write 2 (start ++ Bytes.join (utf8 " ") (fields.map Quoted.traced) ++ utf8 "\n")
  else if shell.hasOption 'x' then
    let words := assigned.map (fun (name, value) => name ++ utf8 "=" ++ value) ++ fields
    let start := (shell.value? (utf8 "PS4")).getD []
    let _ ← Act.write 2 (start ++ Bytes.join (utf8 " ") words ++ utf8 "\n")

/-! ## Waiting and loops -/

/-- Waits for processes, and gives the exit code of the last one; or of the last one that has failed, if
    that is wanted. -/
def joinAll (processes : List Nat) : Step Nat := do
  let endings ← (processes.mapM Act.join : Act _)
  reap
  let shell ← get
  let last := ((endings.getLast?).map Ending.status).getD 0
  if shell.extended then
    let statuses := endings.map Ending.status
    set { shell with statuses }
    let failed := (statuses.filter (· != 0)).getLast?.getD 0
    return if shell.hasSetting "pipefail" then failed else last
  else
    for ending in endings do Builtin.report ending
    return last

/-- Gives the input back what is left of it. -/
def leaveInput (rest : Bytes) : Step Unit := do
  match ← Act.look fun machine => (machine.channel? 0).map Prod.snd with
  | some { endpoint := .file _, .. } => Act.giveBack 0 rest.length
  | some { endpoint := .intake _, .. } => Act.provide 0 rest
  | _ => pure ()

/-- Closes the descriptors of files that stand for scripts, but for those that are kept. -/
def closeChannels (kept : List Nat) : Step Unit := do
  let shell ← get
  let opened := shell.channels.filter (!kept.contains ·)
  if !opened.isEmpty then
    for descriptor in opened do Act.close descriptor
    set { shell with channels := kept }

/-- A time with so many digits behind the point, maybe with minutes before the seconds. -/
def durationText (microseconds places : Nat) (long : Bool) : Bytes :=
  let seconds := microseconds / 1000000
  let fraction := Bytes.decimal (microseconds % 1000000 / 1000)
  let digits := (List.replicate (3 - fraction.length) '0'.toUInt8 ++ fraction).take places
  let behind := if places = 0 then [] else utf8 "." ++ digits
  if long then
    Bytes.decimal (seconds / 60) ++ utf8 "m" ++ Bytes.decimal (seconds % 60) ++ behind ++ utf8 "s"
  else Bytes.decimal seconds ++ behind

/-- What is told about the time that something takes, in a format. -/
def timeText (microseconds : Nat) : Bytes → Bytes
  | [] => []
  | [c] => [c]
  | 37 :: rest =>
    let digit := rest.takeWhile Bytes.isDigit
    let behind := rest.drop digit.length
    let long := behind.head? == some 'l'.toUInt8
    let letter := (if long then behind.drop 1 else behind).headD 37
    let places := if digit.isEmpty then 3 else min 3 (Bytes.digitsValue digit)
    let after := rest.drop (digit.length + if long then 2 else 1)
    let shown :=
      if letter = 'R'.toUInt8 then durationText microseconds places long
      else if letter = 'U'.toUInt8 || letter = 'S'.toUInt8 then durationText 0 places long
      else if letter = 'P'.toUInt8 then utf8 "0.00"
      else [37]
    shown ++ timeText microseconds after
  | c :: rest => c :: timeText microseconds rest
termination_by format => format.length
decreasing_by all_goals (simp; try omega)

/-- The format in which times are told. -/
def timeFormat : Bytes := utf8 "\nreal\t%3lR\nuser\t%3lU\nsys\t%3lS"

/-- The bytes of an expression to match with: those that were quoted stand for themselves. -/
def expressionOf (parts : List Part) : Bytes :=
  parts.flatMap fun part => match part with
    | .byte c true _ => if (utf8 "\\.[]*^$+?()|\x7b\x7d").contains c then [92, c] else [c]
    | .byte c false _ => [c]
    | _ => []

/-- The name, and the subscript in brackets if there is one. -/
def readReference? (text : Bytes) : Option (Bytes × Option Bytes) :=
  let isSpecial := match text with
    | [c] => (utf8 "@*#?-$!0123456789").contains c
    | text => Bytes.allDigits text
  if isSpecial then some (text, none)
  else match Builtin.declared? text with
    | some { name, subscript, value := none, .. } => some (name, subscript)
    | _ => none

/-- Takes a step of a command that a fault only lets fail. -/
def failing (step : Step Nat) : Step Nat := do
  try step
  catch stop => match stop with
    | .discard status | .refuse status => return status
    | stop => throw stop

/-- Counts a loop that surrounds what is run. -/
def inLoop (step : Step Nat) : Step Nat := do
  modify fun shell => { shell with loops := shell.loops + 1 }
  let restore : Step Unit := modify fun shell => { shell with loops := shell.loops - 1 }
  try
    let status ← step
    restore
    return status
  catch stop =>
    restore
    throw stop

/-- Runs a part of a loop. -/
def turn (step : Step Nat) : Step Turn := do
  try return .next (← step)
  catch stop => match stop with
    | .leave (n + 2) => throw (.leave (n + 1))
    | .leave _ => return .leave
    | .again (n + 2) => throw (.again (n + 1))
    | .again _ => return .again
    | stop => throw stop

end ShellCompletion.Shell
