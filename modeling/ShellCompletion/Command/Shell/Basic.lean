import ShellCompletion.Command.Action
import ShellCompletion.Command.Script.Reader

/-!
# Shells

The state of a process that runs scripts: its variables, arguments, functions, traps and jobs. A step
looks at this state and at the machine, and may leave the rest of the script: out of a loop, out of a
function, or to the end.

A shell speaks the plain language or the extended one. In the extended one variables may be arrays, and
most faults only end the command in which they are found.
-/
namespace ShellCompletion

/-- The elements of an array. -/
inductive Elements where
  /-- By number, in order. -/
  | row (entries : List (Nat × Bytes))
  /-- By name, in the order in which they are gone through. -/
  | table (entries : List (Bytes × Bytes))
deriving DecidableEq, Repr

namespace Elements

def hash (name : Bytes) : Nat :=
  (name.foldl (fun (sum : UInt32) c => (sum * 16777619) ^^^ c.toUInt32) 2166136261).toNat

def place (name : Bytes) : Nat := hash name % 1024

def values : Elements → List Bytes
  | row entries => entries.map Prod.snd
  | table entries => entries.map Prod.snd

def keys : Elements → List Bytes
  | row entries => entries.map (Bytes.decimal ·.1)
  | table entries => entries.map Prod.fst

def setRow (n : Nat) (value : Bytes) (entries : List (Nat × Bytes)) : List (Nat × Bytes) :=
  entries.filter (·.1 < n) ++ (n, value) :: entries.filter (n < ·.1)

/-- A new name comes before those that have its place. -/
def setTable (name value : Bytes) (entries : List (Bytes × Bytes)) : List (Bytes × Bytes) :=
  if entries.any (·.1 = name) then
    entries.map fun entry => if entry.1 = name then (name, value) else entry
  else entries.filter (place ·.1 < place name) ++ (name, value) ::
    entries.filter (place name ≤ place ·.1)

/-- The element that a name or number tells. -/
def get? (elements : Elements) (key : Bytes) : Option Bytes :=
  match elements with
  | row entries => entries.lookup (Bytes.digitsValue key)
  | table entries => entries.lookup key

def set (elements : Elements) (key value : Bytes) : Elements :=
  match elements with
  | row entries => row (setRow (Bytes.digitsValue key) value entries)
  | table entries => table (setTable key value entries)

def erase (elements : Elements) (key : Bytes) : Elements :=
  match elements with
  | row entries => row (entries.filter (·.1 != Bytes.digitsValue key))
  | table entries => table (entries.filter (·.1 != key))

/-- The number after the last one of a row. -/
def next : Elements → Nat
  | row entries => (entries.getLast?.map (·.1 + 1)).getD 0
  | table _ => 0

/-- The texts as a row. -/
def ofList (values : List Bytes) : Elements :=
  row (values.zipIdx.map fun (value, index) => (index, value))

end Elements

structure Variable where
  name : Bytes
  /-- There may be none yet, if only it is to be exported. An array that has been set has an empty one. -/
  value : Option Bytes
  exported : Bool := false
  fixed : Bool := false
  /-- The elements, if it is an array. -/
  elements : Option Elements := none
  /-- A value is that of an expression. -/
  integer : Bool := false
  /-- The letters of a value are all in upper case, or in lower case. -/
  upper : Option Bool := none
  /-- The value is the name of another variable, which is meant. -/
  reference : Bool := false

/-- The value of a variable; of an array, that is the first element. -/
def Variable.text? (entry : Variable) : Option Bytes :=
  match entry.elements with
  | some elements => elements.get? (utf8 "0")
  | none => entry.value

/-- Commands that run while the script goes on. -/
structure Job where
  number : Nat
  /-- The processes, of which the last one counts. -/
  processes : List Nat
  /-- How the last process ended, if that has been learned. -/
  ending : Option Ending := none
  /-- The script has asked for that. -/
  waited : Bool := false

/-- What the command that is running has put aside, to have it back after it. -/
structure Locals where
  entries : List (Bytes × Option Variable) := []
  options : Option Bytes := none

/-- A command that the script defines. -/
structure Function where
  body : Script
  /-- The file in which it is defined. -/
  source : Bytes := []

/-- A function or a script that is running. -/
structure Caller where
  name : Bytes
  /-- The line from which it was called. -/
  line : Nat
  /-- The file that it comes from. -/
  source : Bytes
  /-- It is a function. -/
  isFunction : Bool := true

structure Shell where
  /-- The name of the script. -/
  name : Bytes
  /-- It speaks the extended language. -/
  extended : Bool := false
  arguments : List Bytes
  bindings : List Variable := []
  /-- What the commands that are running have put aside, the inmost one first. -/
  locals : List Locals := []
  functions : List (Bytes × Function) := []
  aliases : List (Bytes × Bytes) := []
  directory : Bytes
  /-- The letters of the options that are on. -/
  options : Bytes := []
  /-- What is run when a signal has come; nothing if it is ignored. The end is signal zero. -/
  traps : List (Nat × Bytes) := []
  /-- The jobs, the last one first. -/
  jobs : List Job := []
  /-- The process that was last put in the background. -/
  background : Option Nat := none
  /-- The exit code of the last command. -/
  status : Nat := 0
  /-- The exit code of the last script whose output was put into a word. -/
  substituted : Nat := 0
  /-- The exit code from before the trap that is running. -/
  interrupted : Option Nat := none
  /-- How many loops and functions surround what is running. -/
  loops : Nat := 0
  calls : Nat := 0
  line : Nat := 1
  /-- The search path that stands in for the one that is set. -/
  standardPath : Option Bytes := none
  /-- The builtin command that is running. -/
  command : Option Bytes := none
  /-- The process of the whole script. -/
  root : Nat
  mask : Nat := 18
  /-- Where in a cluster of options the next one is. -/
  optionOffset : Nat := 0
  /-- The names of more options that are on, and of those that are on at the start and off now. -/
  settings : List Bytes := []
  /-- What is running, the inmost one first. -/
  callers : List Caller := []
  /-- The directories to go back to. -/
  directories : List Bytes := []
  /-- How many shells of the same script surround this one. -/
  depth : Nat := 0
  /-- From when the seconds count, in microseconds. -/
  start : Int := 0
  /-- The script is a text among the arguments. -/
  fromText : Bool := false
  /-- The file of the script. -/
  script : Option Bytes := none
  /-- The exit codes of the commands of the last pipeline. -/
  statuses : List Nat := [0]
  /-- The descriptors of the files that stand for scripts. -/
  channels : List Nat := []
  /-- The last random number before it is cut. -/
  seed : Nat := 1

/-- How the rest of a script is left. -/
inductive Stop where
  /-- Out of so many loops. -/
  | leave (loops : Nat)
  /-- On with a loop so far out. -/
  | again (loops : Nat)
  /-- Out of a function, or a script that is read by another one. -/
  | fromFunction (status : Nat)
  | exit (status : Nat)
  /-- After a fault that ends the script. -/
  | failure (status : Nat)
  /-- After a fault that ends what is read at once: the script goes on behind it. -/
  | discard (status : Nat)
  /-- After a fault that ends only the builtin command. -/
  | refuse (status : Nat)

/-- The status with which a script ends that is left. -/
def Stop.status (shell : Shell) : Stop → Nat
  | .fromFunction status | .exit status | .failure status | .discard status | .refuse status => status
  | .leave _ | .again _ => shell.status

abbrev Step := ExceptT Stop (StateT Shell Act)

namespace Shell

/-! ## Variables -/

/-- The name of the variable that is meant by a name. `fuel` bounds the references. -/
def follow (shell : Shell) : (fuel : Nat) → (name : Bytes) → Bytes
  | 0, name => name
  | fuel + 1, name =>
    match shell.bindings.find? (·.name = name) with
    | some { reference := true, value := some target, .. } =>
      if target.isEmpty then name else shell.follow fuel target
    | _ => name

def binding? (shell : Shell) (name : Bytes) : Option Variable :=
  shell.bindings.find? (·.name = name)

def value? (shell : Shell) (name : Bytes) : Option Bytes :=
  (shell.binding? name).bind (·.text?)

/-- Puts a variable in the stead of the one of that name. -/
def store (shell : Shell) (entry : Variable) : Shell :=
  if shell.bindings.any (·.name = entry.name) then
    { shell with bindings := shell.bindings.map fun other =>
        if other.name = entry.name then entry else other }
  else { shell with bindings := shell.bindings ++ [entry] }

def forget (shell : Shell) (name : Bytes) : Shell :=
  { shell with bindings := shell.bindings.filter (·.name != name) }

def putBack (shell : Shell) (name : Bytes) : Option Variable → Shell
  | some entry => shell.store entry
  | none => shell.forget name

/-- The row of a table in which variables of that name are kept. -/
def row (name : Bytes) : Nat :=
  name.foldl (fun sum c => sum + c.toNat) (16 * (name.headD 0).toNat) % 39

/-- The variables in the order in which programs get them. -/
def listed (shell : Shell) : List Variable :=
  if shell.extended then
    let last := utf8 "_"
    let (ends, others) := shell.bindings.partition (·.name = last)
    others.reverse.mergeSort (fun a b => Elements.place a.name ≤ Elements.place b.name) ++ ends
  else shell.bindings.mergeSort fun a b => row a.name ≤ row b.name

def environment (shell : Shell) : Environment :=
  { entries := shell.listed.filterMap fun entry =>
      if entry.exported && entry.elements.isNone then entry.value.map ((entry.name, ·)) else none }

def defaultSeparators : Bytes := utf8 " \t\n"

def separators (shell : Shell) : Bytes := (shell.value? (utf8 "IFS")).getD defaultSeparators

/-- The letters of the options in the order in which they are shown. -/
def optionLetters : Bytes := utf8 "ubaCEVvxsnmiIfe"

def hasOption (shell : Shell) (letter : Char) : Bool := shell.options.contains letter.toUInt8

def hasSetting (shell : Shell) (name : String) : Bool := shell.settings.contains (utf8 name)

/-- The trap that is run at the end. -/
def exitTrap? (shell : Shell) : Option Bytes := (shell.traps.lookup 0).filter (!·.isEmpty)

def quote (text : Bytes) : Bytes :=
  let mark : Bytes := [39]
  let parts := Bytes.fields 39 text
  mark ++ Bytes.join (utf8 "'\"'\"'") parts ++ mark

/-! ## Steps -/

/-- Says something about a fault. -/
def complain (text : Bytes) : Step Unit := do
  let shell ← get
  let command := match shell.command with
    | some name => name ++ utf8 ": "
    | none => []
  let place := if shell.extended then utf8 "line " else []
  let source := match shell.callers with
    | caller :: _ => caller.source
    | [] => shell.name
  let line := source ++ utf8 ": " ++ place ++ Bytes.decimal shell.line ++ utf8 ": " ++ command ++
    text ++ utf8 "\n"
  let _ ← Act.write 2 line

/-- Says something about a fault, which ends the script or a command of it. -/
def fail {α : Type} (text : Bytes) : Step α := do
  complain text
  throw (if (← get).extended then .discard 1 else .failure 2)

/-- The same with another exit code in the extended language. -/
def failWith {α : Type} (status : Nat) (text : Bytes) : Step α := do
  complain text
  throw (if (← get).extended then .discard status else .failure 2)

/-- Says something about a fault that ends the builtin command. -/
def refuse {α : Type} (status : Nat) (text : Bytes) : Step α := do
  complain text
  throw (.refuse status)

/-- Says something about a fault that always ends the script. -/
def failAll {α : Type} (text : Bytes) : Step α := do
  complain text
  let shell ← get
  throw (.failure (if !shell.extended then 2 else if shell.fromText && shell.depth == 0 then 127 else 1))

/-- Writes to the standard output for a builtin command, whose exit code comes back. -/
def print (text : Bytes) (status : Nat := 0) : Step Nat := do
  match ← Act.write 1 text with
  | .ok () => return status
  | .error cause =>
    if cause ≠ .brokenPipe then
      let name := match (← get).command with
        | some name => name ++ utf8 ": "
        | none => []
      complain (name ++ utf8 "I/O error")
    return 1

/-- Says that the value of a variable may not change. -/
def failFixed {α : Type} (name : Bytes) : Step α := do
  if (← get).extended then
    modify ({ · with command := none })
    fail (name ++ utf8 ": readonly variable")
  else fail (name ++ utf8 ": is read only")

/-- Gives a variable a value; of an array, it is that of the first element. -/
def assign (name value : Bytes) : Step Unit := do
  let shell ← get
  let name := shell.follow 8 name
  match shell.binding? name with
  | some entry =>
    if entry.fixed then failFixed name
    else
      let value := match entry.upper with
        | some true => Bytes.upper value
        | some false => Bytes.lower value
        | none => value
      let elements := entry.elements.map (·.set (utf8 "0") value)
      set (shell.store { entry with
        value := some value, elements, exported := entry.exported || shell.hasOption 'a' })
  | none => set (shell.store { name, value := some value, exported := shell.hasOption 'a' })
  if name = utf8 "OPTIND" then modify ({ · with optionOffset := 0 })
  if shell.extended then
    let n := ((Bytes.readInteger value).getD 0).toNat
    if name = utf8 "RANDOM" then modify ({ · with seed := n })
    else if name = utf8 "SECONDS" then
      let now ← Act.look (·.now)
      modify ({ · with start := (now : Int) - 1000000 * n })

/-- Gives a variable elements. -/
def assignElements (name : Bytes) (elements : Elements) : Step Unit := do
  let shell ← get
  let name := shell.follow 8 name
  match shell.binding? name with
  | some entry =>
    if entry.fixed then failFixed name
    else set (shell.store { entry with value := some [], elements := some elements })
  | none => set (shell.store { name, value := some [], elements := some elements })

/-- Puts a variable aside for the command that is running. -/
def putAside (name : Bytes) : Step Unit := do
  let shell ← get
  match shell.locals with
  | [] => pure ()
  | frame :: outer =>
    if !frame.entries.any (·.1 = name) then
      let entries := (name, shell.binding? name) :: frame.entries
      set { shell with locals := { frame with entries } :: outer }

/-- Puts the options aside for the command that is running. -/
def keepOptions : Step Unit := modify fun shell =>
  match shell.locals with
  | [] => shell
  | frame :: outer =>
    let options := some (frame.options.getD shell.options)
    { shell with locals := { frame with options } :: outer }

/-- Puts back what the inmost command has put aside. -/
def leaveLocals (shell : Shell) : Shell :=
  match shell.locals with
  | [] => shell
  | frame :: outer =>
    let options := frame.options.getD shell.options
    frame.entries.foldl (fun shell entry => shell.putBack entry.1 entry.2)
      { shell with locals := outer, options }

/-- Takes a step, after which what it puts aside comes back. -/
def withLocals {α : Type} (step : Step α) : Step α := do
  modify fun shell => { shell with locals := {} :: shell.locals }
  let restore : Step Unit := modify leaveLocals
  try
    let result ← step
    restore
    return result
  catch stop =>
    restore
    throw stop

/-! ## Variables with a meaning -/

def nextRandom (seed : Nat) : Nat :=
  let seed := if seed = 0 then 123459876 else seed
  seed * 16807 % 2147483647

/-- The elements of the arrays that tell about the shell. -/
def specialElements? (shell : Shell) (name : Bytes) : Option Elements :=
  let is (text : String) : Bool := name = utf8 text
  if !shell.extended then none
  else if is "PIPESTATUS" then some (.ofList (shell.statuses.map Bytes.decimal))
  else if is "FUNCNAME" then
    if shell.callers.any (·.isFunction) then
      some (.ofList (shell.callers.map (·.name) ++ shell.script.toList.map fun _ => utf8 "main"))
    else some (.ofList [])
  else if is "BASH_SOURCE" then some (.ofList (shell.callers.map (·.source) ++ shell.script.toList))
  else if is "BASH_LINENO" then
    some (.ofList (shell.callers.map (Bytes.decimal ·.line) ++ shell.script.toList.map fun _ => utf8 "0"))
  else if is "DIRSTACK" then some (.ofList (shell.directory :: shell.directories))
  else if is "GROUPS" then some (.ofList [utf8 "0"])
  else none

/-- The value of a variable, of which some are made when they are asked for. -/
def special (name : Bytes) : Step (Option Bytes) := do
  let shell ← get
  let is (text : String) : Bool := name = utf8 text
  let decimal (n : Nat) : Option Bytes := some (Bytes.decimal n)
  let name := shell.follow 8 name
  if !shell.extended then return shell.value? name
  else if is "LINENO" then return decimal shell.line
  else if is "BASH_SUBSHELL" then return decimal shell.depth
  else if is "BASHPID" then return decimal (← Act.self)
  else if is "SECONDS" then
    let now ← Act.look (·.now)
    return some (Bytes.decimalInt (((now : Int) - shell.start).fdiv 1000000))
  else if is "EPOCHSECONDS" then return some (Bytes.decimalInt ((← Act.look (·.clock)).fdiv 1000000))
  else if is "EPOCHREALTIME" then
    let clock ← Act.look (·.clock)
    let rest := Bytes.decimal (clock.fmod 1000000).toNat
    return some (Bytes.decimalInt (clock.fdiv 1000000) ++
      '.'.toUInt8 :: List.replicate (6 - rest.length) '0'.toUInt8 ++ rest)
  else if is "RANDOM" || is "SRANDOM" then
    let seed := nextRandom shell.seed
    set { shell with seed }
    return decimal ((seed / 65536 ^^^ seed % 65536) % 32768)
  else match shell.specialElements? name with
    | some elements => return elements.get? (utf8 "0")
    | none => return shell.value? name

/-! ## Jobs -/

/-- The first number for a new job, and the jobs without one that is over and forgotten then. -/
def freeJob (jobs : List Job) : (fuel number : Nat) → Nat × List Job
  | 0, number => (number, jobs)
  | fuel + 1, number =>
    match jobs.find? (·.number = number) with
    | none => (number, jobs)
    | some job =>
      if job.waited && job.ending.isSome then (number, jobs.filter (·.number != number))
      else freeJob jobs fuel (number + 1)

/-- Makes room for a job, whose number comes back. -/
def claimJob : Step Nat := do
  let shell ← get
  let (number, jobs) := freeJob shell.jobs shell.jobs.length 1
  set { shell with jobs }
  return number

/-- Learns which jobs have ended. -/
def reap : Step Unit := do
  let shell ← get
  let jobs ← Act.access fun machine => shell.jobs.foldl (fun (jobs, machine) job =>
    if job.ending.isNone && job.processes.all (!machine.isAlive ·) then
      let ending := ((job.processes.getLast?).bind machine.endingOf?).getD (.exited 127)
      (jobs ++ [{ job with ending := some ending }], job.processes.foldl Machine.forget machine)
    else (jobs ++ [job], machine)) (([] : List Job), machine)
  set { shell with jobs }

/-! ## Descriptors -/

def restoring {α : Type} (descriptors : List Nat) (step : Step α) : Step α := do
  let kept ← (descriptors.eraseDups.mapM Act.saveDescriptor : Act _)
  let restore : Act Unit := kept.forM Act.restoreDescriptor
  try
    let result ← step
    restore
    return result
  catch stop =>
    restore
    throw stop

end Shell

end ShellCompletion
