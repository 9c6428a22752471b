import ShellCompletion.Command.Shell.Texts

/-!
# Builtin commands of the extended language

The commands that go to directories, leave loops and functions, meet signals, wait for jobs, and tell what
names stand for; and the table of all builtin commands of the extended language.
-/
namespace ShellCompletion.Builtin

open Shell

/-! ## Directories -/

/-- Goes to a directory that an argument names, or says why not. -/
def enter (path : Bytes) (physical : Bool) : Step Unit := do
  let shell ← get
  if !path.isEmpty then
    if !(← goTo path physical) then
      let cause ← Act.look fun machine => match machine.files.locate shell.directory path with
        | .ok _ => FileCause.notDirectory
        | .error cause => cause
      refuse 1 (path ++ utf8 ": " ++ utf8 cause.message)

def cdExtended (arguments : List Bytes) : Step Nat := do
  let (letters, rest) ← options "LPe@" "" arguments
  if 1 < rest.length then refuse 1 (utf8 "too many arguments")
  let physical := letters.getLast?.any (·.1 == 'P'.toUInt8)
  let shell ← get
  let needed (name : String) : Step Bytes := match shell.value? (utf8 name) with
    | some path => return path
    | none => refuse 1 (utf8 name ++ utf8 " not set")
  match rest with
  | [] =>
    enter (← needed "HOME") physical
    return 0
  | target :: _ =>
    if target = utf8 "-" then
      enter (← needed "OLDPWD") physical
      print (line [(← get).directory])
    else
      let dotted := Path.isAbsolute target ||
        (Path.names target).head?.any fun name => name == Path.dot || name == Path.dotDot
      let tree ← Act.look (·.files)
      let bases := if dotted then [] else match shell.value? (utf8 "CDPATH") with
        | some bases => Bytes.fields ':'.toUInt8 bases
        | none => []
      let found := (bases.map fun base => (base, Path.append base target)).find? fun entry =>
        tree.isDirectory shell.directory entry.2
      match found with
      | some (base, path) =>
        enter path physical
        if base.isEmpty then return 0 else print (line [(← get).directory])
      | none =>
        enter target physical
        return 0

/-- A directory as it is listed: with a tilde for the home directory. -/
def shortPath (shell : Shell) (long : Bool) (path : Bytes) : Bytes :=
  match if long then none else shell.value? (utf8 "HOME") with
  | none => path
  | some home =>
    if home.isEmpty || home == [Path.slash] then path
    else if path = home then utf8 "~"
    else if (home ++ [Path.slash]).isPrefixOf path then utf8 "~" ++ path.drop home.length
    else path

def listDirectories (shell : Shell) : Bytes :=
  line [Bytes.join (utf8 " ") ((shell.directory :: shell.directories).map (shortPath shell false))]

/-- The place in the list of directories that an argument counts, from the left or from the right. -/
def stackPlace? (count : Nat) (text : Bytes) : Option Nat :=
  match text with
  | sign :: digits =>
    if !Bytes.allDigits digits then none
    else
      let n := Bytes.digitsValue digits
      if sign = '+'.toUInt8 then some n
      else if sign = '-'.toUInt8 then some (if n < count then count - 1 - n else count)
      else none
  | [] => none

def dirs (arguments : List Bytes) : Step Nat := do
  let shell ← get
  let all := shell.directory :: shell.directories
  let isPlace (word : Bytes) : Bool := (stackPlace? all.length word).isSome
  let letters := (arguments.filter fun word => !isPlace word).flatMap (·.drop 1)
  let long := letters.contains 'l'.toUInt8
  if letters.contains 'c'.toUInt8 then
    set { shell with directories := [] }
    return 0
  let shown := all.map (shortPath shell long)
  match arguments.findSome? (stackPlace? all.length) with
  | some place =>
    match shown[place]? with
    | some path => print (line [path])
    | none => refuse 1 (utf8 "directory stack index out of range")
  | none =>
    if letters.contains 'v'.toUInt8 then
      print (shown.zipIdx.flatMap fun (path, index) =>
        line [Format.pad { width := 2 } [] (Bytes.decimal index) false, utf8 "  ", path])
    else if letters.contains 'p'.toUInt8 then print (shown.flatMap fun path => line [path])
    else print (line [Bytes.join (utf8 " ") shown])

/-- Goes to a directory and keeps the one that was left. -/
def pushd (arguments : List Bytes) : Step Nat := do
  let stays := arguments.head? == some (utf8 "-n")
  let arguments := arguments.filter fun word => word != utf8 "-n" && word != utf8 "--"
  let shell ← get
  let all := shell.directory :: shell.directories
  let goBehind (target : Bytes) (others : List Bytes) : Step Nat := do
    enter target false
    modify ({ · with directories := others })
    print (listDirectories (← get))
  match arguments with
  | [] =>
    match shell.directories with
    | [] => refuse 1 (utf8 "no other directory")
    | next :: rest => goBehind next (shell.directory :: rest)
  | word :: _ =>
    match stackPlace? all.length word with
    | some place =>
      if all.length ≤ place then refuse 1 (word ++ utf8 ": directory stack index out of range")
      let turned := all.drop place ++ all.take place
      goBehind (turned.headD []) (turned.drop 1)
    | none =>
      if stays then
        modify fun shell => { shell with directories := logicalPath shell.directory word :: shell.directories }
        print (listDirectories (← get))
      else goBehind word (shell.directory :: shell.directories)

/-- Goes back to a directory that was kept. -/
def popd (arguments : List Bytes) : Step Nat := do
  let stays := arguments.contains (utf8 "-n")
  let arguments := arguments.filter (· != utf8 "-n")
  let shell ← get
  let all := shell.directory :: shell.directories
  if shell.directories.isEmpty then refuse 1 (utf8 "directory stack empty")
  let place := (arguments.head?.bind (stackPlace? all.length)).getD (if stays then 1 else 0)
  if all.length ≤ place then
    refuse 1 (arguments.headD [] ++ utf8 ": directory stack index out of range")
  if place = 0 then
    enter (shell.directories.headD []) false
    modify ({ · with directories := shell.directories.drop 1 })
  else modify ({ · with directories := shell.directories.eraseIdx (place - 1) })
  print (listDirectories (← get))

/-! ## Control -/

def integer (text : Bytes) (stop : Stop) : Step Int := do
  match Bytes.readInteger ((text.reverse.dropWhile Bytes.isSpace).reverse) with
  | some n => return n
  | none =>
    complain (text ++ utf8 ": numeric argument required")
    throw stop

def shiftExtended (arguments : List Bytes) : Step Nat := do
  let arguments := if arguments.head? = some (utf8 "--") then arguments.drop 1 else arguments
  let count ← match arguments with
    | [] => pure 1
    | text :: _ => integer text (.refuse 1)
  let shell ← get
  if count < 0 then refuse 1 (Bytes.decimalInt count ++ utf8 ": shift count out of range")
  if shell.arguments.length < count.toNat then return 1
  set { shell with arguments := shell.arguments.drop count.toNat, optionOffset := 0 }
  return 0

/-- The status that an integer means. -/
def statusOf (n : Int) : Nat := (n % 256).toNat

def exitExtended (arguments : List Bytes) : Step Nat := do
  let shell ← get
  match arguments with
  | [] => throw (.exit (shell.interrupted.getD shell.status))
  | [text] => throw (.exit (statusOf (← integer text (.exit 2))))
  | text :: _ =>
    let _ ← integer text (.exit 2)
    complain (utf8 "too many arguments")
    throw (.discard 1)

def returnExtended (arguments : List Bytes) : Step Nat := do
  let shell ← get
  if shell.callers.isEmpty then
    refuse 2 (utf8 "can only " ++ 96 :: utf8 "return' from a function or sourced script")
  match arguments with
  | [] => throw (.fromFunction shell.status)
  | text :: _ => throw (.fromFunction (statusOf (← integer text (.fromFunction 2))))

def leaveExtended (stop : Nat → Stop) (arguments : List Bytes) : Step Nat := do
  let loops := (← get).loops
  if loops = 0 then
    let text := "only meaningful in a " ++ String.singleton (Char.ofNat 96) ++
      "for', " ++ String.singleton (Char.ofNat 96) ++ "while', or " ++
      String.singleton (Char.ofNat 96) ++ "until' loop"
    complain (utf8 text)
    return 0
  let count ← match arguments with
    | [] => pure 1
    | text :: _ => integer text (.exit 128)
  if count ≤ 0 then
    complain (Bytes.decimalInt count ++ utf8 ": loop count out of range")
    modify ({ · with status := 1 })
    throw (.leave loops)
  throw (stop (min count.toNat loops))

/-! ## Signals and jobs -/

/-- The events beside signals at which something can be run, with numbers behind those of signals. -/
def debugTrap : Nat := 65
def errorTrap : Nat := 66
def returnTrap : Nat := 67

def eventName (number : Nat) : Bytes :=
  if number = 0 then utf8 "EXIT"
  else if number = debugTrap then utf8 "DEBUG"
  else if number = errorTrap then utf8 "ERR"
  else if number = returnTrap then utf8 "RETURN"
  else if number = 16 then utf8 "SIGSTKFLT"
  else utf8 "SIG" ++ signalName number

/-- The signal or event of a name or number. -/
def eventOf? (text : Bytes) : Option Nat :=
  if Bytes.allDigits text then
    if Bytes.digitsValue text < 65 then some (Bytes.digitsValue text) else none
  else
    let name := Bytes.upper text
    (List.range 68).find? fun number =>
      let known := eventName number
      name == known || utf8 "SIG" ++ name == known

def signalTable : Bytes :=
  let numbers := (List.range 65).filter fun n => 0 < n && n != 32 && n != 33
  (numbers.zipIdx.flatMap fun (number, index) =>
    let ending := if index % 5 = 4 then utf8 "\n" else utf8 "\t"
    Format.pad { width := 2 } [] (Bytes.decimal number) false ++ utf8 ") " ++ eventName number ++ ending) ++
  utf8 "\n"

def trapLine (entry : Nat × Bytes) : Bytes :=
  line [utf8 "trap -- ", Quoted.single entry.2, utf8 " ", eventName entry.1]

def trapExtended (arguments : List Bytes) : Step Nat := do
  let (letters, words) ← options "lp" "" arguments
  let sorted := (← get).traps.mergeSort fun a b => a.1 ≤ b.1
  let setTrap (number : Nat) (action : Option Bytes) : Step Unit := modify fun shell =>
    let others := shell.traps.filter (·.1 != number)
    { shell with traps := match action with
        | none => others
        | some action => others ++ [(number, action)] }
  if hasLetter letters 'l' then print signalTable
  else if hasLetter letters 'p' || words.isEmpty then
    if words.isEmpty then print (sorted.flatMap trapLine)
    else
      let mut status := 0
      for word in words do
        match eventOf? word with
        | none =>
          complain (word ++ utf8 ": invalid signal specification")
          status := 1
        | some number =>
          if let some entry := sorted.find? (·.1 = number) then let _ ← print (trapLine entry)
      return status
  else
    let first := words.headD []
    let resets := words.length = 1 || Bytes.allDigits first
    if words.length = 1 && (eventOf? first).isNone then
      if first = utf8 "-" || first.isEmpty then
        let _ ← Act.write 2 (usage (utf8 "trap"))
        return 2
    let action := if resets || first == utf8 "-" then none else some first
    let mut status := 0
    for word in if resets then words else words.drop 1 do
      match eventOf? word with
      | none =>
        complain (word ++ utf8 ": invalid signal specification")
        status := 1
      | some number => setTrap number action
    meetSignals
    return status

def sendExtended (signal : Nat) (text : Bytes) : Step Nat := do
  if text.head? = some '%'.toUInt8 then
    match jobOf? (← get) text with
    | none =>
      complain (text ++ utf8 ": no such job")
      return 1
    | some job =>
      for number in job.processes do let _ ← Act.send signal number
      return 0
  else
    let digits := if text.head? = some '-'.toUInt8 then text.drop 1 else text
    if !Bytes.allDigits digits then
      complain (text ++ utf8 ": arguments must be process or job IDs")
      return 1
    else if digits = text && (← Act.send signal (Bytes.digitsValue text)) then return 0
    else if text = utf8 "0" then
      for process in ← Act.look (·.processes) do let _ ← Act.send signal process.number
      return 0
    else
      complain (utf8 "(" ++ text ++ utf8 ") - No such process")
      return 1

/-- The name of a signal for its number or for an exit code, or its number for its name. -/
def signalFor (text : Bytes) : Step Nat := do
  if Bytes.allDigits text then
    let n := Bytes.digitsValue text
    let number := if 128 < n then n - 128 else n
    if number < 65 then print (line [if number = 0 then utf8 "EXIT" else (eventName number).drop 3])
    else refuse 1 (text ++ utf8 ": invalid signal specification")
  else match eventOf? text with
    | some number => print (line [Bytes.decimal number])
    | none => refuse 1 (text ++ utf8 ": invalid signal specification")

def killExtended (arguments : List Bytes) : Step Nat := do
  let known (text : Bytes) : Step Nat := match eventOf? text with
    | some number => return number
    | none => refuse 1 (text ++ utf8 ": invalid signal specification")
  let misused : Step Nat := do
    let _ ← Act.write 2 (usage (utf8 "kill"))
    return 2
  match arguments with
  | [] => misused
  | first :: rest =>
    if first = utf8 "-l" ∨ first = utf8 "-L" then
      if rest.isEmpty then print signalTable
      else
        let mut status := 0
        for text in rest do status := max status (← signalFor text)
        return status
    else
      let (signal, targets) ←
        if first = utf8 "-s" ∨ first = utf8 "-n" then do
          match rest with
          | [] => refuse 1 (first ++ utf8 ": option requires an argument")
          | name :: targets => pure (← known name, targets)
        else if first = utf8 "--" then pure (15, rest)
        else if first.head? = some '-'.toUInt8 && 1 < first.length then do
          pure (← known (first.drop 1), rest)
        else pure (15, arguments)
      let targets := if targets.head? = some (utf8 "--") then targets.drop 1 else targets
      if targets.isEmpty then return ← misused
      let mut status := 0
      for target in targets do
        if (← sendExtended signal target) ≠ 0 then status := 1
      return status

/-- Waits for jobs, or for the next one to end. -/
def waitExtended (arguments : List Bytes) : Step Nat := do
  let (letters, words) ← options "fn" "p" arguments
  let tell (process : Nat) : Step Unit := match letters.find? (·.1 == 'p'.toUInt8) with
    | some (_, name) => giveTo name (Bytes.decimal process)
    | none => return
  let statusOf (number : Nat) : Step Nat := do
    let job := (← get).jobs.find? (·.number = number)
    if let some job := job then tell (job.processes.getLast?.getD 0)
    return ((job.bind (·.ending)).map Ending.status).getD 127
  if hasLetter letters 'n' then
    reap
    let shell ← get
    let meant := if words.isEmpty then shell.jobs else words.filterMap (jobOf? shell)
    let open_ := meant.filter (!·.waited)
    if open_.isEmpty then return 127
    let isOver (machine : Machine) (job : Job) : Bool :=
      job.ending.isSome || job.processes.all (!machine.isAlive ·)
    Act.waitUntil fun machine => open_.any (isOver machine) || isInterrupted machine
    let ended ← Act.look fun machine => open_.reverse.find? (isOver machine)
    reap
    match ended with
    | none => return ← interruptedStatus
    | some job =>
      modify fun shell => { shell with jobs := shell.jobs.map fun other =>
        if other.number = job.number then { other with waited := true } else other }
      let status ← statusOf job.number
      modify fun shell => { shell with jobs := shell.jobs.filter (·.number != job.number) }
      return status
  match words with
  | [] =>
    if ← waitFor fun _ => true then return ← interruptedStatus
    modify fun shell => { shell with jobs := shell.jobs.filter (·.ending.isNone) }
    return 0
  | words =>
    let mut status := 0
    for word in words do
      match jobOf? (← get) word with
      | none =>
        if word.head? = some '%'.toUInt8 then complain (word ++ utf8 ": no such job")
        else if Bytes.allDigits word then
          complain (utf8 "pid " ++ word ++ utf8 " is not a child of this shell")
        else complain (96 :: word ++ utf8 "': not a pid or valid job spec")
        status := 127
      | some job =>
        if ← waitFor (·.number = job.number) then return ← interruptedStatus
        status := ← statusOf job.number
    return status

def jobsExtended (arguments : List Bytes) : Step Nat := do
  let (letters, _) ← options "lnprsx" "" arguments
  if hasLetter letters 'p' then
    reap
    let running := (← get).jobs.reverse.filter (·.ending.isNone)
    print (running.flatMap fun job => line [Bytes.decimal (job.processes.headD 0)])
  else jobs []

/-! ## Options of scripts -/

/-- Takes the next option of arguments. The index stays until the last letter of a cluster. -/
def getoptsExtended (arguments : List Bytes) : Step Nat := do
  match arguments with
  | spec :: name :: words =>
    let shell ← get
    if !isName name then refuse 1 (notName name)
    let words := if words.isEmpty then shell.arguments else words
    let index := (Bytes.digitsValue ((shell.value? (utf8 "OPTIND")).getD (utf8 "1"))).max 1
    let silent := spec.head? == some ':'.toUInt8
    let spec := if silent then spec.drop 1 else spec
    let tells := !silent && (shell.value? (utf8 "OPTERR")) != some (utf8 "0")
    let finish (index offset : Nat) (letter : UInt8) (value : Option Bytes) (status : Nat) : Step Nat := do
      match value with
      | some value => assign (utf8 "OPTARG") value
      | none => modify (·.forget (utf8 "OPTARG"))
      assign (utf8 "OPTIND") (Bytes.decimal index)
      assign name [letter]
      modify ({ · with optionOffset := offset })
      return status
    let say (text : String) (letter : UInt8) : Step Unit := do
      if tells then let _ ← Act.write 2 (line [shell.name, utf8 text, [letter]])
    let word := (words[index - 1]?).getD []
    let inCluster := 0 < shell.optionOffset && shell.optionOffset < word.length
    let ends := words.length < index || (!inCluster && (word.head? != some '-'.toUInt8 || word.length < 2))
    if !inCluster && word = utf8 "--" && index ≤ words.length then
      finish (index + 1) 0 '?'.toUInt8 none 1
    else if ends then finish index 0 '?'.toUInt8 none 1
    else
      let offset := if inCluster then shell.optionOffset else 1
      let letter := word.getD offset 0
      let more := word.drop (offset + 1)
      let (nextIndex, nextOffset) := if more.isEmpty then (index + 1, 0) else (index, offset + 1)
      let after := (spec.dropWhile (· != letter)).drop 1
      if letter = ':'.toUInt8 ∨ !spec.contains letter then
        if silent then finish nextIndex nextOffset '?'.toUInt8 (some [letter]) 0
        else
          say ": illegal option -- " letter
          finish nextIndex nextOffset '?'.toUInt8 none 0
      else if after.head? ≠ some ':'.toUInt8 then finish nextIndex nextOffset letter none 0
      else if !more.isEmpty then finish (index + 1) 0 letter (some more) 0
      else match words[index]? with
        | some value => finish (index + 2) 0 letter (some value) 0
        | none =>
          if silent then finish (index + 1) 0 ':'.toUInt8 (some [letter]) 0
          else
            say ": option requires an argument -- " letter
            finish (index + 1) 0 '?'.toUInt8 none 0
  | _ =>
    let _ ← Act.write 2 (usage (utf8 "getopts"))
    return 2

/-! ## Names -/

/-- The words that commands of the extended language are made of. -/
def extendedKeywords : List String :=
  ["if", "then", "else", "elif", "fi", "case", "esac", "for", "select", "while", "until", "do", "done",
   "in", "function", "time", "\x7b", "\x7d", "!", "[[", "]]", "coproc"]

def aliasExtended (arguments : List Bytes) : Step Nat := do
  let shown (entry : Bytes × Bytes) : Bytes :=
    line [utf8 "alias ", entry.1, utf8 "=", Quoted.single entry.2]
  let (_, words) ← options "p" "" arguments
  if words.isEmpty then
    print (((← get).aliases.mergeSort fun a b => Bytes.le a.1 b.1).flatMap shown)
  else
    let mut status := 0
    for text in words do
      let name := Bytes.before '='.toUInt8 text
      if name.length < text.length && !name.isEmpty then
        modify fun shell =>
          let others := shell.aliases.filter (·.1 != name)
          { shell with aliases := (name, text.drop (name.length + 1)) :: others }
      else match (← get).aliases.lookup text with
        | some value => let _ ← print (shown (text, value))
        | none =>
          complain (text ++ utf8 ": not found")
          status := 1
    return status

def unaliasExtended (arguments : List Bytes) : Step Nat := do
  let (letters, names) ← options "a" "" arguments
  if hasLetter letters 'a' then modify ({ · with aliases := [] })
  let mut status := 0
  for name in names do
    if ((← get).aliases.lookup name).isNone then
      complain (name ++ utf8 ": not found")
      status := 1
    modify fun shell => { shell with aliases := shell.aliases.filter (·.1 != name) }
  return status

/-- What tells from where the running command was called. -/
def caller (arguments : List Bytes) : Step Nat := do
  let shell ← get
  let all := shell.callers ++ shell.script.toList.map fun source =>
    { name := utf8 "main", line := 0, source, isFunction := false }
  let place := (arguments.head?.map Bytes.digitsValue).getD 0
  match shell.callers[place]?, all[place + 1]? with
  | some called, some by_ =>
    if arguments.isEmpty then print (line [Bytes.decimal called.line, utf8 " ", by_.source])
    else print (line [Bytes.decimal called.line, utf8 " ", by_.name, utf8 " ", by_.source])
  | some called, none =>
    if arguments.isEmpty then print (line [Bytes.decimal called.line, utf8 " NULL"]) else return 1
  | none, _ =>
    if arguments.isEmpty && shell.script.isSome then print (line [utf8 "0 NULL"]) else return 1

def umaskExtended (arguments : List Bytes) : Step Nat := do
  let (letters, rest) ← options "pS" "" arguments
  match rest with
  | [] =>
    if hasLetter letters 'p' then
      let _ ← print (utf8 (if hasLetter letters 'S' then "umask -S " else "umask "))
    umask (if hasLetter letters 'S' then [utf8 "-S"] else [])
  | text :: _ =>
    if text.head?.any Bytes.isDigit && !text.all Bytes.isOctal then
      refuse 1 (text ++ utf8 ": octal number out of range")
    umask [text]

/-- Looks for programs by their names. -/
def hash (arguments : List Bytes) : Step Nat := do
  let (letters, names) ← options "lrdt" "p" arguments
  if names.isEmpty then
    if letters.isEmpty then print (utf8 "hash: hash table empty\n") else return 0
  else
    let shell ← get
    let mut status := 0
    for name in names do
      let isOwn := (shell.functions.lookup name).isSome
      match ← Act.look fun machine => findProgram shell machine name with
      | some path => if hasLetter letters 't' then let _ ← print (line [path])
      | none =>
        if !isOwn then
          complain (name ++ utf8 ": not found")
          status := 1
    return status

/-- Shows the words of a list, or the names of a kind, that start so. -/
def completions (arguments : List Bytes) : Step Nat := do
  let (letters, rest) ← options "abcdefgjksuv" "oAGWFCXPS" arguments
  let shell ← get
  let start := rest.headD []
  let valueOf (letter : Char) : Option Bytes :=
    ((letters.filter (·.1 == letter.toUInt8)).getLast?).map Prod.snd
  let isKind (letter : Char) (name : String) : Bool :=
    hasLetter letters letter || valueOf 'A' == some (utf8 name)
  let words := match valueOf 'W' with
    | some list => (list.splitBy fun a b => Bytes.isSpace a == Bytes.isSpace b).filter fun word =>
        !word.head?.any Bytes.isSpace
    | none => []
  let sorted (names : List Bytes) : List Bytes := names.mergeSort Bytes.le
  let words := words ++
    (if isKind 'v' "variable" then sorted (shell.bindings.map (·.name)) else []) ++
    (if isKind 'k' "keyword" then extendedKeywords.map utf8 else []) ++
    (if valueOf 'A' == some (utf8 "function") then sorted (shell.functions.map Prod.fst) else []) ++
    (if isKind 'a' "alias" then sorted (shell.aliases.map Prod.fst) else [])
  let found := words.filter start.isPrefixOf
  print (found.flatMap fun word =>
    line [(valueOf 'P').getD [], word, (valueOf 'S').getD []]) (if found.isEmpty then 1 else 0)

/-! ## The table -/

def allExtended : List Builtin :=
  let nothing (_ : List Bytes) : Step Nat := return 0
  [{ name := ".", passes := true, run := nothing },
   { name := ":", run := nothing },
   { name := "[", run := testExtended true },
   { name := "alias", assigns := true, run := aliasExtended },
   { name := "bg", run := fun _ => refuse 1 (utf8 "no job control") },
   { name := "bind", run := nothing },
   { name := "break", run := leaveExtended .leave },
   { name := "builtin", passes := true, run := nothing },
   { name := "caller", run := caller },
   { name := "cd", run := cdExtended },
   { name := "command", passes := true, run := nothing },
   { name := "compgen", run := completions },
   { name := "complete", run := nothing },
   { name := "compopt", run := nothing },
   { name := "continue", run := leaveExtended .again },
   { name := "declare", assigns := true, run := declare "aAfFgiIlnrtuxp" [] none },
   { name := "dirs", run := dirs },
   { name := "disown", run := nothing },
   { name := "echo", run := echoExtended },
   { name := "enable", run := nothing },
   { name := "eval", passes := true, run := nothing },
   { name := "exec", passes := true, run := nothing },
   { name := "exit", run := exitExtended },
   { name := "export", assigns := true, run := declare "fnp" (utf8 "x") (some false) },
   { name := "false", run := fun _ => return 1 },
   { name := "fg", run := fun _ => refuse 1 (utf8 "no job control") },
   { name := "getopts", run := getoptsExtended },
   { name := "hash", run := hash },
   { name := "history", run := nothing },
   { name := "jobs", run := jobsExtended },
   { name := "kill", run := killExtended },
   { name := "let", run := letCommand },
   { name := "local", assigns := true, run := declare "aAfFgiIlnrtuxp" [] (some true) },
   { name := "mapfile", run := mapfile },
   { name := "popd", run := popd },
   { name := "printf", run := printfExtended },
   { name := "pushd", run := pushd },
   { name := "pwd", run := pwd },
   { name := "read", run := readExtended },
   { name := "readarray", run := mapfile },
   { name := "readonly", assigns := true, run := declare "aAfp" (utf8 "r") (some false) },
   { name := "return", run := returnExtended },
   { name := "set", run := setExtended },
   { name := "shift", run := shiftExtended },
   { name := "shopt", run := shopt },
   { name := "source", passes := true, run := nothing },
   { name := "test", run := testExtended false },
   { name := "times", run := fun _ => print (utf8 "0m0.000s 0m0.000s\n0m0.000s 0m0.000s\n") },
   { name := "trap", run := trapExtended },
   { name := "true", run := nothing },
   { name := "type", passes := true, run := nothing },
   { name := "typeset", assigns := true, run := declare "aAfFgiIlnrtuxp" [] none },
   { name := "ulimit"
     run := fun arguments =>
       if arguments.any (·.head?.any (· != '-'.toUInt8)) then return 0 else print (utf8 "unlimited\n") },
   { name := "umask", run := umaskExtended },
   { name := "unalias", run := unaliasExtended },
   { name := "unset", run := unsetExtended },
   { name := "wait", run := waitExtended }]

def findFor? (shell : Shell) (name : Bytes) : Option Builtin :=
  if shell.extended then allExtended.find? fun builtin => utf8 builtin.name = name
  else find? name

/-! ## What names stand for -/

/-- What a name may stand for: a word for its kind, the sentence that says so, and what the name means in
    short. -/
def meanings (name : Bytes) : Step (List (String × Bytes × Bytes)) := do
  let shell ← get
  let sentence (text : String) : Bytes := name ++ utf8 text
  let keyword := if extendedKeywords.any (utf8 · = name) then
    [("keyword", sentence " is a shell keyword", name)] else []
  let function := if (shell.functions.lookup name).isSome then
    [("function", sentence " is a function", name)] else []
  let builtin := if (findFor? shell name).isSome then
    [("builtin", sentence " is a shell builtin", name)] else []
  let files ← Act.look fun machine =>
    if name.contains Path.slash then
      if machine.files.isExecutable shell.directory name then [name] else []
    else (searchPaths shell name).filter (machine.files.isExecutable shell.directory)
  return keyword ++ function ++ builtin ++
    files.map fun path => ("file", name ++ utf8 " is " ++ path, path)

def typeExtended (arguments : List Bytes) : Step Nat := do
  let (letters, names) ← options "afptP" "" arguments
  let has (letter : Char) : Bool := hasLetter letters letter
  let mut status := 0
  for name in names do
    let all ← meanings name
    let all := if has 'f' then all.filter (·.1 != "function") else all
    let all := if has 'P' then all.filter (·.1 == "file") else all
    let chosen := if has 'a' then all else all.take 1
    if chosen.isEmpty then
      status := 1
      if !has 't' && !has 'p' && !has 'P' then complain (name ++ utf8 ": not found")
    for (kind, sentence, short) in chosen do
      if has 't' then let _ ← print (line [utf8 kind])
      else if has 'p' || has 'P' then
        if kind = "file" then let _ ← print (line [short])
      else let _ ← print (line [sentence])
  return status

/-- What names stand for, in sentences or in short. -/
def describeExtended (wordy : Bool) (names : List Bytes) : Step Nat := do
  let mut found := false
  for name in names do
    match ← meanings name with
    | [] => if wordy then complain (name ++ utf8 ": not found")
    | (_, sentence, short) :: _ =>
      found := true
      let _ ← print (line [if wordy then sentence else short])
  return if found then 0 else 1

end ShellCompletion.Builtin
