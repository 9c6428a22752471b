import ShellCompletion.Command.Utility.Text
import ShellCompletion.System.Signals

/-!
# Utilities for processes

The standard programs that start other ones, in a changed environment or for a limited time, and those
that wait, send signals or tell about the system.
-/
namespace ShellCompletion.Utility

/-! ## Durations -/

/-- The seconds in the unit of time that a letter stands for. -/
def unitSeconds? (c : UInt8) : Option Nat :=
  if c = 's'.toUInt8 then some 1
  else if c = 'm'.toUInt8 then some 60
  else if c = 'h'.toUInt8 then some 3600
  else if c = 'd'.toUInt8 then some 86400
  else none

/-- A duration in microseconds that is longer than anybody waits. -/
def forever : Nat := 1000000000000000

/-- The microseconds that a text stands for. -/
def duration? (text : Bytes) : Option Nat :=
  let unit := (text.getLast?).bind unitSeconds?
  let number := if unit.isSome then text.dropLast else text
  let plain := if number.head? = some '+'.toUInt8 then number.drop 1 else number
  if Bytes.lower plain = utf8 "infinity" ∨ Bytes.lower plain = utf8 "inf" then some forever
  else match readDecimal number with
    | none => none
    | some ⟨.negSucc _, _⟩ => none
    | some ⟨.ofNat units, places⟩ =>
      let scaled := units * (1000000 * unit.getD 1)
      let divisor := Nat.pow 10 places
      some (min forever ((scaled + divisor - 1) / divisor))

def sleep : Utility := fun call =>
  call.withOptions {} 1 fun given => do
    match given.operands with
    | [] => call.misuse (utf8 "missing operand") 1
    | words =>
      let wrong := words.filter fun word => (duration? word).isNone
      if wrong.isEmpty then
        let total := (words.filterMap duration?).foldl (· + ·) 0
        if forever ≤ total then Act.hang
        else
          Act.sleep total
          return 0
      else
        for word in wrong do call.complain (utf8 "invalid time interval '" ++ word ++ utf8 "'")
        call.misuse [] 1

/-! ## Starting others -/

/-- Lets the program of a command take the place of the process. -/
def replaceBy (call : Call) (environment : Environment) (directory : Bytes) (words : List Bytes)
    (fault : Bytes → FileCause → Act Unit) : Act Nat := do
  let name := words.headD []
  let cause ← call.launch.search directory environment name words
  fault name cause
  return if cause = .notFound then 127 else 126

/-- What is said about a command that cannot be run. -/
def runFault (call : Call) (name : Bytes) (cause : FileCause) : Act Unit :=
  call.complain (utf8 "failed to run command " ++ quotedName name ++ utf8 ": " ++ utf8 cause.message)

def splitWords : (fuel : Nat) → (quote : Option UInt8) → (word : Option Bytes) → Bytes → List Bytes
  | 0, _, word, _ => word.toList
  | _, _, word, [] => word.toList
  | fuel + 1, quote, word, c :: rest =>
    let add (c : UInt8) : Option Bytes := some (word.getD [] ++ [c])
    match quote with
    | some mark =>
      if c = mark then splitWords fuel none (some (word.getD [])) rest
      else splitWords fuel quote (add c) rest
    | none =>
      if c = 39 ∨ c = 34 then splitWords fuel (some c) (some (word.getD [])) rest
      else if c = 92 then splitWords fuel none (rest.head?.bind add) (rest.drop 1)
      else if Bytes.isSpace c then
        match word with
        | some word => word :: splitWords fuel none none rest
        | none => splitWords fuel none none rest
      else splitWords fuel none (add c) rest

/-- The arguments with a first one that holds several cut into those. -/
def withoutBundle (arguments : List Bytes) : List Bytes :=
  match arguments with
  | (45 :: 83 :: text) :: rest =>
    if text.isEmpty then
      match rest with
      | text :: rest => splitWords text.length none none text ++ rest
      | [] => arguments
    else splitWords text.length none none text ++ rest
  | _ => arguments

def shownEntry (entry : Bytes × Bytes) : Bytes := entry.1 ++ utf8 "=" ++ entry.2

def env : Utility := fun call => do
  let table : OptionTable :=
    { flags := "i0v", valued := "uC", anywhere := false
      long := [("ignore-environment", 'i'), ("null", '0'), ("unset", 'u'), ("chdir", 'C')] }
  ({ call with arguments := withoutBundle call.arguments } : Call).withOptions table 125 fun given => do
    let isDash := given.operands.head? == some (utf8 "-")
    let operands := if isDash then given.operands.drop 1 else given.operands
    let start := if given.has 'i' || isDash then { entries := [] } else call.environment
    let removed := (given.options.filter (·.1 == 'u'.toUInt8)).foldl
      (fun environment option => environment.unset option.2) start
    let isAssignment (word : Bytes) : Bool := word.contains '='.toUInt8
    let environment := (operands.takeWhile isAssignment).foldl (fun environment word =>
      let name := Bytes.before '='.toUInt8 word
      environment.set name (word.drop (name.length + 1))) removed
    let words := operands.dropWhile isAssignment
    let directory := match given.value? 'C' with
      | some path => Path.append call.directory path
      | none => call.directory
    if words.isEmpty then
      call.print (environment.entries.flatMap fun entry =>
        shownEntry entry ++ if given.has '0' then [0] else [10])
    else if !(← Act.look fun machine => machine.files.isDirectory [Path.slash] directory) then
      call.complain (utf8 "cannot change directory to " ++ quotedName ((given.value? 'C').getD []) ++
        utf8 ": No such file or directory")
      return 125
    else
      replaceBy call environment directory words fun name cause => do
        call.complain (quotedName name ++ utf8 ": " ++ utf8 cause.message)
        if cause = .notFound ∧ name.any Bytes.isSpace then
          call.complain (utf8 "use -[v]S to pass options in shebang lines")

def printenv : Utility := fun call =>
  call.withOptions { flags := "0" } 2 fun given => do
    let ending : Bytes := if given.has '0' then [0] else [10]
    match given.operands with
    | [] => call.print (call.environment.entries.flatMap fun entry => shownEntry entry ++ ending)
    | names =>
      let values := names.filterMap call.environment.get?
      call.print (values.flatMap (· ++ ending)) (if values.length = names.length then 0 else 1)

/-- Starts a command without anything changed that can be seen. -/
def wrapped (valued : String) : Utility := fun call =>
  call.withOptions { flags := "cfw", valued, anywhere := false } 125 fun given => do
    match given.operands with
    | [] => call.misuse (utf8 "missing operand") 125
    | words => replaceBy call call.environment call.directory words (runFault call)

def nohup : Utility := fun call =>
  call.withOptions { anywhere := false } 125 fun given => do
    match given.operands with
    | [] => call.misuse (utf8 "missing operand") 125
    | words =>
      Act.change fun machine => machine.update machine.current fun process =>
        { process with ignored := 1 :: process.ignored.filter (· != 1) }
      replaceBy call call.environment call.directory words (runFault call)

/-- The signal of a name or number. -/
def signalOf? (text : Bytes) : Option Nat :=
  if Bytes.allDigits text then
    if Bytes.digitsValue text < 65 then some (Bytes.digitsValue text) else none
  else
    let upper := Bytes.upper text
    let name := if (utf8 "SIG").isPrefixOf upper then upper.drop 3 else upper
    (Signal.all.find? (utf8 ·.shortName = name)).map (·.number)

/-- The processes that come from one, and itself. -/
def family (machine : Machine) (number : Nat) : List Nat :=
  machine.processes.foldl (fun found process =>
    if found.contains process.parent then found ++ [process.number] else found) [number]

def sendAll (signal : Nat) (numbers : List Nat) : Act Unit :=
  numbers.forM fun number => do let _ ← Act.send signal number

/-- Runs a command, which is ended if it takes too long. -/
def timeout : Utility := fun call => do
  let table : OptionTable :=
    { flags := "pfv", valued := "sk", anywhere := false
      long := [("signal", 's'), ("kill-after", 'k'), ("preserve-status", 'p'), ("foreground", 'f'),
        ("verbose", 'v')] }
  call.withOptions table 125 fun given => do
    let text := given.operands.headD []
    let words := given.operands.drop 1
    let signal := signalOf? ((given.value? 's').getD (utf8 "TERM"))
    let patience := duration? ((given.value? 'k').getD (utf8 "0"))
    if words.isEmpty then call.misuse [] 125
    else match duration? text, signal, patience with
      | none, _, _ => call.misuse (utf8 "invalid time interval '" ++ text ++ utf8 "'") 125
      | _, none, _ => call.misuse (quotedName ((given.value? 's').getD []) ++ utf8 ": invalid signal") 125
      | _, _, none =>
        call.misuse (utf8 "invalid time interval '" ++ (given.value? 'k').getD [] ++ utf8 "'") 125
      | some limit, some signal, some patience =>
        let child ← Act.fork
          (replaceBy call call.environment call.directory words (runFault call))
        let hasEnded (machine : Machine) : Bool := !machine.isAlive child
        let wait (limit : Nat) : Act Unit :=
          if limit = 0 ∨ forever ≤ limit then Act.waitUntil hasEnded
          else Act.waitAtMost limit hasEnded
        let finish (signal : Nat) : Act Unit := do
          let numbers ← Act.look fun machine => family machine child
          sendAll signal numbers
          if signal = 9 then let _ ← Act.send 9 (← Act.self)
          if !Machine.irresistible.contains signal then sendAll Machine.continuing numbers
        wait limit
        if ← Act.look hasEnded then return (← Act.join child).status
        else
          finish signal
          wait patience
          let isLate := !(← Act.look hasEnded)
          if isLate then finish 9
          let ending ← Act.join child
          return if given.has 'p' then ending.status
            else if isLate || signal == 9 then 137 else 124

/-! ## Commands from input -/

def runCommands (call : Call) (status : Nat) : List (List Bytes) → Act Nat
  | [] => return status
  | words :: rest => do
    let ending ← Act.inProcess do
      let _ ← Act.openAt 0 call.directory (utf8 "/dev/null") .read
      replaceBy call call.environment call.directory words fun name cause =>
        call.complain (name ++ utf8 ": " ++ utf8 cause.message)
    match ending with
    | .killed signal =>
      call.complain (words.headD [] ++ utf8 ": terminated by signal " ++ Bytes.decimal signal)
      return 125
    | .exited 0 => runCommands call status rest
    | .exited 255 =>
      call.complain (words.headD [] ++ utf8 ": exited with status 255; aborting")
      return 124
    | .exited code =>
      if code = 126 ∨ code = 127 then return code else runCommands call 123 rest

def piecesOf {α : Type} (length : Nat) : (fuel : Nat) → List α → List (List α)
  | 0, _ => []
  | _, [] => []
  | fuel + 1, items => items.take length :: piecesOf length fuel (items.drop length)

/-- Puts a text in the place of each part that is equal to a mark. -/
def replaceMark (mark text : Bytes) : (fuel : Nat) → Bytes → Bytes
  | 0, s => s
  | _, [] => []
  | fuel + 1, c :: rest =>
    if !mark.isEmpty && mark.isPrefixOf (c :: rest) then
      text ++ replaceMark mark text fuel ((c :: rest).drop mark.length)
    else c :: replaceMark mark text fuel rest

def xargs : Utility := fun call => do
  let table : OptionTable :=
    { flags := "0rtx", valued := "nILdsP", anywhere := false
      long := [("null", '0'), ("no-run-if-empty", 'r'), ("max-args", 'n'), ("delimiter", 'd'),
        ("max-lines", 'L'), ("max-procs", 'P')] }
  call.withOptions table 1 fun given => do
    let command := if given.operands.isEmpty then [utf8 "echo"] else given.operands
    let text := (← Act.readAll 0).toOption.getD []
    let delimiter := if given.has '0' then some 0 else (given.value? 'd').bind fun text =>
      (Format.unescape { afterZero := false } text.length text).1.head?
    let parts (c : UInt8) : List Bytes :=
      let parts := Bytes.fields c text
      if parts.getLast? = some [] then parts.dropLast else parts
    let number (letter : Char) : Option Nat := (given.value? letter).map Bytes.digitsValue
    let words := match delimiter with
      | some c => parts c
      | none => splitWords text.length none none text
    match given.value? 'I' with
    | some mark =>
      let lines : List Bytes := match delimiter with
        | some c => parts c
        | none => ((linesOf text).map (·.dropWhile Bytes.isBlank)).filter (!·.isEmpty)
      runCommands call 0 (lines.map fun line => command.map fun word =>
        replaceMark mark line (word.length + 1) word)
    | none =>
      let groups := match number 'n', number 'L' with
        | some n, _ => piecesOf (max 1 n) words.length words
        | none, some n =>
          (piecesOf (max 1 n) text.length ((linesOf text).filter (!·.isEmpty))).map fun lines =>
            lines.flatMap fun line => splitWords line.length none none line
        | none, none => if words.isEmpty then [] else [words]
      let groups := if groups.isEmpty && !given.has 'r' then [[]] else groups
      runCommands call 0 (groups.map (command ++ ·))

/-! ## Signals and names -/

def kill : Utility := fun call => do
  let (signal, targets) := match call.arguments with
    | (45 :: name) :: rest =>
      if name = utf8 "s" then (signalOf? (rest.headD []), rest.drop 1)
      else if name = utf8 "-" then (some 15, rest)
      else (signalOf? name, rest)
    | words => (some 15, words)
  match signal with
  | none =>
    call.complain (utf8 "unknown signal name " ++ call.arguments.headD [])
    return 1
  | some signal =>
    if targets.isEmpty then return 1
    let mut status := 0
    for target in targets do
      let found ← if Bytes.allDigits target then Act.send signal (Bytes.digitsValue target)
        else pure false
      if !found then
        call.complain (utf8 "(" ++ target ++ utf8 "): No such process")
        status := 1
    return status

def which : Utility := fun call =>
  call.withOptions { flags := "a" } 2 fun given => do
    let tree ← Act.look (·.files)
    let directories :=
      Bytes.fields ':'.toUInt8 ((call.environment.get? (utf8 "PATH")).getD Launch.defaultPath)
    let found (name : Bytes) : List Bytes :=
      let paths := if name.contains Path.slash then [name]
        else directories.map fun place => (if place.isEmpty then Path.dot else place) ++ Path.slash :: name
      let paths := paths.filter (tree.isExecutable call.directory)
      if given.has 'a' then paths else paths.take 1
    call.print (textOfLines (given.operands.flatMap found))
      (if given.operands.any fun name => (found name).isEmpty then 1 else 0)

def userId : Utility := fun call =>
  call.withOptions { flags := "ugGnr" } 1 fun given => do
    let isOne := given.has 'u' || given.has 'g' || given.has 'G'
    call.print (textOfLines [utf8 (if !isOne then "uid=0(root) gid=0(root) groups=0(root)"
      else if given.has 'n' then "root" else "0")])

def whoAmI : Utility := fun call => call.print (textOfLines [utf8 "root"])

/-- Tells the names of the system and of the machine. -/
def uname : Utility := fun call =>
  let table : OptionTable :=
    { flags := "somp"
      long := [("kernel-name", 's'), ("operating-system", 'o'), ("machine", 'm'), ("processor", 'p')] }
  call.withOptions table 1 fun given =>
    match given.operands with
    | word :: _ => call.misuse (utf8 "extra operand " ++ quotedName word) 1
    | [] =>
      let parts := [('s', "Linux"), ('m', "x86_64"), ('p', "unknown"), ('o', "GNU/Linux")].filter fun part =>
        if given.options.isEmpty then part.1 == 's' else given.has part.1
      call.print (textOfLines [Bytes.join [32] (parts.map fun part => utf8 part.2)])

/-- A program that always says the same, if it is called with nothing. -/
def fixedAnswer (lines : List String) : Utility := fun call =>
  call.withOptions {} 1 fun given =>
    match given.operands with
    | word :: _ => call.misuse (utf8 "extra operand " ++ quotedName word) 1
    | [] => call.print (textOfLines (lines.map utf8))

/-- Says which terminal it reads from: there is none. -/
def tty : Utility := fun call =>
  call.withOptions { flags := "s", long := [("silent", 's'), ("quiet", 's')] } 2 fun given =>
    match given.operands with
    | word :: _ => call.misuse (utf8 "extra operand " ++ quotedName word) 2
    | [] => if given.has 's' then return 1 else call.print (utf8 "not a tty\n") 1

/-- Tells the name under which the session was begun: nobody knows. -/
def logname : Utility := fun call =>
  call.withOptions {} 1 fun _ => do
    call.complain (utf8 "no login name")
    return 1

/-! ## Copying blocks -/

/-- How blocks are copied. -/
structure BlockCopy where
  /-- How long the blocks are that are read, and those that are written. -/
  intake : Nat := 512
  outlet : Nat := 512
  /-- What is read is written at once. -/
  direct : Bool := false
  /-- Blocks are read until they are full. -/
  whole : Bool := false
  change : Bytes → Bytes := id

/-- Reads a block, which may come in several parts. `fuel` bounds them. -/
def readBlock (descriptor : Nat) (whole : Bool) : (fuel size : Nat) → Act (Except FileCause Bytes)
  | 0, _ => return .ok []
  | fuel + 1, size => do
    match ← Act.read descriptor size with
    | .error cause => return .error cause
    | .ok bytes =>
      if !whole || bytes.isEmpty || size ≤ bytes.length then return .ok bytes
      else return (← readBlock descriptor whole fuel (size - bytes.length)).map (bytes ++ ·)

def skipBlocks (descriptor size : Nat) : (count : Nat) → Act Unit
  | 0 => return
  | count + 1 => do
    match ← readBlock descriptor true size size with
    | .ok (_ :: _) => skipBlocks descriptor size count
    | _ => return

/-- Copies blocks: how many were full and how many were not, and how many bytes were written. `fuel`
    bounds them. -/
def copyBlocks (copy : BlockCopy) (put : Bytes → Act Bool) (descriptor : Nat) :
    (fuel : Nat) → (count : Option Nat) → (full rest bytes : Nat) → Act (Except FileCause (Nat × Nat × Nat))
  | 0, _, full, rest, bytes => return .ok (full, rest, bytes)
  | fuel + 1, count, full, rest, bytes => do
    if count = some 0 then return .ok (full, rest, bytes)
    match ← readBlock descriptor copy.whole copy.intake copy.intake with
    | .error cause => return .error cause
    | .ok [] => return .ok (full, rest, bytes)
    | .ok block =>
      let isFull := block.length == copy.intake
      let block := copy.change block
      if ← put block then
        copyBlocks copy put descriptor fuel (count.map (· - 1)) (if isFull then full + 1 else full)
          (if isFull then rest else rest + 1) (bytes + block.length)
      else return .ok (full, rest, bytes)

/-- Each two bytes in the other order. -/
def swapped : Bytes → Bytes
  | a :: b :: rest => b :: a :: swapped rest
  | rest => rest

def conversions (size : Nat) : List (String × (Bytes → Bytes)) :=
  [("ucase", Bytes.upper), ("lcase", Bytes.lower), ("swab", swapped),
   ("sync", fun block => block ++ List.replicate (size - block.length) 0),
   ("notrunc", id), ("noerror", id), ("fsync", id), ("fdatasync", id), ("excl", id), ("nocreat", id),
   ("sparse", id)]

/-- What is known about a copy when it has been made. -/
def copyReport (copy : BlockCopy) (full rest bytes : Nat) (isShort : Bool) : Bytes :=
  let records (full rest : Nat) (word : String) : Bytes :=
    Bytes.decimal full ++ utf8 "+" ++ Bytes.decimal rest ++ utf8 " records " ++ utf8 word ++ [10]
  let written := if copy.direct then records full rest "out"
    else records (bytes / copy.outlet) (if bytes % copy.outlet = 0 then 0 else 1) "out"
  records full rest "in" ++ written ++ if isShort then []
    else Bytes.decimal bytes ++ utf8 (if bytes = 1 then " byte" else " bytes") ++ utf8 " copied, 0 s, 0.0 kB/s\n"

/-- Copies a file block by block. -/
def dd : Utility := fun call => do
  let refuse (text : Bytes) : Act Nat := do
    call.complain text
    return 1
  let names := ["bs", "cbs", "conv", "count", "ibs", "if", "iflag", "obs", "of", "oflag", "seek", "skip", "status"]
  let isKnown (word : Bytes) : Bool :=
    word.contains '='.toUInt8 && names.any fun name => utf8 name == Bytes.before '='.toUInt8 word
  if let some word := call.arguments.find? (!isKnown ·) then
    return ← call.misuse (utf8 "unrecognized operand " ++ quotedName word) 1
  let value (name : String) : Option Bytes :=
    ((call.arguments.filter fun word => (utf8 (name ++ "=")).isPrefixOf word).getLast?).map (·.drop (name.length + 1))
  let words (name : String) : List Bytes := (Bytes.fields 44 ((value name).getD [])).filter (!·.isEmpty)
  let isSize (name : String) : Bool := ["bs", "ibs", "obs"].contains name
  let invalid := ["bs", "ibs", "obs", "count", "seek", "skip"].findSome? fun name =>
    (value name).bind fun text => match readExtent true text with
      | some extent => if isSize name && extent.count = 0 then some text else none
      | none => some text
  if let some text := invalid then return ← refuse (utf8 "invalid number: " ++ quotedName text)
  let number (name : String) : Option Nat := ((value name).bind (readExtent true)).map (·.count)
  let intake := (number "bs").getD ((number "ibs").getD 512)
  let outlet := (number "bs").getD ((number "obs").getD 512)
  let known := conversions intake
  if let some word := (words "conv").find? fun word => !known.any (utf8 ·.1 == word) then
    return ← call.misuse (utf8 "invalid conversion: " ++ quotedName word) 1
  let status := (value "status").getD []
  if !status.isEmpty && !(["none", "noxfer", "progress"].any (utf8 · == status)) then
    return ← call.misuse (utf8 "invalid status level: " ++ quotedName status) 1
  let changes := (words "conv").filterMap fun word => (known.find? (utf8 ·.1 == word)).map Prod.snd
  let copy : BlockCopy :=
    { intake, outlet, direct := (number "bs").isSome, whole := (words "iflag").contains (utf8 "fullblock")
      change := fun block => changes.foldl (fun block change => change block) block }
  let source := (value "if").getD (utf8 "-")
  let start := outlet * (number "seek").getD 0
  let keeps := (words "conv").contains (utf8 "notrunc")
  let copyTo (put : Bytes → Act Bool) : Act (Except FileCause (Nat × Nat × Nat)) :=
    call.withInput source fun descriptor => do
      skipBlocks descriptor intake ((number "skip").getD 0)
      copyBlocks copy put descriptor Act.maxText (number "count") 0 0 0
  let machine ← Act.look id
  let old := match (value "of").map fun path => (machine.files.locate call.directory path).toOption.bind machine.tree.node? with
    | some (some (.file content _)) => content
    | _ => []
  if source != utf8 "-" then
    if let .error cause := machine.files.locate call.directory source then
      return ← refuse (utf8 "failed to open " ++ quotedName source ++ utf8 ": " ++ utf8 cause.message)
  let opened ← match value "of" with
    | none => pure (.ok ())
    | some path => Act.openAt 1 call.directory path .write
  match opened with
  | .error cause =>
    refuse (utf8 "failed to open " ++ quotedName ((value "of").getD []) ++ utf8 ": " ++ utf8 cause.message)
  | .ok () =>
    let first := if (value "of").isNone then [] else old.take start ++ List.replicate (start - old.length) 0
    let _ ← if first.isEmpty then pure true else call.put first
    match ← copyTo call.put with
    | .error cause =>
      if (value "of").isSome && keeps then let _ ← call.put (old.drop first.length)
      refuse (utf8 "failed to open " ++ quotedName source ++ utf8 ": " ++ utf8 cause.message)
    | .ok (full, rest, bytes) =>
      if keeps then let _ ← call.put (old.drop (first.length + bytes))
      if status != utf8 "none" then
        let _ ← Act.write 2 (copyReport copy full rest bytes (status == utf8 "noxfer"))
      return 0

/-- The utilities of this kind by name. -/
def processing : List (String × Utility) :=
  [("arch", fixedAnswer ["x86_64"]), ("dd", dd), ("env", env), ("false", fun _ => return 1),
   ("groups", fixedAnswer ["root"]), ("id", userId), ("kill", kill), ("logname", logname),
   ("nice", wrapped "n"), ("nohup", nohup), ("printenv", printenv), ("setsid", wrapped ""),
   ("sleep", sleep), ("stdbuf", wrapped "ioe"), ("sync", fixedAnswer []), ("timeout", timeout),
   ("true", fun _ => return 0), ("tty", tty), ("uname", uname), ("users", fixedAnswer []),
   ("which", which), ("who", fixedAnswer []), ("whoami", whoAmI), ("xargs", xargs)]

end ShellCompletion.Utility
