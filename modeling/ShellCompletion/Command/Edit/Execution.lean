import ShellCompletion.Command.Edit.Basic
import ShellCompletion.Command.Utility.Commands

/-!
# Editing lines

An editor takes one line after the other from its files, runs the commands for it, and prints what
comes of it. A line that ends its file without a line feed is printed without one, unless something is
printed after it.
-/
namespace ShellCompletion.Edit

/-- How an editor is set up. -/
structure Setup where
  /-- Lines are only printed by commands. -/
  quiet : Bool := false
  /-- Every file has its own line numbers and its own last line. -/
  separate : Bool := false
  /-- The result takes the place of each file; the ending is for what was there before. -/
  inPlace : Option Bytes := none
  /-- The byte that ends lines. -/
  ending : UInt8 := 10
  /-- Where lines that are shown without a doubt are cut. -/
  width : Nat := 70
  /-- Nothing that is printed waits. -/
  prompt : Bool := false

/-- A text, and whether a line feed belongs to it. -/
structure Space where
  text : Bytes := []
  ended : Bool := true

/-- Where lines are printed. -/
structure Sink where
  outlet : Outlet
  /-- All that is printed waits. -/
  holds : Bool := false
  /-- The end of the last line is still to be printed. -/
  owes : Bool := false

/-- What is printed after a line. -/
inductive Queued where
  | text (bytes : Bytes)
  | file (name : Bytes)

/-- The state of an editor. -/
structure Editor where
  call : Call
  setup : Setup
  commands : Array Command
  /-- The files to come. -/
  names : List Bytes
  /-- The file that is read, with its name. -/
  name : Bytes := utf8 "-"
  inlet : Option Inlet := none
  line : Space := {}
  kept : Space := {}
  number : Nat := 0
  sink : Sink
  /-- The files that commands write, and those that they read line by line. -/
  written : List (Bytes × Sink) := []
  readers : List (Bytes × Option Inlet) := []
  queued : List Queued := []
  /-- The ranges that have begun, by command, with the line at which they end if that is known. -/
  ranges : List (Nat × Option Nat) := []
  /-- The ranges that have ended. -/
  closed : List Nat := []
  replaced : Bool := false
  /-- The last expression that was looked for. -/
  lastRegex : Option Regex := none
  /-- The exit code so far. -/
  status : Nat := 0

/-- How an edit goes on after the commands for a line. -/
inductive Turn where
  | next (prints : Bool)
  /-- The commands start again with what is left of the text. -/
  | again
  | quit (prints : Bool) (status : Nat)

abbrev Editing := StateT Editor Act

/-! ## Printing -/

namespace Sink

def put (sink : Sink) (bytes : Bytes) : Act Sink := do
  if sink.holds then
    return { sink with outlet := { sink.outlet with waiting := bytes :: sink.outlet.waiting } }
  else return { sink with outlet := (← sink.outlet.put bytes).1 }

def print (sink : Sink) (ending : UInt8) (bytes : Bytes) : Act Sink :=
  { sink with owes := false }.put (if sink.owes then ending :: bytes else bytes)

def printLine (sink : Sink) (ending : UInt8) (space : Space) : Act Sink := do
  let sink ← sink.print ending (if space.ended then space.text ++ [ending] else space.text)
  return { sink with owes := !space.ended }

def flush (sink : Sink) : Act Sink := do return { sink with outlet := (← sink.outlet.flush).1 }

end Sink

def onSink (file : Option Bytes) (step : Sink → Act Sink) : Editing Unit := do
  let editor ← get
  match file with
  | none =>
    let sink ← step editor.sink
    let sink ← if editor.setup.prompt then sink.flush else pure sink
    set { editor with sink }
  | some name =>
    match editor.written.lookup name with
    | some sink =>
      let sink ← step sink
      let sink ← sink.flush
      set { editor with written := editor.written.map fun (other, kept) =>
        (other, if other = name then sink else kept) }
    | none => set { editor with sink := ← step editor.sink }

def print (bytes : Bytes) : Editing Unit := do
  let ending := (← get).setup.ending
  onSink none (·.print ending bytes)

def printLine (file : Option Bytes) (space : Space) : Editing Unit := do
  let ending := (← get).setup.ending
  onSink file (·.printLine ending space)

def printQueued : Editing Unit := do
  let queued := (← get).queued
  modify ({ · with queued := [] })
  for item in queued do
    match item with
    | .text bytes => print bytes
    | .file name =>
      let call := (← get).call
      let source := if name = utf8 "/dev/stdin" then utf8 "-" else name
      if let .ok content ← call.contentOf source then
        if !content.isEmpty then print content

/-! ## Input -/

def complain (text : Bytes) (status : Nat) : Editing Unit := do
  let editor ← get
  editor.call.complain text
  set { editor with status }

def keptName (suffix name : Bytes) : Bytes :=
  let base := Path.fileName name
  let made := if suffix.contains '*'.toUInt8 then
      suffix.flatMap fun c => if c = '*'.toUInt8 then base else [c]
    else base ++ suffix
  if made.contains Path.slash then made else Bytes.throughLast Path.slash name ++ made

/-- Puts what has been printed in the place of the file that was read. -/
def replaceFile (suffix : Bytes) : Editing Unit := do
  let editor ← get
  let content := editor.sink.outlet.waiting.reverse.flatten
  let call := editor.call
  if !suffix.isEmpty then
    if let .ok old ← call.contentOf editor.name then
      let _ ← call.store (keptName suffix editor.name) old
  let _ ← call.store editor.name content
  set { editor with sink := { outlet := { descriptor := 1 }, holds := true } }

/-- Ends the reading of a file. -/
def closeFile : Editing Unit := do
  let editor ← get
  if let some inlet := editor.inlet then
    if inlet.descriptor ≠ 0 then Act.close inlet.descriptor
    set { editor with inlet := none }
    if let some suffix := editor.setup.inPlace then replaceFile suffix

/-- Opens a file; says whether that could be done. -/
def openFile (name : Bytes) : Editing Bool := do
  let editor ← get
  let call := editor.call
  if editor.setup.inPlace.isSome ∧
      (← Act.look fun machine => machine.files.isDirectory call.directory name) then
    complain (utf8 "couldn't edit " ++ name ++ utf8 ": not a regular file") 4
    return false
  else if name = utf8 "-" ∧ editor.setup.inPlace.isNone then
    set { editor with name, inlet := some { descriptor := 0 } }
    return true
  else
    let descriptor ← Act.freeDescriptor Act.ownDescriptors
    match ← Act.openAt descriptor call.directory name .read with
    | .ok () =>
      set { editor with name, inlet := some { descriptor } }
      return true
    | .error cause =>
      complain (utf8 "can't read " ++ name ++ utf8 ": " ++ utf8 cause.message) 2
      return false

/-- The file that is read has come to its end, or cannot be read. -/
def isFileEmpty (inlet : Inlet) : Editing Bool := do
  match ← inlet.peek with
  | .ok inlet =>
    modify ({ · with inlet := some inlet })
    return inlet.isEmpty
  | .error cause =>
    let name := (← get).name
    complain (utf8 "read error on " ++ (if name = utf8 "-" then utf8 "stdin" else name) ++ utf8 ": " ++
      utf8 cause.message) 4
    modify ({ · with inlet := some { inlet with ended := true }, names := [] })
    return true

/-- Goes on to the first file with something in it, if the one that is read has come to its end; says
    whether there is one. -/
def advance : (fuel : Nat) → Editing Bool
  | 0 => return false
  | fuel + 1 => do
    match (← get).inlet with
    | some inlet =>
      if ← isFileEmpty inlet then
        closeFile
        advance fuel
      else return true
    | none =>
      match (← get).names with
      | [] => return false
      | name :: names =>
        modify ({ · with names })
        if (← openFile name) && (← get).setup.separate then
          modify fun editor =>
            { editor with number := 0, ranges := startRanges editor.commands, closed := [] }
        advance fuel
where
  /-- The ranges that begin before the first line. -/
  startRanges (commands : Array Command) : List (Nat × Option Nat) :=
    (List.range commands.size).filterMap fun index =>
      if (commands[index]?).any (·.fromZero) then some (index, none) else none

/-- How often `advance` can go on. -/
def advanceSteps : Editing Nat := do return 2 * (← get).names.length + 3

def isLastLine : Editing Bool := do
  let editor ← get
  match editor.inlet with
  | none => return !(← advance (← advanceSteps))
  | some inlet =>
    if ← isFileEmpty inlet then
      if editor.setup.separate then return true
      else return !(← advance (← advanceSteps))
    else return false

def readLine (adds : Bool) : Editing Bool := do
  printQueued
  modify ({ · with replaced := (← get).replaced && adds })
  if !(← advance (← advanceSteps)) then return false
  let editor ← get
  match editor.inlet with
  | none => return false
  | some inlet =>
    match ← inlet.nextLine editor.setup.ending with
    | .ok (some (text, ended), inlet) =>
      let text := if adds then editor.line.text ++ editor.setup.ending :: text else text
      set { editor with inlet := some inlet, line := { text, ended }, number := editor.number + 1 }
      return true
    | _ => return false

/-! ## Selecting lines -/

/-- The expression, or the last one that was used. -/
def usedRegex (regex : Option Regex) : Editing (Option Regex) := do
  let editor ← get
  let used := regex.or editor.lastRegex
  set { editor with lastRegex := used }
  return used

def isAt : Address → Editing Bool
  | .number n => do return (← get).number == n
  | .last => isLastLine
  | .regex regex => do
    match ← usedRegex regex with
    | some regex => return regex.accepts (← get).line.text
    | none => return false
  | .steps first step => do
    let number := (← get).number
    return if step = 0 then number == first else first ≤ number && (number - first) % step == 0

def RangeEnd.line? (number : Nat) : RangeEnd → Option Nat
  | .at (.number n) => some n
  | .after count => some (number + count)
  | .multiple step => some (if step = 0 then number else (number / step + 1) * step)
  | _ => none

/-- The line begins a range. A number begins it also when it has been passed over. -/
def begins (index : Nat) (first : Address) (ending : Option Nat) : Editing Bool := do
  let editor ← get
  match first with
  | .number n =>
    if editor.closed.contains index then return editor.number == n
    else return n = editor.number || (n < editor.number && !ending.any (· < editor.number))
  | address => isAt address

/-- A command is for the line; ranges are opened and closed. -/
def selects (index : Nat) (command : Command) : Editing Bool := do
  match command.first, command.second with
  | none, _ => return true
  | some first, none => isAt first
  | some first, some second =>
    let editor ← get
    let close : Editing Unit := modify fun editor =>
      { editor with
        ranges := editor.ranges.filter (·.1 != index), closed := index :: editor.closed }
    match editor.ranges.lookup index with
    | some (some ending) =>
      if ending ≤ editor.number then close
      if editor.number ≤ ending then return true else isAt first
    | some none =>
      let ends ← match second with
        | .at address => isAt address
        | _ => pure true
      if ends then close
      return true
    | none =>
      let ending := second.line? editor.number
      if !(← begins index first ending) then return false
      if ending.any (· ≤ editor.number) then close
      else modify fun editor => { editor with ranges := (index, ending) :: editor.ranges }
      return true

/-! ## Changing the line -/

/-- How letters are changed: the next one, and those after it. -/
structure Casing where
  next : Option CaseChange := none
  rest : CaseChange := .plain

namespace Casing

def change (casing : Casing) : CaseChange → Casing
  | .upperOne => { casing with next := some .upper }
  | .lowerOne => { casing with next := some .lower }
  | change => { casing with rest := change }

def apply : CaseChange → UInt8 → UInt8
  | .upper => Bytes.upperByte
  | .lower => Bytes.lowerByte
  | _ => id

def text (casing : Casing) : Bytes → Bytes
  | [] => []
  | c :: rest =>
    apply (casing.next.getD casing.rest) c :: rest.map (apply casing.rest)

end Casing

/-- What is put in the place of a match. -/
def filled (parts : List Substitute) (text : Bytes) (found : Regex.Match) : Bytes :=
  (parts.foldl (fun (casing, result) part =>
    let add (bytes : Bytes) : Casing × List Bytes :=
      (if bytes.isEmpty then casing else { casing with next := none }, casing.text bytes :: result)
    match part with
    | .text bytes => add bytes
    | .group number => add ((Regex.groupText? text found number).getD [])
    | .change change => (casing.change change, result)) (({} : Casing), ([] : List Bytes))).2.reverse.flatten

/-- The text with matches replaced, and whether there were any. -/
def substituted (substitution : Substitution) (regex : Regex) (text : Bytes) : Bytes × Bool :=
  let found := (Regex.occurrences .longest regex text).drop (substitution.first - 1)
  let found := if substitution.every then found else found.take 1
  let (result, place) := found.foldl (fun (result, place) occurrence =>
    let (start, ending, _) := occurrence
    (filled substitution.parts text occurrence :: (text.drop place).take (start - place) :: result,
      ending)) (([] : List Bytes), 0)
  (result.reverse.flatten ++ text.drop place, !found.isEmpty)

def shownByte (c : UInt8) : Bytes :=
  if c = 92 then [92, 92]
  else if 32 ≤ c ∧ c < 127 then [c]
  else match [(7, 'a'), (8, 'b'), (12, 'f'), (10, 'n'), (13, 'r'), (9, 't'), (11, 'v')].lookup c with
    | some letter => [92, letter.toUInt8]
    | none =>
      let digit (n : Nat) : UInt8 := UInt8.ofNat (48 + n % 8)
      [92, digit (c.toNat / 64), digit (c.toNat / 8), digit c.toNat]

/-- A text as it is shown without a doubt, cut into lines. -/
def shown (width : Nat) (text : Bytes) : Bytes :=
  let (result, _) := text.foldl (fun (result, column) c =>
    let bytes := shownByte c
    if 0 < width ∧ width - 1 < column + bytes.length then (bytes :: [92, 10] :: result, bytes.length)
    else (bytes :: result, column + bytes.length)) (([] : List Bytes), 0)
  result.reverse.flatten ++ utf8 "$\n"

/-! ## Running commands -/

/-- The place after the bracket that closes the one before a place. -/
def skipBlock (commands : Array Command) : (fuel depth index : Nat) → Nat
  | 0, _, index => index
  | fuel + 1, depth, index =>
    match (commands[index]?).map Command.action with
    | none => index
    | some .opening => skipBlock commands fuel (depth + 1) (index + 1)
    | some .closing => if depth = 0 then index + 1 else skipBlock commands fuel (depth - 1) (index + 1)
    | some _ => skipBlock commands fuel depth (index + 1)

def labelPlace (commands : Array Command) (name : Bytes) : Nat :=
  if name.isEmpty then commands.size
  else (commands.findIdx? fun command => match command.action with
    | .label other => other == name
    | _ => false).getD commands.size

/-- What a command prints that a shell runs. -/
def commandOutput (command : Bytes) : Editing Bytes := do
  let editor ← get
  let sink ← editor.sink.flush
  set { editor with sink }
  return (← editor.call.shellOutput command).1

def withoutEnd (ending : UInt8) (text : Bytes) : Bytes :=
  if text.getLast? = some ending then text.dropLast else text

/-- Takes the next line of a file that is read line by line. -/
def lineOf (name : Bytes) : Editing (Option Bytes) := do
  let editor ← get
  let inlet ← match editor.readers.lookup name with
    | some inlet => pure inlet
    | none =>
      if name = utf8 "/dev/stdin" then pure (some { descriptor := 0 })
      else
        let descriptor ← Act.freeDescriptor Act.ownDescriptors
        match ← Act.openAt descriptor editor.call.directory name .read with
        | .ok () => pure (some { descriptor })
        | .error _ => pure none
  let keep (inlet : Option Inlet) : Editing Unit := modify fun editor =>
    { editor with readers := (name, inlet) :: editor.readers.filter (·.1 != name) }
  match inlet with
  | none =>
    keep none
    return none
  | some inlet =>
    match ← inlet.nextLine editor.setup.ending with
    | .ok (line, inlet) =>
      keep (some inlet)
      return line.map Prod.fst
    | .error _ => return none

def setText (text : Bytes) : Editing Unit := modify fun editor =>
  { editor with line := { editor.line with text } }

def queue (item : Queued) : Editing Unit := modify fun editor =>
  { editor with queued := editor.queued ++ [item] }

def substitute (substitution : Substitution) : Editing Unit := do
  match ← usedRegex substitution.regex with
  | none => return
  | some regex =>
    let editor ← get
    let (text, found) := substituted substitution regex editor.line.text
    if !found then return
    modify ({ · with replaced := true })
    setText text
    if substitution.runs then
      setText (withoutEnd editor.setup.ending (← commandOutput text))
    let line := (← get).line
    if substitution.prints then printLine none line
    if let some file := substitution.file then printLine (some file) line

def runSimple (letter : Char) : Editing (Option Turn) := do
  let editor ← get
  let ending := editor.setup.ending
  let text := editor.line.text
  let firstLine := Bytes.before ending text
  match letter with
  | '=' => print (Bytes.decimal editor.number ++ [10])
  | 'd' => return some (.next false)
  | 'D' =>
    if firstLine.length = text.length then return some (.next false)
    setText (text.drop (firstLine.length + 1))
    return some .again
  | 'g' => set { editor with line := editor.kept }
  | 'G' =>
    set { editor with
      line := { editor.kept with text := text ++ ending :: editor.kept.text } }
  | 'h' => set { editor with kept := editor.line }
  | 'H' => set { editor with
      kept := { editor.line with text := editor.kept.text ++ ending :: text } }
  | 'x' => set { editor with line := editor.kept, kept := editor.line }
  | 'z' => setText []
  | 'p' => printLine none editor.line
  | 'P' => print (firstLine ++ [ending])
  | 'F' => print (editor.name ++ [10])
  | 'n' =>
    if ← isLastLine then return some (.next true)
    if !editor.setup.quiet then printLine none (← get).line
    if !(← readLine false) then return some (.next true)
  | 'N' =>
    if ← isLastLine then return some (.next true)
    if !(← readLine true) then return some (.next true)
  | _ => pure ()
  return none

/-- Runs the commands for a line from one on. `fuel` bounds the commands. -/
def runCommands : (fuel index : Nat) → Editing Turn
  | 0, _ => (Act.hang : Act Turn)
  | fuel + 1, index => do
    let commands := (← get).commands
    match commands[index]? with
    | none => return .next true
    | some command =>
      let go : Editing Turn := runCommands fuel (index + 1)
      let goTo (name : Bytes) : Editing Turn := runCommands fuel (labelPlace commands name)
      if (← selects index command) == command.negated then
        match command.action with
        | .opening => runCommands fuel (skipBlock commands commands.size 0 (index + 1))
        | _ => go
      else match command.action with
        | .opening | .closing | .label _ => go
        | .branch name => goTo name
        | .branchIfReplaced name =>
          if (← get).replaced then
            modify ({ · with replaced := false })
            goTo name
          else go
        | .branchUnlessReplaced name =>
          if (← get).replaced then
            modify ({ · with replaced := false })
            go
          else goTo name
        | .append text =>
          queue (.text text)
          go
        | .insert text =>
          print text
          go
        | .change text =>
          let isWithin := !command.negated && ((← get).ranges.lookup index).isSome
          if !isWithin then print text
          return .next false
        | .translate source target =>
          setText ((← get).line.text.map fun c => (target[source.idxOf c]?).getD c)
          go
        | .substitute substitution =>
          substitute substitution
          go
        | .quit prints status => return .quit prints status
        | .readFile name =>
          queue (.file name)
          go
        | .readLine name =>
          if let some line ← lineOf name then queue (.text (line ++ [(← get).setup.ending]))
          go
        | .writeFile name =>
          printLine (some name) (← get).line
          go
        | .writeFirst name =>
          let editor ← get
          printLine (some name)
            { text := Bytes.before editor.setup.ending editor.line.text }
          go
        | .run shellText =>
          if shellText.isEmpty then
            let editor ← get
            setText (withoutEnd editor.setup.ending (← commandOutput editor.line.text))
          else print (← commandOutput shellText)
          go
        | .show width =>
          let editor ← get
          print (shown (width.getD editor.setup.width) editor.line.text)
          go
        | .simple letter =>
          match ← runSimple letter with
          | some turn => return turn
          | none => go

/-- How many commands are run for a line at most. -/
def maxCommands : Nat := 1000000

/-- What is done after the commands for a line. -/
def finishLine (prints : Bool) : Editing Unit := do
  let editor ← get
  if prints && !editor.setup.quiet then printLine none editor.line
  printQueued

/-- Edits the lines that are left, and gives the exit code. `fresh` says that a line is to be read
    first. -/
def runLines : (fuel : Nat) → (fresh : Bool) → Editing Nat
  | 0, _ => (Act.hang : Act Nat)
  | fuel + 1, fresh => do
    let found ← if fresh then readLine false else pure true
    if !found then return (← get).status
    match ← runCommands maxCommands 0 with
    | .next prints =>
      finishLine prints
      runLines fuel true
    | .again =>
      printQueued
      runLines fuel false
    | .quit prints status =>
      if prints then finishLine true
      return status

/-- The files that commands write. -/
def Action.written? : Action → Option Bytes
  | .writeFile name | .writeFirst name => some name
  | .substitute { file := some name, .. } => some name
  | _ => none

/-- Opens the files that commands write, and says which one cannot be opened. -/
def openTargets : List Bytes → Editing (Except Bytes Unit)
  | [] => return .ok ()
  | name :: rest => do
    let editor ← get
    let keep (descriptor : Nat) : Editing Unit :=
      set { editor with written := (name, { outlet := { descriptor } }) :: editor.written }
    if (editor.written.lookup name).isSome then openTargets rest
    else if name = utf8 "/dev/stdout" then
      if editor.setup.inPlace.isSome then keep 1
      openTargets rest
    else if name = utf8 "/dev/stderr" then
      keep 2
      openTargets rest
    else
      let descriptor ← Act.freeDescriptor Act.ownDescriptors
      match ← Act.openAt descriptor editor.call.directory name .write with
      | .ok () =>
        keep descriptor
        openTargets rest
      | .error cause =>
        return .error (utf8 "couldn't open file " ++ name ++ utf8 ": " ++ utf8 cause.message)

/-- Edits files, and gives the exit code. -/
def run (call : Call) (setup : Setup) (commands : List Command) (names : List Bytes) : Act Nat := do
  let sink : Sink := { outlet := { descriptor := 1 }, holds := setup.inPlace.isSome }
  let commands := commands.toArray
  let editor : Editor :=
    { call, setup, commands, names := if names.isEmpty then [utf8 "-"] else names, sink
      ranges := advance.startRanges commands }
  let edit : Editing Nat := do
    match ← openTargets (commands.toList.filterMap (·.action.written?)) with
    | .error text =>
      call.complain text
      return 4
    | .ok () =>
      let status ← runLines Act.maxText true
      let editor ← get
      if let some inlet := editor.inlet then
        Act.giveBack inlet.descriptor inlet.buffered.length
        if let some suffix := editor.setup.inPlace then replaceFile suffix
      let editor ← get
      if !editor.sink.holds then let _ ← editor.sink.flush
      return status
  return (← edit.run editor).1

end ShellCompletion.Edit
