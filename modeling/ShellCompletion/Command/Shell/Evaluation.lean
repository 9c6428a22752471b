import ShellCompletion.Command.Script.Braces
import ShellCompletion.Command.Shell.Running

/-!
# Running scripts

What a shell does with a script: it expands words, redirects descriptors, and runs commands, which are
functions of the script, builtin commands or programs. `fuel` bounds how deep this goes, and how often
loops are run.
-/
namespace ShellCompletion.Shell

/-! ## Parameters of the extended language -/

/-- The value of a parameter or an element, or the values of a list. -/
def contentsOf (name : Bytes) (subscript : Option Bytes) : Step Contents := do
  let shell ← get
  match subscript with
  | none =>
    if name = utf8 "@" ∨ name = utf8 "*" then
      return { values := shell.arguments, list := some (name == utf8 "*") }
    else if isName name then return .ofOption (← special name)
    else return .ofOption (parameter? shell name)
  | some subscript =>
    let elements := Reckoning.elementsOf shell name
    if subscript = utf8 "@" ∨ subscript = utf8 "*" then
      return { values := elements.values, list := some (subscript == utf8 "*") }
    else
      let key ← Reckoning.keyOf Reckoning.depth name subscript
      return .ofOption ((Reckoning.elementsOf (← get) name).get? key)

/-- An expression matches somewhere in a text. What it and its groups match becomes an array. -/
def matchExpression (text expression : Bytes) : Step Bool := do
  let name := utf8 "BASH_REMATCH"
  let spelling : Regex.Spelling :=
    { extended := true, ignoreCase := (← get).hasSetting "nocasematch" }
  match Regex.read spelling expression with
  | .error _ => throw (.refuse 2)
  | .ok regex =>
    match Regex.find? .longest regex text.toArray 0 with
    | none =>
      assignElements name (.row [])
      return false
    | some found =>
      let groups := (List.range (regex.groupCount + 1)).map fun number =>
        (Regex.groupText? text found number).getD []
      assignElements name (.ofList groups)
      return true

def sayUnreadable (text : ScriptReader.Remainder) (fault : ScriptReader.SyntaxFault) (inner : Bool) :
    Step Unit := do
  let shell ← get
  let isText := shell.fromText && !inner
  let source := match shell.callers with
    | caller :: _ => caller.source
    | [] => shell.name
  let line := (Bytes.fields 10 text.text).getD (fault.line - text.line) []
  let isWhole := text.text.getLast? == some 10
  let lineAfter := text.line + text.text.count 10 + if isWhole then 0 else 1
  let number := if (utf8 "syntax error: unexpected end").isPrefixOf fault.message then lineAfter
    else fault.line
  let start := source ++ (if isText then utf8 ": -c" else if inner then utf8 ": eval" else []) ++
    utf8 ": line " ++ Bytes.decimal number ++ utf8 ": "
  let _ ← Act.write 2 (start ++ fault.message ++ utf8 "\n")
  if (utf8 "syntax error near").isPrefixOf fault.message then
    let _ ← Act.write 2 (start ++ 96 :: line ++ utf8 "'\n")

/-! ## Evaluation -/

mutual

/-- The parts of pieces. `start` says whether the first one is the start of the word, and `nested`
    whether they stand in the stead of a value. -/
def expandPieces (launch : Launch) : (fuel : Nat) → Use → (start nested : Bool) → List Piece →
    Step (List Part)
  | 0, _, _, _, _ => throw (.failure 2)
  | _, _, _, _, [] => return []
  | fuel + 1, use, start, nested, piece :: rest => do
    let shell ← get
    let parts ← match piece with
      | .text bytes true => pure (if bytes.isEmpty then [.present] else bytes.map (.byte · true false))
      | .text bytes false =>
        if use = .verbatim then pure (bytes.map (.byte · false nested))
        else pure (expandTildes shell (use == .value) rest.isEmpty nested (bytes.length + 1) start bytes)
      | .parameter name change quoted => expandParameter launch fuel use name change quoted
      | .output script quoted => do
        let text ← outputOf launch fuel script
        pure (ofValue quoted text)
      | .element name subscript indirect change quoted =>
        expandElement launch fuel use name subscript indirect change quoted
      | .channel reads script => do
        let path ← openChannel launch fuel reads script
        pure (ofValue true path)
      | .list elements => do
        let items ← itemsOf launch fuel elements
        pure (ofValue true (ListItem.spell items))
      | .sum expression quoted => do
        let text := textOf (← expandPieces launch fuel .verbatim false false expression)
        if shell.extended then
          let value ← Reckoning.value text
          pure (ofValue quoted (Bytes.decimalInt value))
        else match Arithmetic.evaluate (← get).value? text with
        | .error fault => fail (fault.message text)
        | .ok (value, assigned) =>
          for (name, value) in assigned do assign name (Bytes.decimalInt value)
          pure (ofValue quoted (Bytes.decimalInt value))
    return parts ++ (← expandPieces launch fuel use false nested rest)

def expandParameter (launch : Launch) : (fuel : Nat) → Use → (name : Bytes) → Change →
    (quoted : Bool) → Step (List Part)
  | 0, _, _, _, _ => throw (.failure 2)
  | fuel + 1, use, name, change, quoted => do
    let shell ← get
    if shell.extended then return ← expandElement launch fuel use name none false change quoted
    let star := name == utf8 "*"
    let isList := star || name == utf8 "@"
    let whole := use != .fields
    let list := ofArguments shell star quoted whole
    let value := if isList then some (textOf list) else parameter? shell name
    let shown : List Part := if isList then list else ofValue quoted (value.getD [])
    let word (use : Use) (pieces : List Piece) : Step (List Part) :=
      expandPieces launch fuel (if quoted then .verbatim else use) true (!quoted) pieces
    match change with
    | .none =>
      if value.isNone && shell.hasOption 'u' then fail (name ++ utf8 ": parameter not set")
      return shown
    | .length =>
      if value.isNone && shell.hasOption 'u' then fail (name ++ utf8 ": parameter not set")
      let value := if isList then textOf (ofArguments shell star quoted true) else value.getD []
      return ofValue quoted (Bytes.decimal value.length)
    | .default orEmpty pieces =>
      if (present? orEmpty value).isSome then return shown else word use pieces
    | .alternative orEmpty pieces =>
      if (present? orEmpty value).isSome then word use pieces else return []
    | .assign orEmpty pieces =>
      if (present? orEmpty value).isSome then return shown
      let text := textOf (← word .single pieces)
      if !isName name then fail (name ++ utf8 ": bad variable name")
      assign name text
      return ofValue quoted text
    | .demand orEmpty pieces =>
      if (present? orEmpty value).isSome then return shown
      let text ← if !pieces.isEmpty then textOf <$> word .single pieces
        else pure (utf8 "parameter not set" ++ if orEmpty then utf8 " or null" else [])
      fail (name ++ utf8 ": " ++ text)
    | .cut atEnd longest pieces =>
      if value.isNone && shell.hasOption 'u' then fail (name ++ utf8 ": parameter not set")
      let some value := value | return []
      let pattern := patternOf (← expandPieces launch fuel .single true false pieces)
      if isList && !whole && !(star && quoted) then
        let arguments := cutArguments quoted atEnd longest pattern shell.arguments
        return ofArguments { shell with arguments } star quoted whole
      else return ofValue quoted (cutMatch atEnd longest pattern value value)
    | _ => fail (utf8 "Bad substitution")

/-- The parts of a parameter or an element in the extended language. -/
def expandElement (launch : Launch) : (fuel : Nat) → Use → (name : Bytes) →
    (subscript : Option (List Piece)) → (indirect : Bool) → Change → (quoted : Bool) → Step (List Part)
  | 0, _, _, _, _, _, _ => throw (.failure 2)
  | fuel + 1, use, name, subscript, indirect, change, quoted => do
    let subscript ← match subscript with
      | none => pure none
      | some pieces => some <$> textOfWord launch fuel .verbatim pieces
    match change with
    | .invalid => fail (name ++ utf8 "\x7d: bad substitution")
    | .names =>
      let names := ((← get).bindings.map (·.name)).filter name.isPrefixOf
      let shell ← get
      return ofValues (names.mergeSort Bytes.le) (betweenValues shell false) false quoted (use != .fields)
    | .keys =>
      let shell ← get
      let star := subscript == some (utf8 "*")
      let keys := (Reckoning.elementsOf shell name).keys
      return ofValues keys (betweenValues shell star) star quoted (use != .fields)
    | change =>
      let (name, subscript) ← if !indirect then pure (name, subscript)
        else do
          let entry := (← get).binding? name
          let found ← contentsOf name subscript
          if !found.isThere then fail (name ++ utf8 ": invalid indirect expansion")
          let text := found.text
          let text := match entry with
            | some { reference := true, value := some target, .. } => target
            | _ => text
          if entry.any (·.reference) && subscript.isNone then return ofValue quoted text
          match readReference? text with
          | some reference => pure reference
          | none => fail (text ++ utf8 ": invalid variable name")
      let found ← contentsOf name subscript
      changeContents launch fuel use name subscript found change quoted

/-- The parts of what is made of a parameter's value or values. -/
def changeContents (launch : Launch) : (fuel : Nat) → Use → (name : Bytes) →
    (subscript : Option Bytes) → Contents → Change → (quoted : Bool) → Step (List Part)
  | 0, _, _, _, _, _, _ => throw (.failure 2)
  | fuel + 1, use, name, subscript, found, change, quoted => do
    let shell ← get
    let whole := use != .fields
    let label := name ++ match subscript with
      | some subscript => utf8 "[" ++ subscript ++ utf8 "]"
      | none => []
    let shown (contents : Contents) : List Part := contents.parts shell quoted whole
    let isUnset := !found.isThere && found.list.isNone
    let needValue : Step Unit := do
      if isUnset && shell.hasOption 'u' then failAll (label ++ utf8 ": unbound variable")
    let isPresent (orEmpty : Bool) : Bool := found.isThere && !(orEmpty && found.text.isEmpty)
    let word (use : Use) (pieces : List Piece) : Step (List Part) :=
      expandPieces launch fuel (if quoted then .verbatim else use) true (!quoted) pieces
    let patternFor (pieces : List Piece) : Step Pattern := do
      return patternOf (← expandPieces launch fuel .single true false pieces)
    let number (pieces : List Piece) : Step Int := do
      Reckoning.value (← textOfWord launch fuel .verbatim pieces)
    match change with
    | .none =>
      needValue
      return shown found
    | .length =>
      needValue
      let size := if found.list.isSome then found.values.length else (found.values.headD []).length
      return ofValue quoted (Bytes.decimal size)
    | .default orEmpty pieces =>
      if isPresent orEmpty then return shown found else word use pieces
    | .alternative orEmpty pieces =>
      if isPresent orEmpty then word use pieces else return []
    | .assign orEmpty pieces =>
      if isPresent orEmpty then return shown found
      let text := textOf (← word .single pieces)
      if !isName name || found.list.isSome then
        fail (utf8 "$" ++ label ++ utf8 ": cannot assign in this way")
      assignTo name subscript false text
      return shown (← contentsOf name subscript)
    | .demand orEmpty pieces =>
      if isPresent orEmpty then return shown found
      let text ← if !pieces.isEmpty then textOf <$> word .single pieces
        else pure (if orEmpty then utf8 "parameter null or not set" else utf8 "parameter not set")
      failAll (label ++ utf8 ": " ++ text)
    | .cut atEnd longest pieces =>
      needValue
      let pattern ← patternFor pieces
      return shown (found.map (Values.cut (acceptsPattern shell pattern) atEnd longest))
    | .replace every place pieces replacement =>
      needValue
      let pattern ← patternFor pieces
      let filling ← patternFor replacement
      let filling := if shell.hasSetting "patsub_replacement" then Values.filled filling
        else fun _ => Pattern.text filling
      let isAnywhere := pattern.isEmpty && place.isNone
      return shown (found.map fun text =>
        if isAnywhere then text
        else Values.replace (acceptsPattern shell pattern) (Values.mostOf pattern text) every place filling
          text)
    | .fold upper every pieces =>
      needValue
      let pattern ← patternFor pieces
      let accepts (text : Bytes) : Bool := pattern.isEmpty || acceptsPattern shell pattern text
      return shown (found.map (Values.fold accepts upper every))
    | .slice start length =>
      needValue
      let start ← number start
      let length ← match length with
        | none => pure none
        | some pieces => some <$> number pieces
      let wrong {α : Type} : Step α :=
        fail (Bytes.decimalInt (length.getD 0) ++ utf8 ": substring expression < 0")
      match found.list with
      | none =>
        let text := found.values.headD []
        match Values.span? text.length start length with
        | none => wrong
        | some (first, size) =>
          return shown (if isUnset then found else { found with values := [(text.drop first).take size] })
      | some _ =>
        if length.any (· < 0) then wrong
        let size := length.map Int.toNat
        let cut (values : List Bytes) : List Bytes := match size with
          | some size => values.take size
          | none => values
        match subscript, Reckoning.elementsOf shell name with
        | some _, .row entries =>
          let first := if start < 0 then start + (Elements.row entries).next else start
          let values := (entries.filter fun entry => first ≤ entry.1).map Prod.snd
          return shown { found with values := if first < 0 then [] else cut values }
        | some _, .table _ =>
          return shown { found with values := cut (found.values.drop (start - 1).toNat) }
        | none, _ =>
          let all := shell.name :: found.values
          let first := if start < 0 then start + all.length else start
          return shown { found with values := if first < 0 then [] else cut (all.drop first.toNat) }
    | .transform letter =>
      needValue
      let entry := shell.binding? (shell.follow 8 name)
      let is (c : Char) : Bool := letter == c.toUInt8
      let letters := (entry.map lettersOf).getD []
      if is 'a' then
        return shown (if subscript.isSome || entry.isSome then found.map fun _ => letters else found)
      else if is 'A' then
        match entry, found.list with
        | some entry, some _ => return shown { values := [declarationOf entry] }
        | some entry, none =>
          let start := if letters.isEmpty then [] else utf8 "declare -" ++ letters ++ utf8 " "
          return shown (found.map fun text => start ++ entry.name ++ utf8 "=" ++ Quoted.reusable text)
        | none, some _ =>
          let words := found.values.map Quoted.reusable
          return shown { values := [Bytes.join (utf8 " ") (utf8 "set --" :: words)] }
        | none, none => return []
      else if (is 'K' || is 'k') && found.list.isSome then
        let elements := Reckoning.elementsOf shell name
        let pairs := (elements.keys.zip elements.values)
        if is 'k' then
          return shown { found with values := pairs.flatMap fun (key, value) => [key, value] }
        else
          let words := pairs.flatMap fun (key, value) => [key, Quoted.declared value]
          return shown { values := [Bytes.join (utf8 " ") words] }
      else return shown (found.map (Values.transformed letter))
    | _ => return []

def itemsOf (launch : Launch) : (fuel : Nat) → List Word → Step (List ListItem)
  | 0, _ => throw (.failure 2)
  | _, [] => return []
  | fuel + 1, word :: rest => do
    let first ← match Word.listed? word with
      | some (subscript, appends, value) => do
        let subscript ← textOfWord launch fuel .verbatim subscript
        let value ← textOfWord launch fuel .value value
        pure [{ subscript := some subscript, appends, value : ListItem }]
      | none => do
        let fields ← fieldsOfWords launch fuel false [word]
        pure (fields.map fun value => ({ value } : ListItem))
    return first ++ (← itemsOf launch fuel rest)

/-- Runs a script whose output is read, or whose input is written, at the path that comes back. -/
def openChannel (launch : Launch) : (fuel : Nat) → (reads : Bool) → Option Script → Step Bytes
  | 0, _, _ => throw (.failure 2)
  | fuel + 1, reads, script => do
    let shell ← get
    let (intake, outlet) ← Act.openPipe
    let (own, other) := if reads then (intake, outlet) else (outlet, intake)
    let used ← Act.look fun machine => machine.descriptors.map Prod.fst
    let number := (((List.range 54).map (63 - ·)).find? (!used.contains ·)).getD 9
    Act.moveDescriptor own number
    let child ← Act.fork do
      Act.close number
      Act.moveDescriptor other (if reads then 1 else 0)
      let step : Step Nat := match script with
        | some script => evaluate launch fuel { last := true } script
        | none => return 0
      runToEnd launch fuel step (forChild shell)
    Act.close other
    modify fun shell => { shell with channels := number :: shell.channels, background := some child }
    return utf8 "/dev/fd/" ++ Bytes.decimal number

def fieldsOfWords (launch : Launch) : (fuel : Nat) → (assigns : Bool) → List Word → Step (List Bytes)
  | 0, _, _ => throw (.failure 2)
  | _, _, [] => return []
  | fuel + 1, assigns, word :: rest => do
    if (← get).extended then
      let assignment := if assigns then word.extendedAssignment? else none
      let first ← match assignment with
        | some (name, subscript, appends, value) => do
          let subscript ← match subscript with
            | none => pure []
            | some pieces => do
              let text ← textOfWord launch fuel .verbatim pieces
              pure (utf8 "[" ++ text ++ utf8 "]")
          let text ← textOfWord launch fuel .value value
          pure [name ++ subscript ++ (if appends then utf8 "+=" else utf8 "=") ++ text]
        | none => fieldsOfBraces launch fuel (Braces.words word)
      return first ++ (← fieldsOfWords launch fuel assigns rest)
    let assignment := if assigns then word.assignment? else none
    let first ← match assignment with
      | some (name, value) => do
        let text ← textOfWord launch fuel .value value
        pure [name ++ '='.toUInt8 :: text]
      | none => do
        let parts ← expandPieces launch fuel .fields true false word
        let shell ← get
        let fields := fieldsOf shell.separators parts
        if shell.hasOption 'f' || !fields.any Pattern.isOpen then pure (fields.map Pattern.text)
        else Act.look fun machine => fields.flatMap (pathsOf machine shell.directory)
    return first ++ (← fieldsOfWords launch fuel assigns rest)

def fieldsOfBraces (launch : Launch) : (fuel : Nat) → List Word → Step (List Bytes)
  | 0, _ => throw (.failure 2)
  | _, [] => return []
  | fuel + 1, word :: rest => do
    let parts ← expandPieces launch fuel .fields true false word
    let shell ← get
    let fields := fieldsOf shell.separators parts
    let first ← if shell.hasOption 'f' || !fields.any (globbing shell).isOpen then
        pure (fields.map Pattern.text)
      else do
        let found ← Act.look fun machine => fields.map fun field => (field, pathsExtended? shell machine field)
        match found.find? (·.2.isNone) with
        | some (field, _) => fail (utf8 "no match: " ++ Pattern.text field)
        | none => pure (found.flatMap fun entry => entry.2.getD [])
    return first ++ (← fieldsOfBraces launch fuel rest)

def firstFields (launch : Launch) : (fuel : Nat) → List Word → Step (List Bytes × List Word)
  | 0, _ => throw (.failure 2)
  | _, [] => return ([], [])
  | fuel + 1, word :: rest => do
    match ← fieldsOfWords launch fuel false [word] with
    | [] => firstFields launch fuel rest
    | fields => return (fields, rest)

def textOfWord (launch : Launch) : (fuel : Nat) → Use → Word → Step Bytes
  | 0, _, _ => throw (.failure 2)
  | fuel + 1, use, word => do return textOf (← expandPieces launch fuel use true false word)

/-- What a script prints, without the line feeds at the end. -/
def outputOf (launch : Launch) : (fuel : Nat) → Option Script → Step Bytes
  | 0, _ => throw (.failure 2)
  | _, none => return []
  | fuel + 1, some script => do
    let shell ← get
    if let .simple _ [] [] [.file 0 .input target] := script then
      if shell.extended then
        let path ← textOfWord launch fuel .single target
        let text ← restoring [0] do
          if ← openFile 0 .read path then
            let text ← Act.readAll 0
            modify ({ · with substituted := 0 })
            return text.toOption.getD []
          else
            modify ({ · with substituted := 1 })
            return []
        return ((text.filter (· != 0)).reverse.dropWhile (· == 10)).reverse
    let inner := forChild shell
    let inner := if shell.extended && !shell.hasSetting "inherit_errexit" then
        { inner with options := inner.options.filter (· != 'e'.toUInt8) }
      else inner
    let _ ← claimJob
    let (intake, outlet) ← Act.openPipe
    let child ← Act.fork do
      Act.moveDescriptor outlet 1
      Act.close intake
      runToEnd launch fuel (evaluate launch fuel { last := true } script) inner
    Act.close outlet
    let text ← Act.readAll intake
    Act.close intake
    let status ← joinAll [child]
    modify ({ · with substituted := status })
    let text := (text.toOption.getD []).filter (· != 0)
    return (text.reverse.dropWhile (· == 10)).reverse

/-- Expands the words that redirections name something with. -/
def targetsOf (launch : Launch) : (fuel : Nat) → List Redirection → Step (List Target)
  | 0, _ => throw (.failure 2)
  | _, [] => return []
  | fuel + 1, redirection :: rest => do
    let target : Target ← match redirection with
      | .document descriptor body => pure (.document descriptor body)
      | .duplicate descriptor source => do
        let text ← textOfWord launch fuel .single source
        if text = utf8 "-" then pure (.close descriptor)
        else if Bytes.allDigits text && ((← get).extended || text.length == 1) then
          pure (.duplicate descriptor (Bytes.digitsValue text))
        else if (← get).extended then failWith 1 (text ++ utf8 ": ambiguous redirect")
        else fail (utf8 "Bad fd number")
      | .file descriptor kind name => do
        let path ← if (← get).extended then pathOfWord launch fuel name
          else textOfWord launch fuel .single name
        let shell ← get
        let isLost ← Act.look fun machine => match machine.files.find? shell.directory path with
          | .ok (.file ..) => true
          | _ => false
        pure (.file descriptor (match kind with
          | .input => .read
          | .output => if shell.hasOption 'C' && isLost then .fresh else .write
          | .clobber => .write
          | .append => .append
          | .readWrite => .readWrite) path)
    return target :: (← targetsOf launch fuel rest)

/-- The path that the word of a redirection names in the extended language, where it has to be one
    field. -/
def pathOfWord (launch : Launch) : (fuel : Nat) → Word → Step Bytes
  | 0, _ => throw (.failure 2)
  | fuel + 1, word => do
    match ← fieldsOfWords launch fuel false [word] with
    | [path] => return path
    | fields =>
      let text := match word with
        | [.parameter name .none _] => utf8 "$" ++ name
        | _ => Bytes.join (utf8 " ") fields
      failWith 1 (text ++ utf8 ": ambiguous redirect")

/-- Redirects one descriptor after the other until one cannot be; says whether there was none. The
    text of a document is made when its turn has come, and a fault in it is one of the redirection. -/
def redirectAll (launch : Launch) : (fuel : Nat) → List Target → Step Bool
  | 0, _ => throw (.failure 2)
  | _, [] => return true
  | fuel + 1, target :: rest => do
    let done ← match target with
      | .close descriptor => do
        Act.close descriptor
        pure true
      | .duplicate descriptor source => duplicate descriptor source
      | .file descriptor mode path => openFile descriptor mode path
      | .document descriptor body =>
        try
          Act.provide descriptor (← textOfWord launch fuel .verbatim body)
          pure true
        catch stop => match stop with
          | .failure _ => if (← get).extended then throw stop else pure false
          | stop => throw stop
    if done then redirectAll launch fuel rest else return false

/-- Runs a script to its end, and then the trap that is set for it. -/
def runToEnd (launch : Launch) : (fuel : Nat) → Step Nat → Shell → Act Nat
  | 0, _, _ => Act.hang
  | fuel + 1, step, shell => do
    let (result, shell) ← step.run.run shell
    let status := match result with
      | .ok status => status
      | .error stop => stop.status shell
    match shell.exitTrap? with
    | none => return status
    | some action =>
      let shell := { shell with
        traps := shell.traps.filter (·.1 != 0), interrupted := some status, status, loops := 0 }
      let (result, _) ← (runLines launch fuel { inner := true } ⟨action, 1⟩ 0).run.run shell
      return match result with
        | .error (.exit status) => status
        | _ => status

def runTraps (launch : Launch) : (fuel : Nat) → Step Unit
  | 0 => throw (.failure 2)
  | fuel + 1 => do
    let pending ← Act.access fun machine =>
      let pending := ((machine.process? machine.current).map (·.pending)).getD []
      if pending.isEmpty then ([], machine)
      else (pending.mergeSort (· ≤ ·), machine.update machine.current ({ · with pending := [] }))
    if pending.isEmpty then return
    let shell ← get
    let status := shell.interrupted.getD shell.status
    for signal in pending do
      if let some action := (← get).traps.lookup signal then
        modify ({ · with interrupted := some status })
        let _ ← runLines launch fuel { inner := true } ⟨action, 1⟩ 0
        modify ({ · with status })
    modify ({ · with interrupted := shell.interrupted })

/-- Runs what is set for an event of the extended language that is no signal, unless something of that
    kind is running. -/
def runEvent (launch : Launch) : (fuel : Nat) → (event : Nat) → (status : Nat) → Step Unit
  | 0, _, _ => throw (.failure 2)
  | fuel + 1, event, status => do
    let shell ← get
    match (shell.traps.lookup event).filter (!·.isEmpty) with
    | none => return
    | some action =>
      if shell.interrupted.isNone then
        set { shell with interrupted := some status, status }
        let _ ← runLines launch fuel { inner := true, tested := true } ⟨action, shell.line⟩ 0
        modify ({ · with interrupted := none, status := shell.status })

/-- Runs the lines of a text, one after the other, and gives the exit code of the last one. -/
def runLines (launch : Launch) : (fuel : Nat) → Mode → ScriptReader.Remainder → (status : Nat) →
    Step Nat
  | 0, _, _, _ => throw (.failure 2)
  | fuel + 1, mode, text, status => do
    let shell ← get
    let language : ScriptReader.Language :=
      { extended := shell.extended, grouping := shell.hasSetting "extglob" }
    let aliases := if shell.extended && !shell.hasSetting "expand_aliases" then [] else shell.aliases
    match ScriptReader.readLine language aliases text with
    | .error fault =>
      if shell.extended then
        sayUnreadable text fault mode.inner
        if mode.inner then return 2 else throw (.failure 2)
      modify ({ · with line := fault.line })
      fail (utf8 "Syntax error: " ++ fault.message)
    | .ok (script, rest) =>
      if mode.shown && (← get).hasOption 'v' then
        let left := match rest with
          | some rest => rest.text.length
          | none => 0
        let _ ← Act.write 2 (text.text.take (text.text.length - left))
      let mode := { mode with last := mode.last && rest.isNone }
      let streams := mode.streams && script.isSome
      if streams then leaveInput ((rest.map (·.text)).getD [])
      let status ← match script with
        | none => pure status
        | some script =>
          if mode.resumes then
            try evaluate launch fuel mode script
            catch stop => match stop with
              | .discard status | .refuse status => do
                modify ({ · with status, loops := 0 })
                if (← get).hasOption 'e' then throw (.exit status) else pure status
              | stop => throw stop
          else evaluate launch fuel mode script
      if !mode.inner then closeChannels []
      let rest ← if streams then
          let text := ((← Act.readAll 0).toOption).getD []
          pure (rest.map fun rest => { rest with text })
        else pure rest
      match rest with
      | none =>
        if mode.last then throw (.exit (← get).status)
        return status
      | some rest => runLines launch fuel mode rest status

/-- Runs a script, and gives its exit code. -/
def evaluate (launch : Launch) : (fuel : Nat) → Mode → Script → Step Nat
  | 0, _, _ => throw (.failure 2)
  | fuel + 1, mode, script => do
    if (← get).hasOption 'n' then return (← get).status
    runTraps launch fuel
    let inner := { mode with last := false, resumes := false, streams := false }
    let channels := (← get).channels
    let extended := (← get).extended
    let (status, checked) ← match script with
      | .simple line assignments words redirections => do
        modify ({ · with line })
        if extended then
          if (← get).traps.any (·.1 == Builtin.debugTrap) then
            runEvent launch fuel Builtin.debugTrap (← get).status
          let status ← runExtended launch fuel mode assignments words redirections
          modify ({ · with statuses := [status] })
          pure (status, true)
        else pure (← runSimple launch fuel mode assignments words redirections, true)
      | .sequence first second => do
        let _ ← evaluate launch fuel inner first
        pure (← evaluate launch fuel mode second, false)
      | .both first second => do
        let status ← evaluate launch fuel { tested := true } first
        pure (← if status = 0 then evaluate launch fuel mode second else pure status, false)
      | .either first second => do
        let status ← evaluate launch fuel { tested := true } first
        pure (← if status = 0 then pure status else evaluate launch fuel mode second, false)
      | .negate body => do
        let status ← evaluate launch fuel { tested := true } body
        pure (if status = 0 then 1 else 0, false)
      | .pipeline stages => do
        let _ ← claimJob
        if extended && (← get).hasSetting "lastpipe" then
          pure (← runLast launch fuel inner stages, true)
        else
          let processes ← runStages launch fuel mode none none stages
          pure (← joinAll processes, true)
      | .background line body redirections => do
        modify ({ · with line })
        match body, redirections with
        | .pipeline stages, [] =>
          let shell ← get
          let number ← claimJob
          let processes ← runStages launch fuel {} (some shell.directory) none stages
          putInBackground number processes
        | body, redirections =>
          let shell ← get
          let targets ← targetsOf launch fuel redirections
          let number ← claimJob
          let child ← Act.fork do
            detach shell.directory false
            let step : Step Nat := do
              if !(← redirectAll launch fuel targets) then throw (.failure 2)
              evaluate launch fuel { last := true } body
            runToEnd launch fuel step (forChild shell)
          putInBackground number [child]
        pure (0, true)
      | .choose condition yes no => do
        if (← evaluate launch fuel { tested := true } condition) = 0 then
          pure (← evaluate launch fuel mode yes, false)
        else match no with
          | none => pure (0, false)
          | some no => pure (← evaluate launch fuel mode no, false)
      | .loop success condition body => do
        pure (← inLoop (repeatBody launch fuel inner success condition body 0), false)
      | .each line name words body => do
        modify ({ · with line })
        let values ← match words with
          | some words => fieldsOfWords launch fuel false words
          | none => do pure (← get).arguments
        pure (← inLoop (runEach launch fuel inner name body values 0), false)
      | .select line word arms => do
        modify ({ · with line })
        let text ← textOfWord launch fuel .single word
        match ← findArm launch fuel text arms with
        | none => pure (0, false)
        | some (.mk _ body .leave, _) => match body with
          | none => pure (0, false)
          | some body => pure (← evaluate launch fuel mode body, false)
        | some (arm, rest) => pure (← runArms launch fuel inner text arm rest, false)
      | .subshell line body redirections => do
        modify ({ · with line })
        let targets ← targetsOf launch fuel redirections
        let shell ← get
        let step : Step Nat := do
          if !(← redirectAll launch fuel targets) then throw (.failure (if extended then 1 else 2))
          evaluate launch fuel { inner with last := true, piped := false } body
        if mode.last && shell.traps.all (·.2.isEmpty) then pure (← step, true)
        else
          let _ ← claimJob
          let child ← Act.fork (runToEnd launch fuel step (forChild shell))
          pure (← joinAll [child], true)
      | .define name body => do
        modify fun shell =>
          let source := ((shell.callers.head?.map (·.source)).or shell.script).getD (utf8 "environment")
          { shell with
            functions := (name, { body, source }) :: shell.functions.filter (·.1 != name) }
        pure (0, false)
      | .redirect line body redirections => do
        modify ({ · with line })
        let targets ← targetsOf launch fuel redirections
        restoring (targets.map Target.descriptor) do
          if ← redirectAll launch fuel targets then pure (← evaluate launch fuel inner body, false)
          else return (if extended then 1 else 2, true)
      | .check line condition => do
        modify ({ · with line })
        let status ← failing do return if ← holds launch fuel condition then 0 else 1
        modify ({ · with statuses := [status] })
        pure (status, true)
      | .reckon line expression => do
        modify ({ · with line })
        let status ← failing do
          let text ← textOfWord launch fuel .verbatim expression
          return if (← Reckoning.value text) = 0 then 1 else 0
        modify ({ · with statuses := [status] })
        pure (status, true)
      | .count line first test next body => do
        modify ({ · with line })
        let status ← failing do
          let _ ← Reckoning.value (← textOfWord launch fuel .verbatim first)
          return 0
        if status ≠ 0 then pure (status, false)
        else pure (← inLoop (runCount launch fuel inner test next body 0), false)
      | .menu line name words body => do
        modify ({ · with line })
        let values ← match words with
          | some words => fieldsOfWords launch fuel false words
          | none => do pure (← get).arguments
        if values.isEmpty then pure (0, false)
        else pure (← inLoop (runMenu launch fuel inner name values body true 0), false)
      | .timed body => do
        let start ← Act.look (·.now)
        let status ← evaluate launch fuel inner body
        let taken := (← Act.look (·.now)) - start
        let format := ((← get).value? (utf8 "TIMEFORMAT")).getD timeFormat
        if !format.isEmpty then
          let _ ← Act.write 2 (timeText taken format ++ utf8 "\n")
        pure (status, false)
    if extended then closeChannels channels
    modify ({ · with status })
    runTraps launch fuel
    if extended && checked && !mode.tested && status != 0 then
      let shell ← get
      if shell.callers.isEmpty || shell.hasOption 'E' then
        runEvent launch fuel Builtin.errorTrap status
    if checked && !mode.tested && status != 0 && (← get).hasOption 'e' then throw (.exit status)
    if mode.last then throw (.exit (← get).status)
    return status

/-- Starts the commands of a pipeline, each in a process that reads what the one before it writes.
    In the background, a directory comes with them. -/
def runStages (launch : Launch) : (fuel : Nat) → Mode → (behind : Option Bytes) →
    (input : Option Nat) → List Script → Step (List Nat)
  | 0, _, _, _, _ => throw (.failure 2)
  | _, _, _, _, [] => return []
  | fuel + 1, mode, behind, input, stage :: rest => do
    let shell ← get
    let output ← if rest.isEmpty then pure none else do pure (some (← Act.openPipe))
    let child ← Act.fork do
      if let some directory := behind then detach directory input.isSome
      if let some intake := input then Act.moveDescriptor intake 0
      if let some (intake, outlet) := output then
        Act.close intake
        Act.moveDescriptor outlet 1
      let inner := { mode with last := true, piped := true, resumes := false }
      runToEnd launch fuel (evaluate launch fuel inner stage) (forChild shell)
    if let some intake := input then Act.close intake
    if let some (_, outlet) := output then Act.close outlet
    return child :: (← runStages launch fuel mode behind (output.map Prod.fst) rest)

/-- Runs a pipeline whose last command belongs to the shell itself. -/
def runLast (launch : Launch) : (fuel : Nat) → Mode → List Script → Step Nat
  | 0, _, _ => throw (.failure 2)
  | fuel + 1, mode, stages => do
    let shell ← get
    let (intake, outlet) ← Act.openPipe
    let child ← Act.fork do
      Act.close intake
      Act.moveDescriptor outlet 1
      let step : Step Nat := match stages.dropLast with
        | [single] => evaluate launch fuel { last := true, piped := true } single
        | first => evaluate launch fuel { last := true } (.pipeline first)
      runToEnd launch fuel step (forChild shell)
    Act.close outlet
    let status ← restoring [0] do
      Act.moveDescriptor intake 0
      match stages.getLast? with
      | some stage => evaluate launch fuel mode stage
      | none => return 0
    let first ← joinAll [child]
    modify ({ · with statuses := [first, status] })
    let pipefail := (← get).hasSetting "pipefail"
    return if status = 0 && pipefail then first else status

/-- The arm that has a pattern which a text matches, and the arms after it. -/
def findArm (launch : Launch) : (fuel : Nat) → Bytes → List Arm → Step (Option (Arm × List Arm))
  | 0, _, _ => throw (.failure 2)
  | _, _, [] => return none
  | fuel + 1, text, .mk patterns body after :: rest => do
    if ← matchesAny launch fuel text patterns then return some (.mk patterns body after, rest)
    else findArm launch fuel text rest

def runArms (launch : Launch) : (fuel : Nat) → Mode → Bytes → Arm → List Arm → Step Nat
  | 0, _, _, _, _ => throw (.failure 2)
  | fuel + 1, mode, text, .mk _ body after, rest => do
    let status ← match body with
      | some body => evaluate launch fuel mode body
      | none => pure 0
    match after, rest with
    | .runNext, next :: rest => runArms launch fuel mode text next rest
    | .tryNext, rest =>
      match ← findArm launch fuel text rest with
      | some (arm, rest) => runArms launch fuel mode text arm rest
      | none => return status
    | _, _ => return status

/-- A text matches one of the patterns. -/
def matchesAny (launch : Launch) : (fuel : Nat) → Bytes → List Word → Step Bool
  | 0, _, _ => throw (.failure 2)
  | _, _, [] => return false
  | fuel + 1, text, pattern :: rest => do
    let found := patternOf (← expandPieces launch fuel .single true false pattern)
    if acceptsPattern (← get) found text then return true
    else matchesAny launch fuel text rest

/-- Runs a body as long as a condition says so. -/
def repeatBody (launch : Launch) : (fuel : Nat) → Mode → (success : Bool) →
    (condition body : Script) → (status : Nat) → Step Nat
  | 0, _, _, _, _, _ => throw (.failure 2)
  | fuel + 1, mode, success, condition, body, status => do
    match ← turn (evaluate launch fuel { tested := true } condition) with
    | .leave => return status
    | .again => repeatBody launch fuel mode success condition body status
    | .next result =>
      if (result = 0) ≠ success then return status
      else match ← turn (evaluate launch fuel mode body) with
        | .leave => return 0
        | .again => repeatBody launch fuel mode success condition body 0
        | .next status => repeatBody launch fuel mode success condition body status

/-- A condition of the extended language holds. -/
def holds (launch : Launch) : (fuel : Nat) → Check → Step Bool
  | 0, _ => throw (.failure 2)
  | fuel + 1, condition => do
    match condition with
    | .not body => return !(← holds launch fuel body)
    | .both first second =>
      if ← holds launch fuel first then holds launch fuel second else return false
    | .either first second =>
      if ← holds launch fuel first then return true else holds launch fuel second
    | .word word => return !(← textOfWord launch fuel .single word).isEmpty
    | .unary operator word =>
      let text ← textOfWord launch fuel .single word
      let operator := if operator = utf8 "-a" then utf8 "-e" else operator
      match ← Builtin.ownCondition? operator text with
      | some value => return value
      | none =>
        let shell ← get
        Act.look fun machine =>
          Condition.unary { machine, directory := shell.directory, doubled := true } operator text
    | .binary operator first second =>
      let text ← textOfWord launch fuel .single first
      let is (name : String) : Bool := utf8 name = operator
      let parts ← expandPieces launch fuel .single true false second
      let shell ← get
      if is "=" || is "==" || is "!=" then
        let found := acceptsExtended true (shell.hasSetting "nocasematch") (patternOf parts) text
        return found != is "!="
      else if is "=~" then matchExpression text (expressionOf parts)
      else if is "<" then return Bytes.le text (textOf parts) && text != textOf parts
      else if is ">" then return Bytes.le (textOf parts) text && text != textOf parts
      else if is "-nt" || is "-ot" || is "-ef" then
        let value ← Act.look fun machine =>
          Condition.binary { machine, directory := shell.directory, doubled := true } operator text
            (textOf parts)
        return value.toOption.getD false
      else
        let a ← Reckoning.value text
        let b ← Reckoning.value (textOf parts)
        return if is "-eq" then a == b
          else if is "-ne" then a != b
          else if is "-lt" then decide (a < b)
          else if is "-le" then decide (a ≤ b)
          else if is "-gt" then decide (b < a)
          else decide (b ≤ a)

/-- Runs a body as long as the value of an expression is not zero. -/
def runCount (launch : Launch) : (fuel : Nat) → Mode → (test next : List Piece) → Script →
    (status : Nat) → Step Nat
  | 0, _, _, _, _, _ => throw (.failure 2)
  | fuel + 1, mode, test, next, body, status => do
    let reckon (pieces : List Piece) (blank : Nat) : Step Nat := failing do
      let text ← textOfWord launch fuel .verbatim pieces
      if text.all Bytes.isSpace then return blank
      else return if (← Reckoning.value text) = 0 then 0 else 2
    match ← reckon test 2 with
    | 0 => return status
    | 1 => return 1
    | _ =>
      let (status, ended) ← match ← turn (evaluate launch fuel mode body) with
        | .leave => pure (0, true)
        | .again => pure (0, false)
        | .next status => pure (status, false)
      if ended then return (← get).status
      else if (← reckon next 2) = 1 then return 1
      else runCount launch fuel mode test next body status

/-- Runs a body for each of the values that somebody chooses. -/
def runMenu (launch : Launch) : (fuel : Nat) → Mode → (name : Bytes) → (values : List Bytes) → Script →
    (shows : Bool) → (status : Nat) → Step Nat
  | 0, _, _, _, _, _, _ => throw (.failure 2)
  | fuel + 1, mode, name, values, body, shows, status => do
    let shell ← get
    let width := (Bytes.decimal values.length).length
    if shows then
      let _ ← Act.write 2 (values.zipIdx.flatMap fun (value, index) =>
        Format.pad { width } [] (Bytes.decimal (index + 1)) false ++ utf8 ") " ++ value ++ utf8 "\n")
    let _ ← Act.write 2 ((shell.value? (utf8 "PS3")).getD (utf8 "#? "))
    let (bytes, reach) ← (Builtin.readDemanded {} 10000000 false [] : Act _)
    let reply := Pattern.text bytes
    if reach ≠ .complete then
      let _ ← print (utf8 "\n")
      return 1
    assign (utf8 "REPLY") reply
    if reply.isEmpty then runMenu launch fuel mode name values body true status
    else
      let place := if Bytes.allDigits reply then Bytes.digitsValue reply else 0
      assign name (if place = 0 then [] else (values[place - 1]?).getD [])
      match ← turn (evaluate launch fuel mode body) with
      | .leave => return (← get).status
      | .again => runMenu launch fuel mode name values body false 0
      | .next status =>
        let isAgain := ((← get).value? (utf8 "REPLY")).all (·.isEmpty)
        runMenu launch fuel mode name values body isAgain status

/-- Runs a body for each value of a variable. -/
def runEach (launch : Launch) : (fuel : Nat) → Mode → (name : Bytes) → Script →
    (values : List Bytes) → (status : Nat) → Step Nat
  | 0, _, _, _, _, _ => throw (.failure 2)
  | _, _, _, _, [], status => return status
  | fuel + 1, mode, name, body, value :: rest, _ => do
    assign name value
    match ← turn (evaluate launch fuel mode body) with
    | .leave => return 0
    | .again => runEach launch fuel mode name body rest 0
    | .next status => runEach launch fuel mode name body rest status

/-- Runs a simple command. What it redirects and assigns is its own, unless it is none or a special
    one. -/
def runSimple (launch : Launch) : (fuel : Nat) → Mode → List Assignment → List Word →
    List Redirection → Step Nat
  | 0, _, _, _, _ => throw (.failure 2)
  | fuel + 1, mode, assignments, words, redirections => do
    modify ({ · with substituted := 0 })
    let (first, others) ← firstFields launch fuel words
    let name := first.headD []
    let function := (← get).functions.lookup name
    let builtin := if function.isSome then none else Builtin.find? name
    let fields := first ++ (← fieldsOfWords launch fuel (builtin.any (·.assigns)) others)
    let special := builtin.any (·.special)
    let stays := fields.isEmpty || special
    let replaces := builtin.any (·.name == "exec")
    let step : Step Nat := do
      let targets ← targetsOf launch fuel redirections
      let step : Step Nat := do
        if !(← redirectAll launch fuel targets) then
          if special then throw (.failure 2)
          return 2
        let assigned ← assignAll launch fuel (!stays) (replaces && 1 < fields.length) assignments
        showCommand assigned fields
        if fields.isEmpty then return (← get).substituted
        else call launch fuel mode function builtin fields
      if replaces || targets.isEmpty then step
      else restoring (targets.map Target.descriptor) step
    if stays then step else withLocals step

/-- Runs a simple command of the extended language. What it assigns is its own, unless it is none. -/
def runExtended (launch : Launch) : (fuel : Nat) → Mode → List Assignment → List Word →
    List Redirection → Step Nat
  | 0, _, _, _, _ => throw (.failure 2)
  | fuel + 1, mode, assignments, words, redirections => do
    modify ({ · with substituted := 0 })
    let (first, others) ← firstFields launch fuel words
    let name := first.headD []
    let function := (← get).functions.lookup name
    let shell ← get
    let builtin := if function.isSome then none else Builtin.findFor? shell name
    let fields := first ++ (← fieldsOfWords launch fuel (builtin.any (·.assigns)) others)
    let replaces := builtin.any (·.name == "exec")
    let last := utf8 "_"
    let keep (value : Bytes) : Step Unit := modify (·.store { name := last, value := some value })
    let run : Step Nat := do
      if fields.isEmpty then
        let assigned ← assignAll launch fuel false false assignments
        showCommand assigned []
        keep []
        return (← get).substituted
      else
        let assigned ← assignAll launch fuel true false assignments
        showCommand assigned fields
        keep (fields.getLastD [])
        let mode := { mode with last := mode.last && redirections.isEmpty }
        let status ← call launch fuel mode function builtin fields
        keep (fields.getLastD [])
        return status
    let redirected : Step Nat := do
      let targets ← targetsOf launch fuel redirections
      let step : Step Nat := do
        if ← redirectAll launch fuel targets then run
        else if replaces then throw (.failure 1)
        else return 1
      if replaces || targets.isEmpty then step
      else restoring (targets.map Target.descriptor) step
    let redirected := if redirections.isEmpty then redirected
      else do
        try redirected
        catch stop => match stop with
          | .discard status => if assignments.isEmpty && fields.isEmpty then return status else throw stop
          | stop => throw stop
    if function.isSome || (!fields.isEmpty && !assignments.isEmpty) then withLocals redirected
    else redirected

/-- Assigns values, which go away with the command if they are its own. -/
def assignAll (launch : Launch) : (fuel : Nat) → (own exports : Bool) → List Assignment →
    Step (List (Bytes × Bytes))
  | 0, _, _, _ => throw (.failure 2)
  | _, _, _, [] => return []
  | fuel + 1, own, exports, .mk name subscript appends word :: rest => do
    if let [.list elements] := word then
      let items ← itemsOf launch fuel elements
      if own then putAside name
      assignItems name appends items
      let shown := utf8 "(" ++ Bytes.join (utf8 " ") (items.map (·.value)) ++ utf8 ")"
      return (name, shown) :: (← assignAll launch fuel own exports rest)
    let value ← textOfWord launch fuel .value word
    let subscript ← match subscript with
      | none => pure none
      | some pieces => some <$> textOfWord launch fuel .verbatim pieces
    if own then putAside name
    if (← get).extended then assignTo name subscript appends value else assign name value
    if (own || exports) && subscript.isNone then
      modify fun shell => match shell.binding? name with
        | some entry => shell.store { entry with exported := true }
        | none => shell
    return (name, value) :: (← assignAll launch fuel own exports rest)

/-- Runs the command that fields name. -/
def call (launch : Launch) : (fuel : Nat) → Mode → (function : Option Function) → Option Builtin →
    (fields : List Bytes) → Step Nat
  | 0, _, _, _, _ => throw (.failure 2)
  | fuel + 1, mode, some function, _, fields => do
    let shell ← get
    if maxCalls shell ≤ shell.calls then
      if shell.extended then throw (.failure 139)
      fail (utf8 "Maximum function recursion depth (" ++ Bytes.decimal (maxCalls shell) ++ utf8 ") reached")
    let caller : Caller := { name := fields.headD [], line := shell.line, source := function.source }
    set { shell with
      arguments := fields.drop 1, calls := shell.calls + 1, loops := 0, optionOffset := 0
      callers := caller :: shell.callers }
    let restore : Step Unit := modify fun after =>
      { after with
        arguments := shell.arguments, calls := shell.calls, loops := shell.loops
        optionOffset := shell.optionOffset, callers := shell.callers, line := shell.line }
    try
      let status ← evaluate launch fuel { mode with last := false, resumes := false } function.body
      restore
      return status
    catch stop =>
      restore
      match stop with
      | .fromFunction status => return status
      | stop => throw stop
  | fuel + 1, mode, none, some builtin, fields => do
    let outer := (← get).command
    modify ({ · with command := some (utf8 builtin.name) })
    let restore : Step Unit := modify ({ · with command := outer })
    try
      let status ← runBuiltin launch fuel mode builtin (fields.drop 1)
      restore
      return status
    catch stop =>
      restore
      match stop with
      | .failure status =>
        if builtin.special || (← get).extended then throw stop else return status
      | .refuse status => return status
      | .discard status =>
        if builtin.passes || builtin.name == "exit" then throw stop else return status
      | stop => throw stop
  | _, mode, none, none, fields => do
    let shell ← get
    let name := fields.headD []
    let path ← Act.look fun machine =>
      if shell.extended then pathFor? shell machine name else Builtin.findProgram shell machine name
    if path.isNone && shell.extended then
      complain (name ++ utf8 ": command not found")
      return 127
    else if path.isNone && !name.contains Path.slash then
      let text ← Act.look fun machine => Builtin.searchFault shell machine name
      complain (name ++ utf8 ": " ++ text)
      return 127
    else if mode.last && shell.traps.all (·.2.isEmpty) then replaceBy launch (!mode.piped) fields
    else
      let _ ← claimJob
      let child ← Act.fork do
        let (result, shell) ← (replaceBy launch false fields : Step Nat).run.run (forChild shell)
        return match result with
          | .ok status => status
          | .error stop => stop.status shell
      joinAll [child]

def runBuiltin (launch : Launch) : (fuel : Nat) → Mode → Builtin → (arguments : List Bytes) → Step Nat
  | 0, _, _, _ => throw (.failure 2)
  | fuel + 1, mode, builtin, arguments => do
    if builtin.passes then return ← runPassing launch fuel mode builtin arguments
    match builtin.name with
    | "eval" => runLines launch fuel { tested := mode.tested } ⟨Bytes.join (utf8 " ") arguments, 1⟩ 0
    | "." =>
      match arguments with
      | [] => return 0
      | name :: _ =>
        let shell ← get
        match ← Act.look fun machine => Builtin.findScript shell machine name with
        | none => fail (name ++ utf8 ": not found")
        | some path =>
          match ← Act.look fun machine => machine.files.find? shell.directory path with
          | .error cause =>
            fail (utf8 "cannot open " ++ path ++ utf8 ": " ++ openFault cause "No such file")
          | .ok node =>
            let text := match node with
              | .file content _ => content
              | _ => []
            try runLines launch fuel { shown := true } ⟨text, 1⟩ 0
            catch stop => match stop with
              | .fromFunction status => return status
              | stop => throw stop
    | "exec" =>
      match arguments with
      | [] => return 0
      | words => replaceBy launch false words
    | "command" =>
      let (letters, words) ← Builtin.options "pvV" "" arguments
      match words with
      | [] => return 0
      | name :: _ =>
        if Builtin.hasLetter letters 'v' || Builtin.hasLetter letters 'V' then
          Builtin.describe (Builtin.hasLetter letters 'V') name
        else
          let before := (← get).standardPath
          let path := if Builtin.hasLetter letters 'p' then some systemPath else before
          modify ({ · with command := none, standardPath := path })
          let restore : Step Unit := modify ({ · with standardPath := before })
          let builtin := (Builtin.find? name).map ({ · with special := false })
          try
            let status ← call launch fuel mode none builtin words
            restore
            return status
          catch stop =>
            restore
            throw stop
    | "type" =>
      let statuses ← arguments.mapM (Builtin.describe true)
      return if statuses.all (· == 0) then 0 else 127
    | "hash" =>
      let (_, names) ← Builtin.options "rv" "" arguments
      let shell ← get
      let mut status := 0
      for name in names do
        if (← Act.look fun machine => Builtin.findProgram shell machine name).isNone &&
            (Builtin.find? name).isNone && (shell.functions.lookup name).isNone then
          let text ← Act.look fun machine => Builtin.searchFault shell machine name
          complain (name ++ utf8 ": " ++ text)
          status := 1
      return status
    | _ => builtin.run arguments

def runPassing (launch : Launch) : (fuel : Nat) → Mode → Builtin → (arguments : List Bytes) → Step Nat
  | 0, _, _, _ => throw (.failure 2)
  | fuel + 1, mode, builtin, arguments => do
    let withoutCommand (step : Step Nat) : Step Nat := do
      modify ({ · with command := none })
      step
    let plain := if arguments.head? = some (utf8 "--") then arguments.drop 1 else arguments
    let inner : Mode := { tested := mode.tested, inner := true }
    match builtin.name with
    | "eval" =>
      let line := (← get).line
      withoutCommand (runLines launch fuel inner ⟨Bytes.join (utf8 " ") plain, line⟩ 0)
    | "exec" =>
      let (letters, words) ← Builtin.options "cl" "a" arguments
      match words with
      | [] => return 0
      | words =>
        if Builtin.hasLetter letters 'c' then
          modify fun shell => { shell with
            bindings := shell.bindings.map fun entry => { entry with exported := false } }
        let shown := (letters.find? (·.1 == 'a'.toUInt8)).map Prod.snd
        replaceExtended launch true shown words
    | "command" =>
      let (letters, words) ← Builtin.options "pvV" "" arguments
      let has (letter : Char) : Bool := Builtin.hasLetter letters letter
      if words.isEmpty then return 0
      else if has 'v' || has 'V' then Builtin.describeExtended (has 'V') words
      else
        let before := (← get).standardPath
        if has 'p' then modify ({ · with standardPath := some systemPath })
        let restore : Step Unit := modify ({ · with standardPath := before })
        let known := Builtin.findFor? (← get) (words.headD [])
        try
          let status ← withoutCommand (call launch fuel { mode with last := false } none known words)
          restore
          return status
        catch stop =>
          restore
          throw stop
    | "builtin" =>
      match plain with
      | [] => return 0
      | name :: _ =>
        match Builtin.findFor? (← get) name with
        | none => refuse 1 (name ++ utf8 ": not a shell builtin")
        | some known => withoutCommand (call launch fuel { mode with last := false } none (some known) plain)
    | "type" => Builtin.typeExtended arguments
    | _ => runSource launch fuel inner builtin plain

/-- Runs the script of a file within a shell of the extended language. -/
def runSource (launch : Launch) : (fuel : Nat) → Mode → Builtin → (arguments : List Bytes) → Step Nat
  | 0, _, _, _ => throw (.failure 2)
  | fuel + 1, mode, builtin, arguments => do
    match arguments with
    | [] =>
      complain (utf8 "filename argument required")
      let _ ← Act.write 2 (Builtin.usage (utf8 builtin.name))
      return 2
    | name :: others =>
      let shell ← get
      let found ← Act.look fun machine => Builtin.findScript shell machine name
      let path := found.getD name
      modify ({ · with command := none })
      match ← Act.look fun machine => machine.files.find? shell.directory path with
      | .error cause => refuse 1 (path ++ utf8 ": " ++ utf8 cause.message)
      | .ok .directory => refuse 1 (utf8 builtin.name ++ utf8 ": " ++ path ++ utf8 ": is a directory")
      | .ok _ =>
        let descriptor ← Act.freeDescriptor Act.ownDescriptors
        let text ← match ← Act.openAt descriptor shell.directory path .read with
          | .ok () => do
            let text ← Act.readAll descriptor
            Act.close descriptor
            pure (text.toOption.getD [])
          | .error _ => pure []
        let caller : Caller :=
          { name := utf8 "source", line := shell.line, source := path, isFunction := false }
        modify fun shell => { shell with
          callers := caller :: shell.callers
          arguments := if others.isEmpty then shell.arguments else others }
        let restore : Step Unit := modify fun after =>
          { after with
            callers := shell.callers, line := shell.line
            arguments := if others.isEmpty then after.arguments else shell.arguments }
        try
          let status ← runLines launch fuel { mode with shown := true } ⟨text, 1⟩ 0
          restore
          return status
        catch stop =>
          restore
          match stop with
          | .fromFunction status => return status
          | stop => throw stop

end

end ShellCompletion.Shell
