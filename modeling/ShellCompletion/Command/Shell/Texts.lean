import ShellCompletion.Command.Calendar
import ShellCompletion.Command.Shell.Declaring

/-!
# Texts in the extended language

The builtin commands that print texts, read them into variables, and look at them.
-/
namespace ShellCompletion.Builtin

open Shell

/-! ## Printing -/

/-- How escapes are resolved when words are printed. -/
def echoEscapes : Format.Escapes :=
  { afterZero := true, octal := false, hex := true, codes := .short }

def echoExtended (arguments : List Bytes) : Step Nat := do
  print (Format.plainEcho arguments echoEscapes ((← get).hasSetting "xpg_echo"))

def momentText (clock start : Int) (format argument : Bytes) : Bytes :=
  let n := (Bytes.readInteger argument).getD 0
  let seconds := if n = -1 then clock else if n = -2 then start else n
  let moment : Calendar.Moment := { seconds }
  moment.text (if format.isEmpty then utf8 "%X" else format)

def printfExtended (arguments : List Bytes) : Step Nat := do
  let (letters, arguments) ← options "" "v" arguments
  let target := (letters.getLast?).map Prod.snd
  if let some name := target then
    if (declared? name).isNone then refuse 2 (notName name)
  match arguments with
  | [] =>
    let _ ← Act.write 2 (usage (utf8 "printf"))
    return 2
  | format :: arguments =>
    let clock := (← Act.look (·.clock)).fdiv 1000000
    let manner := Format.extended Quoted.word (momentText clock clock)
    let printed := Format.print manner format arguments
    let isWarning (fault : Nat × Bytes) : Bool := (utf8 "warning: ").isPrefixOf fault.2
    for fault in printed.faults do complain fault.2
    if let some spelled := printed.invalid then
      let letter := (spelled.getLast?).getD 0
      complain (if spelled.isEmpty || (utf8 "%hjlLtz").contains letter then
          96 :: (if spelled.isEmpty then utf8 "%" else spelled) ++ utf8 "': missing format character"
        else 96 :: letter :: utf8 "': invalid format character")
    let status := if printed.faults.all isWarning && printed.invalid.isNone then 0 else 1
    match target.bind declared? with
    | some declared =>
      assignTo declared.name declared.subscript false printed.text
      return status
    | none => print printed.text status

/-! ## Reading -/

/-- How much is read, and from where. -/
structure Demand where
  descriptor : Nat := 0
  /-- The byte that ends it. -/
  delimiter : Option UInt8 := some 10
  /-- Backslashes mean nothing. -/
  raw : Bool := false
  most : Option Nat := none
  /-- Until when it is waited for. -/
  deadline : Option Nat := none

/-- How a reading has ended. -/
inductive Reach where
  | complete
  | ended
  | late
deriving DecidableEq

/-- Waits until something can be read; says whether that came in time. -/
def awaitInput (demand : Demand) : Act Bool := do
  match demand.deadline with
  | none => return true
  | some deadline =>
    Act.setWake (some deadline)
    Act.waitUntil fun machine => machine.canRead demand.descriptor || deadline ≤ machine.now
    Act.setWake none
    Act.look (·.canRead demand.descriptor)

def readDemanded (demand : Demand) : (fuel : Nat) → (quoting : Bool) → (found : List PatternByte) →
    Act (List PatternByte × Reach)
  | 0, _, _ => Act.hang
  | fuel + 1, quoting, found => do
    if demand.most.any (· ≤ found.length) then return (found.reverse, .complete)
    if !(← awaitInput demand) then return (found.reverse, .late)
    match ← Act.read demand.descriptor 1 with
    | .ok [c] =>
      if quoting then readDemanded demand fuel false (if c = 10 then found else (c, true) :: found)
      else if c = 92 ∧ !demand.raw then readDemanded demand fuel true found
      else if demand.delimiter = some c then return (found.reverse, .complete)
      else if c = 0 then readDemanded demand fuel quoting found
      else readDemanded demand fuel false ((c, false) :: found)
    | _ => return (found.reverse, .ended)

/-- The time that a text tells in seconds, in microseconds. -/
def duration? (text : Bytes) : Option Nat :=
  let whole := Bytes.before '.'.toUInt8 text
  let fraction := text.drop (whole.length + 1)
  if (whole ++ fraction).all Bytes.isDigit && !(whole ++ fraction).isEmpty then
    let digits := (fraction ++ List.replicate 6 '0'.toUInt8).take 6
    some (Bytes.digitsValue whole * 1000000 + Bytes.digitsValue digits)
  else none

/-- Gives what an argument names a value. -/
def giveTo (name value : Bytes) : Step Unit := do
  match declared? name with
  | some { name, subscript, value := none, .. } =>
    let entry := (← get).binding? name
    let isArray := entry.any (·.elements.isSome)
    assignTo name (if subscript.isNone && isArray then some (utf8 "0") else subscript) false value
  | _ => refuse 1 (notName name)

/-- Reads a line into variables. -/
def readExtended (arguments : List Bytes) : Step Nat := do
  let (letters, names) ← options "ers" "adinNptu" arguments
  let has (letter : Char) : Bool := hasLetter letters letter
  let valueOf (letter : Char) : Option Bytes :=
    ((letters.filter (·.1 == letter.toUInt8)).getLast?).map Prod.snd
  let name? (letter : Char) : Step (Option Nat) := match valueOf letter with
    | none => return none
    | some text =>
      if Bytes.allDigits text then return some (Bytes.digitsValue text)
      else refuse 1 (text ++ utf8 ": invalid number")
  let count ← name? 'n'
  let exact ← name? 'N'
  let descriptor := (← name? 'u').getD 0
  if (← Act.look (·.descriptors.lookup descriptor)).isNone then
    refuse 1 (Bytes.decimal descriptor ++ utf8 ": invalid file descriptor: Bad file descriptor")
  for name in names ++ (valueOf 'a').toList do
    if (declared? name).all (·.value.isSome) then refuse 1 (notName name)
  let limit ← match valueOf 't' with
    | none => pure none
    | some text => match duration? text with
      | some duration => pure (some duration)
      | none => refuse 1 (text ++ utf8 ": invalid timeout specification")
  if limit = some 0 then
    let isReady ← Act.look (·.canRead descriptor)
    return if isReady then 0 else 1
  let now ← Act.look (·.now)
  let delimiter := ((valueOf 'd').map fun text => text.headD 0).getD 10
  let demand : Demand :=
    { descriptor, delimiter := if exact.isSome then none else some delimiter, raw := has 'r'
      most := exact.or count, deadline := limit.map (now + ·) }
  let (bytes, reach) ← readDemanded demand 10000000 false []
  let separators := (← get).separators
  match valueOf 'a', names with
  | some name, _ =>
    let parts := bytes.map fun (c, quoted) => Part.byte c quoted (!quoted)
    assignItems name false ((fieldsOf separators parts).map fun field => { value := Pattern.text field })
  | none, [] => giveTo (utf8 "REPLY") (Pattern.text bytes)
  | none, first :: others =>
    if exact.isSome then
      giveTo first (Pattern.text bytes)
      for name in others do giveTo name []
    else
      let fields := fieldsOfLine separators names.length bytes
      for (name, index) in names.zipIdx do giveTo name (fields[index]?.getD [])
  return match reach with
    | .complete => 0
    | .ended => 1
    | .late => 142

/-- Reads lines into an array. -/
def mapfile (arguments : List Bytes) : Step Nat := do
  let (letters, names) ← options "t" "dnOsuCc" arguments
  let valueOf (letter : Char) : Option Bytes :=
    ((letters.filter (·.1 == letter.toUInt8)).getLast?).map Prod.snd
  let numberOf (letter : Char) : Step (Option Nat) := match valueOf letter with
    | none => return none
    | some text => some <$> number text
  let descriptor := (← numberOf 'u').getD 0
  let count := (← numberOf 'n').getD 0
  let skipped := (← numberOf 's').getD 0
  let origin ← numberOf 'O'
  let delimiter := ((valueOf 'd').map fun text => text.headD 0).getD 10
  let name := names.headD (utf8 "MAPFILE")
  if !isName name then refuse 1 (notName name)
  let keeps := !hasLetter letters 't'
  let cut (text : Bytes) : List Bytes :=
    let parts := Bytes.fields delimiter text
    let ends := parts.dropLast.map fun part => if keeps then part ++ [delimiter] else part
    ends ++ (parts.getLast?.toList.filter (!·.isEmpty))
  let lines ← if count = 0 then do
      let text ← Act.readAll descriptor
      pure (cut (text.toOption.getD []))
    else do
      let mut lines := []
      let mut open_ := true
      for _ in List.range (count + skipped) do
        if open_ then
          let (bytes, reach) ←
            readDemanded { descriptor, delimiter := some delimiter, raw := true } 10000000 false []
          let text := Pattern.text bytes
          if reach = .complete then
            lines := lines ++ [if keeps then text ++ [delimiter] else text]
          else
            open_ := false
            if !text.isEmpty then lines := lines ++ [text]
      pure lines
  let lines := lines.drop skipped
  let old := Reckoning.elementsOf (← get) name
  let start := if origin.isSome then old else .row []
  let elements := lines.zipIdx.foldl (fun (elements : Elements) (line, index) =>
    elements.set (Bytes.decimal (origin.getD 0 + index)) line) start
  assignElements name elements
  return 0

/-! ## Conditions -/

/-- A variable or an element that has a value is named. -/
def isSet (text : Bytes) : Step Bool := do
  match declared? text with
  | some { name, subscript := none, .. } =>
    let value ← Shell.special name
    return value.isSome
  | some { name, subscript := some subscript, .. } =>
    let elements := Reckoning.elementsOf (← get) name
    if subscript = utf8 "@" ∨ subscript = utf8 "*" then return !elements.values.isEmpty
    else return (elements.get? (← Reckoning.keyOf Reckoning.depth name subscript)).isSome
  | none =>
    return Bytes.allDigits text && (parameter? (← get) text).isSome

def isOptionOn (shell : Shell) (name : Bytes) : Bool :=
  (namedOptions.find? (utf8 ·.1 = name)).any (isOn shell)

def ownCondition? (operator word : Bytes) : Step (Option Bool) := do
  if operator = utf8 "-v" then return some (← isSet word)
  else if operator = utf8 "-o" then return some (isOptionOn (← get) word)
  else if operator = utf8 "-R" then return some (((← get).binding? word).any (·.reference))
  else return none

/-- The words of a condition where those on variables have been looked at: they are conditions on a
    text that is empty or not. -/
def settle (start : Bool) : (words : List Bytes) → Step (List Bytes)
  | [] => return []
  | [word] => return [word]
  | operator :: word :: rest => do
    let value ← if start then ownCondition? operator word else pure none
    match value with
    | some value => return utf8 "-n" :: (if value then utf8 "1" else []) :: (← settle false rest)
    | none =>
      let opens := [utf8 "!", utf8 "(", utf8 "-a", utf8 "-o"].contains operator
      let operator := if start && operator == utf8 "-a" then utf8 "-e" else operator
      return operator :: (← settle opens (word :: rest))
termination_by words => words.length

def testExtended (bracket : Bool) (arguments : List Bytes) : Step Nat := do
  if bracket && arguments.getLast? != some (utf8 "]") then
    refuse 2 (utf8 "missing " ++ 96 :: utf8 "]'")
  let words := if bracket then arguments.dropLast else arguments
  let machine ← Act.look id
  let setting : Condition.Setting := { machine, directory := (← get).directory, doubled := true }
  let isComparison := words.length = 3 && (words[1]?).any (Condition.isBinary setting)
  let settled ← if isComparison then pure words else settle true words
  match Condition.evaluate setting settled with
  | .ok true => return 0
  | .ok false => return 1
  | .error fault =>
    refuse 2 (match fault, words with
      | .illegalNumber word, _ => word ++ utf8 ": integer expression expected"
      | .bracketExpected, _ => 96 :: utf8 ")' expected"
      | _, [first, _] => first ++ utf8 ": unary operator expected"
      | _, [_, operator, _] => operator ++ utf8 ": binary operator expected"
      | _, _ => utf8 "too many arguments")

end ShellCompletion.Builtin
