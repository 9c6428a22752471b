import ShellCompletion.Command.Awk.Session
import ShellCompletion.Command.Calendar

/-!
# Running programs of patterns and actions

Expressions are evaluated and statements are carried out in a session. Loops and calls of functions let
other processes have a turn, and none of them comes to an end without fuel.
-/
namespace ShellCompletion.Awk

namespace Running

/-! ## Formats -/

/-- How a conversion of a format is spelled. -/
structure Conversion where
  padding : Format.Padding
  letter : UInt8

/-- A width or a precision: a number, or the next value. -/
def readWidth (s : Bytes) (values : List Value) : Int × Bytes × List Value :=
  match s with
  | 42 :: rest => (integerOf (values.headD .nothing).toNumber, rest, values.drop 1)
  | s => (Bytes.digitsValue (s.takeWhile Bytes.isDigit), s.dropWhile Bytes.isDigit, values)

def convert (conversion : Conversion) (value : Value) (text : Bytes) : Option Bytes :=
  let padding := conversion.padding
  let letter := conversion.letter
  let isOneOf (letters : String) : Bool := (utf8 letters).contains letter
  if isOneOf "s" then some (Format.plainText padding text)
  else if isOneOf "c" then
    let byte := match value with
      | .number number => some (Format.truncated least largest number)
      | .input bytes => (Value.wholeNumber? bytes).map (Format.truncated least largest)
      | _ => none
    let shown := match byte with
      | some n => [UInt8.ofNat (n % 256).toNat]
      | none => [text.headD 0]
    some (Format.pad padding [] shown false)
  else if isOneOf "di" then some (Format.signedText padding (integerOf value.toNumber))
  else if isOneOf "ouxX" then
    let n := Format.truncated least largest value.toNumber
    some (Format.unsignedText padding letter (n % (largest + 1)).toNat)
  else if isOneOf "eEfFgG" then
    if value.toNumber.isNaN then some (Format.plainText { padding with precision := none } (utf8 "-nan"))
    else some (Format.floatText padding letter value.toNumber)
  else none

def formatWith (name : Bytes) (whole : Bytes) : (fuel : Nat) → (number : Nat) → Bytes → List Value →
    Running (Bytes × Option Bytes)
  | 0, _, _, _ => return ([], none)
  | _, _, [], _ => return ([], none)
  | fuel + 1, number, c :: rest, values => do
    let go (text rest : Bytes) (number : Nat) (values : List Value) : Running (Bytes × Option Bytes) := do
      let (more, fault) ← formatWith name whole fuel number rest values
      return (text ++ more, fault)
    let shown := name ++ utf8 "(\"" ++ whole ++ utf8 "\")"
    if c ≠ '%'.toUInt8 then go [c] rest number values
    else if rest.head? = some '%'.toUInt8 then go [c] (rest.drop 1) number values
    else if rest.isEmpty then return ([c], none)
    else
      let flags := rest.takeWhile (utf8 "-0+ #").contains
      let (width, after, values) := readWidth (rest.drop flags.length) values
      let (precision, after, values) := match after with
        | 46 :: after =>
          let (n, after, values) := readWidth after values
          (if n < 0 then none else some n.toNat, after, values)
        | after => (none, after, values)
      let padding : Format.Padding :=
        { left := flags.contains '-'.toUInt8 || width < 0, zeros := flags.contains '0'.toUInt8
          plus := flags.contains '+'.toUInt8, blank := flags.contains ' '.toUInt8
          alternate := flags.contains '#'.toUInt8, width := width.natAbs, precision }
      let after := after.dropWhile (utf8 "lh").contains
      match after, values with
      | letter :: after, value :: values =>
        match convert ⟨padding, letter⟩ value (← textOf value) with
        | some text => go text after (number + 1) values
        | none => return ([], some (utf8 "improper conversion(number " ++ Bytes.decimal number ++
            utf8 ") in " ++ shown))
      | _, _ => return ([], some (utf8 "not enough arguments passed to " ++ shown))

/-- Reports a fault while the program runs. -/
def report (text : Bytes) : Running Unit := do
  let session ← get
  let value (name : String) : Bytes :=
    textWith (utf8 "%.6g") (session.shared.getD (utf8 name) .nothing)
  let _ ← act (Act.write 2 (session.call.name ++ utf8 ": run time error: " ++ text ++
    utf8 "\n\tFILENAME=\"" ++ value "FILENAME" ++ utf8 "\" FNR=" ++ value "FNR" ++ utf8 " NR=" ++
    value "NR" ++ utf8 "\n"))

/-! ## Functions -/

/-- A part of a text: so many bytes from the place of a byte on. A place before the text makes the part
    longer. -/
def part (text : Bytes) (start : Float) (length : Option Float) : Bytes :=
  let clamp (value : Float) : Int := Format.truncated (-1000000000) 1000000000 value
  let start := clamp start
  let rest := text.drop (start - 1).toNat
  match length with
  | none => rest
  | some length => rest.take (clamp length - min start 0).toNat

/-- Where a text is in another one, counted from one; zero if it is not. -/
def placeIn (text wanted : Bytes) : Nat :=
  match (List.range (text.length + 1)).find? fun place => wanted.isPrefixOf (text.drop place) with
  | some place => if wanted.isEmpty && text.isEmpty then 0 else place + 1
  | none => 0

/-- What takes the place of a match: an ampersand stands for the match. -/
def substitute (matched : Bytes) : (fuel : Nat) → Bytes → Bytes
  | 0, text => text
  | _, [] => []
  | fuel + 1, c :: rest =>
    if c = '&'.toUInt8 then matched ++ substitute matched fuel rest
    else if c ≠ 92 then c :: substitute matched fuel rest
    else
      let slashes := (c :: rest).takeWhile (· == 92)
      let after := (c :: rest).drop slashes.length
      match after with
      | 38 :: more =>
        slashes.take (slashes.length / 2) ++
          (if slashes.length % 2 = 0 then matched else [38]) ++ substitute matched fuel more
      | after => slashes ++ substitute matched fuel after

/-- A text with the first match replaced, or all of them, and how many there are. -/
def replace (regex : Regex) (every : Bool) (replacement text : Bytes) : Bytes × Nat :=
  let found := if every then regex.occurrences .longest text
    else (Regex.find? .longest regex text.toArray 0).toList
  let (parts, place) := found.foldl (fun (parts, place) (start, ending, _) =>
    let matched := (text.drop start).take (ending - start)
    let before := (text.drop place).take (start - place)
    (substitute matched (replacement.length + 1) replacement :: before :: parts, ending))
    (([] : List Bytes), 0)
  ((text.drop place :: parts).reverse.flatten, found.length)

/-- The value of two numbers under an operator. -/
def reckon (operator : Operator) (a b : Float) : Float :=
  match operator with
  | .plus => a + b
  | .minus => a - b
  | .times => a * b
  | .divided => a / b
  | .modulo => Format.remainder a b
  | .power => Float.pow a b

/-- Two values are in an order. -/
def holds (comparison : Comparison) (order : Ordering) : Bool :=
  match comparison with
  | .less => order == .lt
  | .lessOrEqual => order != .gt
  | .equal => order == .eq
  | .notEqual => order != .eq
  | .greater => order == .gt
  | .greaterOrEqual => order != .lt

def compareTexts (a b : Bytes) : Ordering :=
  if a == b then .eq else if Bytes.le a b then .lt else .gt

/-- Compares two values: as numbers if both are some, and as texts otherwise. -/
def compared (comparison : Comparison) (a b : Value) : Running Bool := do
  match a.number?, b.number? with
  | some a, some b =>
    return match comparison with
      | .less => a < b
      | .lessOrEqual => a ≤ b
      | .equal => a == b
      | .notEqual => a != b
      | .greater => a > b
      | .greaterOrEqual => a ≥ b
  | _, _ => return holds comparison (compareTexts (← textOf a) (← textOf b))

/-- The expression that a value spells. -/
def regexOf (value : Value) : Running Regex := do
  let text ← textOf value
  match Regex.Escaped.read text with
  | .ok regex => return regex
  | .error flaw =>
    fail (utf8 "regular expression compile failed (" ++ utf8 flaw.message ++ utf8 ")\n" ++ text)

/-- The seconds since the start of 1970 of six numbers. -/
def timeOf (text : Bytes) : Float :=
  let numbers := (split .blanks text).map fun part => (Bytes.readInteger part).getD 0
  match numbers with
  | year :: month :: day :: hour :: minute :: second :: _ =>
    Float.ofInt (Calendar.dayNumber year month day * 86400 + hour * 3600 + minute * 60 + second)
  | _ => -1

/-! ## Evaluation -/

/-- Where a value can be put. -/
inductive Place where
  | named (name : Name)
  | field (n : Nat)
  | element (table : Nat) (key : Table.Key)
  | nowhere

def valueAt : Place → Running Value
  | .named name => valueOf name
  | .field n => field n
  | .element table key => onTable table (·.get key)
  | .nowhere => return .nothing

def store (place : Place) (value : Value) : Running Unit :=
  match place with
  | .named name => assign name value
  | .field n => setField n value
  | .element table key => onTable table fun table => ((), table.set key value)
  | .nowhere => pure ()

mutual

def evaluate : (fuel : Nat) → Expr → Running Value
  | 0, _ => act Act.hang
  | fuel + 1, expr => do
    match expr with
    | .number value => return .number value
    | .text bytes => return .text bytes
    | .regex regex => return .ofBool (regex.accepts (← recordText))
    | .named name => valueOf name
    | .field index => field (← fieldNumber (← evaluate fuel index))
    | .element array subscript =>
      let key ← keyOf (← evaluate fuel subscript)
      onTable (← tableNumber array) (·.get key)
    | .joined parts =>
      let texts ← (← evaluateAll fuel parts).mapM textOf
      return .text (Bytes.join (← textOf (← sharedValue "SUBSEP")) texts)
    | .assign target operator value =>
      let place ← placeOf fuel target
      let value ← evaluate fuel value
      let value ← match operator with
        | none => pure value
        | some operator => do
          pure (.number (reckon operator (← valueAt place).toNumber value.toNumber))
      store place value
      return value
    | .step target up after =>
      let place ← placeOf fuel target
      let old := (← valueAt place).toNumber
      let new := if up then old + 1 else old - 1
      store place (.number new)
      return .number (if after then old else new)
    | .not body => return .ofBool (!(← evaluate fuel body).isTrue)
    | .negative body => return .number (-(← evaluate fuel body).toNumber)
    | .positive body => return .number (← evaluate fuel body).toNumber
    | .binary operator a b =>
      let a ← evaluate fuel a
      let b ← evaluate fuel b
      return .number (reckon operator a.toNumber b.toNumber)
    | .compare comparison a b =>
      let a ← evaluate fuel a
      let b ← evaluate fuel b
      return .ofBool (← compared comparison a b)
    | .concat a b =>
      let a ← textOf (← evaluate fuel a)
      let b ← textOf (← evaluate fuel b)
      return .text (a ++ b)
    | .and a b =>
      if !(← evaluate fuel a).isTrue then return .ofBool false
      else return .ofBool (← evaluate fuel b).isTrue
    | .or a b =>
      if (← evaluate fuel a).isTrue then return .ofBool true
      else return .ofBool (← evaluate fuel b).isTrue
    | .choice condition yes no =>
      if (← evaluate fuel condition).isTrue then evaluate fuel yes else evaluate fuel no
    | .isMember subscript array =>
      let key ← keyOf (← evaluate fuel subscript)
      return .ofBool (← onTable (← tableNumber array) (·.find false key))
    | .isMatch wanted text regex =>
      let text ← textOf (← evaluate fuel text)
      let regex ← toRegex fuel regex
      return .ofBool (regex.accepts text == wanted)
    | .call function arguments => callFunction fuel function arguments
    | .builtin function arguments => callBuiltin fuel function arguments
    | .readLine kind source target =>
      let found ← match kind, source with
        | .input, _ | _, none =>
          let files := (← get).call.arguments.length + 8
          match ← readInput files with
          | some record => pure (Except.ok record)
          | none => pure (.error 0)
        | kind, some source =>
          let name ← textOf (← evaluate fuel source)
          readFeed (kind == .command) name
      match found with
      | .error n => return .number (Float.ofInt n)
      | .ok record =>
        match target with
        | none => setRecord (.input record)
        | some target => store (← placeOf fuel target) (.input record)
        return .number 1
    | .grouping parts =>
      let values ← evaluateAll fuel parts
      return values.getLast?.getD .nothing

def evaluateAll : (fuel : Nat) → List Expr → Running (List Value)
  | 0, _ => act Act.hang
  | _, [] => return []
  | fuel + 1, expr :: rest => do
    let value ← evaluate fuel expr
    return value :: (← evaluateAll fuel rest)

def placeOf : (fuel : Nat) → Expr → Running Place
  | 0, _ => act Act.hang
  | fuel + 1, target => do
    match target with
    | .named name => return .named name
    | .field index => return .field (← fieldNumber (← evaluate fuel index))
    | .element array subscript =>
      let key ← keyOf (← evaluate fuel subscript)
      let number ← tableNumber array
      let _ ← onTable number (·.find true key)
      return .element number key
    | _ => return .nowhere

/-- The expression to match with that is meant by an expression. -/
def toRegex : (fuel : Nat) → Expr → Running Regex
  | 0, _ => act Act.hang
  | fuel + 1, expr => do
    match expr with
    | .regex regex => return regex
    | expr => regexOf (← evaluate fuel expr)

def callFunction : (fuel : Nat) → Bytes → List Expr → Running Value
  | 0, _, _ => act Act.hang
  | fuel + 1, name, arguments => do
    pause
    match (← get).program.functions.lookup name with
    | none => fail (utf8 "function " ++ name ++ utf8 " never defined")
    | some function =>
      let given ← passAll fuel function.parameters arguments
      let frame := (← get).frame
      modify ({ · with frame := given.toArray })
      let result ← tryCatch (do
          execute fuel function.body
          return Value.nothing) fun jump => match jump with
        | .back value => return value
        | jump => throw jump
      modify ({ · with frame })
      return result

/-- What the parameters of a function stand for when it is called. -/
def passAll : (fuel : Nat) → List Bool → List Expr → Running (List Cell)
  | 0, _, _ => act Act.hang
  | _, [], _ => return []
  | fuel + 1, isArray :: others, arguments => do
    let cell ← match isArray, arguments with
      | true, .named name :: _ => pure (Cell.array (← tableNumber name))
      | true, _ => pure (.array (← addTable {}))
      | false, argument :: _ => pure (.scalar (← evaluate fuel argument))
      | false, [] => pure (.scalar .nothing)
    return cell :: (← passAll fuel others (arguments.drop 1))

def callBuiltin : (fuel : Nat) → Builtin → List Expr → Running Value
  | 0, _, _ => act Act.hang
  | fuel + 1, builtin, arguments => do
    let number (f : Float → Float) : Running Value := do
      match arguments with
      | argument :: _ => return .number (f (← evaluate fuel argument).toNumber)
      | [] => return .number 0
    let text (f : Bytes → Value) : Running Value := do
      match arguments with
      | argument :: _ => return f (← textOf (← evaluate fuel argument))
      | [] => return f []
    let ofNat (n : Nat) : Value := .number (Float.ofNat n)
    let ofInt (n : Int) : Value := .number (Float.ofInt n)
    match builtin, arguments with
    | .atan2, _ =>
      match ← evaluateAll fuel arguments with
      | [a, b] => return .number (Float.atan2 a.toNumber b.toNumber)
      | _ => return .nothing
    | .cos, _ => number Float.cos
    | .sin, _ => number Float.sin
    | .exp, _ => number Float.exp
    | .log, _ => number Float.log
    | .sqrt, _ => number Float.sqrt
    | .int, _ => number Format.wholePart
    | .tolower, _ => text fun bytes => .text (Bytes.lower bytes)
    | .toupper, _ => text fun bytes => .text (Bytes.upper bytes)
    | .length, [] => return ofNat (← recordText).length
    | .length, .named (.shared name) :: _ =>
      match (← get).arrays[name]? with
      | some number => return ofNat (← onTable number fun table => (table.size, table))
      | none => text fun bytes => ofNat bytes.length
    | .length, .named (.parameter index) :: _ =>
      match (← get).frame.getD index default with
      | .array number => return ofNat (← onTable number fun table => (table.size, table))
      | .scalar _ => text fun bytes => ofNat bytes.length
    | .length, _ => text fun bytes => ofNat bytes.length
    | .index, _ =>
      match ← (← evaluateAll fuel arguments).mapM textOf with
      | [a, b] => return ofNat (placeIn a b)
      | _ => return .nothing
    | .substr, _ =>
      match ← evaluateAll fuel arguments with
      | source :: start :: rest =>
        return .text (part (← textOf source) start.toNumber (rest.head?.map Value.toNumber))
      | _ => return .nothing
    | .sprintf, _ =>
      match ← evaluateAll fuel arguments with
      | format :: values =>
        let format ← textOf format
        let (shown, fault) ←
          formatWith (utf8 "sprintf") format (format.length + 1) 1 (Bytes.untilNul format) values
        match fault with
        | some fault => fail fault
        | none => return .text shown
      | [] => return .nothing
    | .match_, [source, regex] =>
      let source ← textOf (← evaluate fuel source)
      let regex ← toRegex fuel regex
      let (start, length) : Int × Int := match Regex.find? .longest regex source.toArray 0 with
        | some (start, ending, _) => ((start : Int) + 1, (ending : Int) - start)
        | none => (0, -1)
      setShared (utf8 "RSTART") (ofInt start)
      setShared (utf8 "RLENGTH") (ofInt length)
      return ofInt start
    | .split, source :: .named array :: rest =>
      let source ← textOf (← evaluate fuel source)
      let splitter ← match rest with
        | [] => do pure (← get).splitter
        | .regex regex :: _ => pure (.regex regex)
        | separator :: _ => splitterOf (← textOf (← evaluate fuel separator))
      let parts := split splitter source
      onTable (← tableNumber array) fun _ => ((), Table.ofList (parts.map Value.input))
      return ofNat parts.length
    | .sub, regex :: replacement :: rest | .gsub, regex :: replacement :: rest =>
      let regex ← toRegex fuel regex
      let replacement ← textOf (← evaluate fuel replacement)
      let target := rest.headD (.field (.number 0))
      let place ← placeOf fuel target
      let source ← textOf (← match place with
        | .nowhere => evaluate fuel target
        | place => valueAt place)
      let (result, found) := replace regex (builtin == .gsub) replacement source
      if 0 < found then store place (.text result)
      return ofNat found
    | .system, _ =>
      match arguments with
      | argument :: _ =>
        let command ← textOf (← evaluate fuel argument)
        flushAll
        let ending ← act ((← get).call.runShell command)
        return ofInt (endingNumber ending)
      | [] => return .nothing
    | .close, argument :: _ => return ofInt (← closeNamed (← textOf (← evaluate fuel argument)))
    | .fflush, _ =>
      let _ ← evaluateAll fuel arguments
      flushAll
      return .number 0
    | .systime, _ =>
      let clock ← act (Act.look (·.clock))
      return ofInt (clock.fdiv 1000000)
    | .mktime, _ => text fun bytes => .number (timeOf bytes)
    | .strftime, _ =>
      let values ← evaluateAll fuel arguments
      let clock ← act (Act.look (·.clock))
      let format ← match values.head? with
        | some format => textOf format
        | none => pure (utf8 "%c")
      let seconds := match values[1]? with
        | some value => integerOf value.toNumber
        | none => clock.fdiv 1000000
      let moment : Calendar.Moment := { seconds }
      return .text (moment.text format)
    | .rand, _ =>
      let seed := ((← get).seed * 6364136223846793005 + 1442695040888963407) % 18446744073709551616
      modify ({ · with seed })
      return .number (Float.ofNat (seed >>> 11) / 9007199254740992.0)
    | .srand, _ =>
      let old := (← get).seed
      let clock ← act (Act.look (·.clock))
      let seed ← match arguments with
        | argument :: _ => pure (integerOf (← evaluate fuel argument).toNumber)
        | [] => pure (clock.fdiv 1000000)
      modify ({ · with seed := seed.natAbs })
      return ofNat old
    | _, _ => return .nothing

/-- Carries a statement out. -/
def execute : (fuel : Nat) → Stmt → Running Unit
  | 0, _ => act Act.hang
  | fuel + 1, stmt => do
    match stmt with
    | .nothing => pure ()
    | .evaluate value => let _ ← evaluate fuel value
    | .print formatted values target => printValues fuel formatted values target
    | .block body => executeAll fuel body
    | .branch condition yes no =>
      if (← evaluate fuel condition).isTrue then execute fuel yes else execute fuel no
    | .loop first condition body next =>
      pause
      let goesOn ← if first then pure (← evaluate fuel condition).isTrue else pure true
      if goesOn then
        let leaves ← tryCatch (do
            execute fuel body
            return false) fun jump => match jump with
          | .leave => return true
          | .again => return false
          | jump => throw jump
        if !leaves then
          execute fuel next
          if first then execute fuel stmt
          else if (← evaluate fuel condition).isTrue then execute fuel stmt
    | .forEach name array body =>
      let keys ← onTable (← tableNumber array) (·.keys)
      forAll fuel name body keys
    | .leave => throw .leave
    | .again => throw .again
    | .nextRecord => throw .nextRecord
    | .nextFile => throw .nextFile
    | .exit status =>
      if let some status := status then
        let n := integerOf (← evaluate fuel status).toNumber
        modify ({ · with status := (n % 256).toNat })
      throw .exit
    | .return_ value =>
      match value with
      | some value => throw (.back (← evaluate fuel value))
      | none => throw (.back .nothing)
    | .delete array subscript =>
      let number ← tableNumber array
      match subscript with
      | some subscript =>
        let key ← keyOf (← evaluate fuel subscript)
        onTable number fun table => ((), table.erase key)
      | none => onTable number fun _ => ((), {})

def executeAll : (fuel : Nat) → List Stmt → Running Unit
  | 0, _ => act Act.hang
  | _, [] => pure ()
  | fuel + 1, stmt :: rest => do
    execute fuel stmt
    executeAll fuel rest

/-- Carries a statement out for each of some keys. -/
def forAll : (fuel : Nat) → Name → Stmt → List Bytes → Running Unit
  | 0, _, _, _ => act Act.hang
  | _, _, _, [] => pure ()
  | fuel + 1, name, body, key :: rest => do
    pause
    assign name (.text key)
    let leaves ← tryCatch (do
        execute fuel body
        return false) fun jump => match jump with
      | .leave => return true
      | .again => return false
      | jump => throw jump
    if !leaves then forAll fuel name body rest

def printValues : (fuel : Nat) → Bool → List Expr → Option (TargetKind × Expr) → Running Unit
  | 0, _, _, _ => act Act.hang
  | fuel + 1, isFormatted, values, target => do
    let put (text : Bytes) : Running Unit := do
      match target with
      | none =>
        let session ← get
        set { session with outlet := (← act (session.outlet.put text)).1 }
      | some (kind, name) => writeTo kind (← textOf (← evaluate fuel name)) text
    let values ← evaluateAll fuel values
    if isFormatted then
      let format ← textOf (values.headD .nothing)
      let (text, fault) ←
        formatWith (utf8 "printf") format (format.length + 1) 1 (Bytes.untilNul format) (values.drop 1)
      put text
      if let some fault := fault then fail fault
    else
      let ending ← textOf (← sharedValue "ORS")
      if values.isEmpty then put ((← recordText) ++ ending)
      else
        let separator ← textOf (← sharedValue "OFS")
        let format := textWith (utf8 "%.6g") (← sharedValue "OFMT")
        put (Bytes.join separator (values.map (textWith format)) ++ ending)

end

/-! ## Programs -/

/-- More steps one after the other than a program takes. -/
def steps : Nat := 1000000000000

/-- A pattern selects the record. -/
def isSelected (index : Nat) (selection : Selection) : Running Bool := do
  match selection with
  | .every => return true
  | .one condition => return (← evaluate steps condition).isTrue
  | .range first last =>
    let begun := (← get).ranges.contains index
    let begins ← if begun then pure true else pure (← evaluate steps first).isTrue
    if begins then
      let ends := (← evaluate steps last).isTrue
      modify fun session => { session with
        ranges := if ends then session.ranges.filter (· != index)
          else if begun then session.ranges else index :: session.ranges }
    return begins

/-- Does what the rules say for each record. `fuel` bounds the records. -/
def eachRecord (rules : List Rule) : (fuel : Nat) → Running Unit
  | 0 => act Act.hang
  | fuel + 1 => do
    let files := (← get).call.arguments.length + 8
    match ← readInput files with
    | none => pure ()
    | some record =>
      setRecord (.input record)
      tryCatch (rules.zipIdx.forM fun (rule, index) => do
          if ← isSelected index rule.selection then execute steps rule.action) fun jump =>
        match jump with
        | .nextRecord => pure ()
        | .nextFile => closeInput
        | jump => throw jump
      eachRecord rules fuel

def wholeProgram : Running Unit := do
  let program := (← get).program
  tryCatch (do
      for stmt in program.first do execute steps stmt
      if program.readsInput then eachRecord program.rules steps) fun jump => match jump with
    | .exit => pure ()
    | jump => throw jump
  for stmt in program.last do execute steps stmt

/-- Runs a program to its end; the result is its status. -/
def run : StateT Session Act Nat := do
  match ← ExceptT.run wholeProgram with
  | .error (.failure text) =>
    let _ ← ExceptT.run (do
      report text
      closeAll)
    return 2
  | _ =>
    let _ ← ExceptT.run closeAll
    return (← get).status

end Running

end ShellCompletion.Awk
