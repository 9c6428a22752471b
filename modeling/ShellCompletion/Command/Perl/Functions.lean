import ShellCompletion.Command.Calendar
import ShellCompletion.Command.Perl.Printing
import ShellCompletion.Command.Utility.Encoding

/-!
# Functions of values

The functions that need nothing but the values that they are given: of numbers, of texts, of times and of
lists.
-/
namespace ShellCompletion.Perl

/-! ## Numbers -/

/-- The number that digits spell, with a sign for their base before them. -/
def octalValue (text : Bytes) : Scalar :=
  let clean := (text.dropWhile Bytes.isSpace).filter (· != '_'.toUInt8)
  let word := Bytes.lower (clean.take 2)
  let valueOf (base : Nat) (isDigit : UInt8 → Bool) (digits : Bytes) : Scalar :=
    Scalar.ofInt (Bytes.valueIn base (digits.takeWhile isDigit))
  let isBit (c : UInt8) : Bool := c == 48 || c == 49
  if word = utf8 "0x" then valueOf 16 Bytes.isHex (clean.drop 2)
  else if word = utf8 "0b" then valueOf 2 isBit (clean.drop 2)
  else if word = utf8 "0o" then valueOf 8 Bytes.isOctal (clean.drop 2)
  else if word.head? = some 'x'.toUInt8 then valueOf 16 Bytes.isHex (clean.drop 1)
  else if word.head? = some 'b'.toUInt8 then valueOf 2 isBit (clean.drop 1)
  else valueOf 8 Bytes.isOctal clean

def hexValue (text : Bytes) : Scalar :=
  let clean := text.filter (· != '_'.toUInt8)
  let digits := if Bytes.lower (clean.take 2) = utf8 "0x" then clean.drop 2
    else if Bytes.lower (clean.take 1) = utf8 "x" then clean.drop 1 else clean
  Scalar.ofInt (Bytes.valueIn 16 (digits.takeWhile Bytes.isHex))

/-- The integer towards zero. -/
def wholeValue (value : Scalar) : Scalar :=
  match value.number with
  | .float x =>
    if x.abs < 9.2e18 then .int (Format.truncated leastInt largestInt x)
    else if x.isFinite then .float (Format.wholePart x) else .float x
  | value => value

def floatValue (x : Float) : Scalar := Scalar.settled x

/-- The number after a random number, of 48 bits. -/
def nextSeed (seed : Nat) : Nat := (seed * 0x5DEECE66D + 0xB) % 281474976710656

/-- The random number that a seed starts with. -/
def seedOf (n : Nat) : Nat := n % 4294967296 * 65536 + 0x330E

/-! ## Texts -/

/-- A text with a backslash before every byte that could mean something. -/
def quotedMeta (text : Bytes) : Bytes :=
  text.flatMap fun c =>
    if Bytes.isAlpha c || Bytes.isDigit c || c == '_'.toUInt8 then [c] else [92, c]

/-- The first letter in another case. -/
def firstChanged (change : UInt8 → UInt8) : Bytes → Bytes
  | [] => []
  | c :: rest => change c :: rest

/-- Where a text is in another one, from a place on. `fuel` bounds the places. -/
def placeOf (wanted : Bytes) : (fuel : Nat) → (place : Nat) → Bytes → Option Nat
  | 0, _, _ => none
  | fuel + 1, place, s =>
    if wanted.isPrefixOf s then some place
    else match s with
      | [] => none
      | _ :: rest => placeOf wanted fuel (place + 1) rest

def firstPlace (text wanted : Bytes) (start : Int) : Int :=
  let start := min start.toNat text.length
  match placeOf wanted (text.length + 1) start (text.drop start) with
  | some place => place
  | none => -1

def lastPlace (text wanted : Bytes) (limit : Option Int) : Int :=
  let most : Int := (text.length : Int) - wanted.length
  let most : Int := match limit with
    | some (limit : Int) => min most limit
    | none => most
  if most < 0 then if wanted.isEmpty && limit.any (· < 0) then 0 else -1
  else match ((List.range (most.toNat + 1)).reverse).find? fun place =>
      wanted.isPrefixOf (text.drop place) with
    | some place => place
    | none => -1

/-- The part of a text from an offset on, as start and length; none if it lies outside. -/
def partOf? (size : Nat) (offset : Int) (length : Option Int) : Option (Nat × Nat) :=
  let n : Int := size
  let start := if offset < 0 then n + offset else offset
  let ending := match length with
    | none => n
    | some length => if length < 0 then n + length else start + length
  if n < start then none
  else if start < 0 && ending < 0 then none
  else
    let from_ := max 0 start
    let to_ := max from_ (min n ending)
    some (from_.toNat, (to_ - from_).toNat)

def translate (t : Translation) (text : Bytes) : Bytes × Nat :=
  let wanted := t.wanted
  let isWanted (c : UInt8) : Bool := wanted.contains c != t.complement
  let replacement := if t.replacement.isEmpty && !t.deletes then (if t.complement then [] else wanted) else t.replacement
  let goal (c : UInt8) : Option UInt8 :=
    let index := if t.complement then 0 else (wanted.findIdx? (· == c)).getD 0
    match replacement[index]? with
    | some d => if t.complement then (if t.deletes then replacement[0]? else replacement.getLast?) else some d
    | none => if t.deletes then none
      else if t.complement && t.replacement.isEmpty then some c else replacement.getLast?
  let step (state : Bytes × Nat × Option UInt8) (c : UInt8) : Bytes × Nat × Option UInt8 :=
    let (done, count, last) := state
    if isWanted c then
      match goal c with
      | none => (done, count + 1, last)
      | some d => if t.squeezes && last == some d then (done, count + 1, last)
        else (d :: done, count + 1, some d)
    else (c :: done, count, none)
  let (done, count, _) := text.foldl step ([], 0, none)
  (done.reverse, count)

/-- The key by which the values of a text with the same letters in other cases are the same. -/
def foldedCase (text : Bytes) : Bytes := Bytes.lower text

/-! ## Times -/

def momentOf (seconds : Int) : Calendar.Moment := { seconds }

def timeParts (moment : Calendar.Moment) : List Scalar :=
  let date := moment.date
  [moment.second % 60, moment.second / 60 % 60, moment.hour, date.day, date.month - 1].map Scalar.ofNat ++
    [.int (date.year - 1900), Scalar.ofNat (Calendar.weekday moment.days), Scalar.ofNat moment.yearDay, .int 0]

def timeText (moment : Calendar.Moment) : Bytes := moment.text (utf8 "%a %b %e %H:%M:%S %Y")

def momentOfParts (parts : List Scalar) : Calendar.Moment :=
  let part (index : Nat) : Int := (parts.getD index .nothing).toInt
  let days := Calendar.dayNumber (part 5 + 1900) (part 4 + 1) (part 3)
  { seconds := days * 86400 + part 2 * 3600 + part 1 * 60 + part 0 }

/-! ## Names of files -/

/-- A path as the directory and the name. -/
def splitPath (path : Bytes) : Bytes × Bytes :=
  let name := Path.fileName path
  (path.take (path.length - name.length), name)

/-- The name at the end of a path, without the first of some endings that it has. -/
def baseOf (path : Bytes) (endings : List Bytes) : Bytes :=
  let path := if path.all (· == Path.slash) then path.take 1 else Path.dropSlashes path
  let name := if path == [Path.slash] then path else Path.fileName path
  match endings.find? fun ending => ending.isSuffixOf name && ending.length < name.length with
  | some ending => name.take (name.length - ending.length)
  | none => name

def directoryOf (path : Bytes) : Bytes :=
  let path := Path.dropSlashes path
  let (directory, _) := splitPath path
  if directory.isEmpty then (if path.isEmpty then utf8 "/" else utf8 ".")
  else if directory.all (· == Path.slash) then utf8 "/"
  else Path.dropSlashes directory

/-! ## Letters of base sixty-four -/

def base64Letters : Bytes :=
  utf8 "ABCDEFGHIJKLMNOPQRSTUVWXYZabcdefghijklmnopqrstuvwxyz0123456789+/"

def base64Text : Bytes → Bytes
  | [] => []
  | a :: rest =>
    let letter (n : Nat) : UInt8 := base64Letters.getD (n % 64) 65
    match rest with
    | [] => [letter (a.toNat / 4), letter (a.toNat * 16), 61, 61]
    | [b] => [letter (a.toNat / 4), letter (a.toNat * 16 + b.toNat / 16), letter (b.toNat * 4), 61]
    | b :: c :: rest =>
      letter (a.toNat / 4) :: letter (a.toNat % 4 * 16 + b.toNat / 16) ::
        letter (b.toNat % 16 * 4 + c.toNat / 64) :: letter c.toNat :: base64Text rest

/-- The bytes that letters of base sixty-four spell. -/
def base64Bytes : List Nat → Bytes
  | a :: b :: rest =>
    UInt8.ofNat ((a * 4 + b / 16) % 256) :: match rest with
      | c :: d :: rest =>
        UInt8.ofNat ((b * 16 + c / 4) % 256) :: UInt8.ofNat ((c * 64 + d) % 256) :: base64Bytes rest
      | [c] => [UInt8.ofNat ((b * 16 + c / 4) % 256)]
      | [] => []
  | _ => []

/-- A text in lines of some length, each with an ending. `fuel` bounds them. -/
def inLines (length : Nat) (ending : Bytes) : (fuel : Nat) → Bytes → Bytes
  | 0, s => s
  | _, [] => []
  | fuel + 1, s => s.take length ++ ending ++ inLines length ending fuel (s.drop length)

/-! ## Cutting texts -/

/-- The parts of a text between matches, with what groups matched in between. At most so many parts are
    cut, if there is a limit; empty parts at the end do not count otherwise. -/
def splitParts (regex : Regex) (groups : Nat) (text : Bytes) (limit : Int) : List Scalar :=
  let all := (regex.occurrences .first text).filter fun found => !(found.1 = found.2.1 && found.2.1 ≥ text.length)
  /- A match of nothing at the start cuts nothing off. -/
  let all := all.filter fun found => !(found.2.1 = 0)
  let used := if 0 < limit then all.take (limit.toNat - 1) else all
  let pieces := used.foldl (fun (state : List Scalar × Nat) found =>
    let (done, start) := state
    let part := Scalar.text ((text.drop start).take (found.1 - start))
    let kept := (List.range groups).map fun k =>
      match Regex.groupText? text found (k + 1) with
      | some bytes => Scalar.text bytes
      | none => .nothing
    (kept.reverse ++ part :: done, found.2.1)) (([] : List Scalar), 0)
  let parts := (.text (text.drop pieces.2) :: pieces.1)
  let isEmpty (value : Scalar) : Bool := match value with
    | .text bytes => bytes.isEmpty
    | .nothing => true
    | _ => false
  let parts := if limit = 0 then parts.dropWhile isEmpty else parts
  if text.isEmpty then [] else parts.reverse

/-- The words of a text, at most so many of them; the last one keeps the rest. `fuel` bounds them. -/
def splitWords : (fuel : Nat) → (limit : Int) → Bytes → List Scalar
  | 0, _, _ => []
  | fuel + 1, limit, s =>
    let s := s.dropWhile Bytes.isSpace
    if s.isEmpty then (if limit < 0 || 0 < limit then [.text []] else [])
    else if limit = 1 then [.text s]
    else
      let word := s.takeWhile (!Bytes.isSpace ·)
      let rest := s.drop word.length
      if rest.isEmpty then [.text word]
      else .text word :: splitWords fuel (if 0 < limit then limit - 1 else limit) rest

namespace Running

/-! ## Values in a list -/

/-- A random number below one. -/
def random : Running Float := do
  let session ← get
  let seed := nextSeed session.seed
  set { session with seed }
  return floatOfInt seed / 281474976710656.0

def shuffled (values : Array Scalar) : Running (List Scalar) := do
  let mut values := values
  for k in List.range (values.size - 1) do
    let last := values.size - k
    let index := (Format.truncated 0 last ((← random) * floatOfInt last)).toNat
    let a := values.getD index default
    let b := values.getD (last - 1) default
    values := (values.setIfInBounds index b).setIfInBounds (last - 1) a
  return values.toList

/-- The values without those whose texts were there before. -/
def distinct (values : List Scalar) : Running (List Scalar) := do
  let mut seen : Std.HashMap Bytes Unit := {}
  let mut found : List Scalar := []
  for value in values do
    let text ← textOf value
    if !seen.contains text then
      seen := seen.insert text ()
      found := value :: found
  return found.reverse

def inQuotes (text : Bytes) : Bytes :=
  39 :: text.flatMap (fun c => if c = 39 || c = 92 then [92, c] else [c]) ++ [39]

/-- A value as a program would spell it, with all that it leads to. `fuel` bounds how deep that is. -/
def dumped (indent : Nat) (sorts : Bool) : (fuel : Nat) → (column : Nat) → Scalar → Running Bytes
  | 0, _, _ => return utf8 "undef"
  | fuel + 1, column, value => do
    match value with
    | .nothing => return utf8 "undef"
    | .reference address =>
      let package := (← get).classes[address]?
      let inner := if package.isSome then column + if indent < 2 then 2 else 7 else column
      let gap (column : Nat) : Bytes := if indent = 0 then [] else 10 :: List.replicate column 32
      let step := if indent = 1 then 2 else 2
      let comma : Bytes := if indent = 0 then utf8 "," else utf8 ","
      let body ← match ← cellAt address with
        | .array items => do
          if items.isEmpty then pure (utf8 "[]")
          else
            let parts ← items.toList.mapM fun item => do dumped indent sorts fuel (inner + step) (← scalarAt item)
            pure (utf8 "[" ++ Bytes.join comma (parts.map fun part => gap (inner + step) ++ part) ++ gap inner ++ utf8 "]")
        | .table table => do
          if table.size = 0 then pure (utf8 "\x7b\x7d")
          else
            let entries := if sorts then table.entries.mergeSort fun a b => Bytes.le a.1 b.1 else table.entries
            let arrow := if indent = 0 then utf8 " => " else utf8 " => "
            let parts ← entries.mapM fun (name, item) => do
              let key := inQuotes name ++ arrow
              let column := inner + step + if indent = 1 then 0 else key.length
              return key ++ (← dumped indent sorts fuel column (← scalarAt item))
            pure (utf8 "\x7b" ++ Bytes.join comma (parts.map fun part => gap (inner + step) ++ part) ++ gap inner ++ utf8 "\x7d")
        | .code _ => pure (utf8 "sub \x7b \"DUMMY\" \x7d")
        | .scalar value => do pure (utf8 "\\" ++ (← dumped indent sorts fuel (inner + 2) value))
      match package with
      | some name => return utf8 "bless( " ++ body ++ utf8 ", " ++ inQuotes name ++ utf8 " )"
      | none => return body
    | .int n =>
      let text := Bytes.decimalInt n
      return if n.natAbs < 1000000000 then text else inQuotes text
    | value =>
      let text ← textOf value
      match value with
      | .pattern text => return utf8 "qr/" ++ text ++ utf8 "/"
      | .handle _ => return utf8 "\\*" ++ text
      | _ =>
        let digits := if text.head? = some '-'.toUInt8 then text.drop 1 else text
        let isPlain := text = [48] || (Bytes.allDigits digits && digits.head? != some 48 && digits.length < 10)
        return if isPlain then text else inQuotes text

def extreme (greatest : Bool) (values : List Scalar) : Scalar :=
  match values with
  | [] => .nothing
  | first :: rest => rest.foldl (fun best value =>
      match value.order best with
      | some .gt => if greatest then value else best
      | some .lt => if greatest then best else value
      | _ => best) first

/-- Names and values in turn, in pairs. -/
def inPairs {α : Type} [Inhabited α] : List α → List (α × α)
  | a :: b :: rest => (a, b) :: inPairs rest
  | [a] => [(a, default)]
  | [] => []

def numeric? (f : Function) (value : Scalar) : Option (Running Scalar) :=
  let x := value.toFloat
  match f with
  | .abs => match value.exact with
    | .int n => some (return .int n.natAbs)
    | _ => some (return .float x.abs)
  | .cos => some (return floatValue x.cos)
  | .sin => some (return floatValue x.sin)
  | .exp => some (return floatValue x.exp)
  | .int => some (return wholeValue value)
  | .sqrt => some (if x < 0 then fail (utf8 "Can't take sqrt of " ++ floatText x) else return floatValue x.sqrt)
  | .log => some (if x ≤ 0 then fail (utf8 "Can't take log of " ++ floatText x) else return floatValue x.log)
  | .ceil => some (return floatValue x.ceil)
  | .floor => some (return floatValue x.floor)
  | _ => none

def textual? (f : Function) (text : Bytes) : Option Scalar :=
  match f with
  | .lc | .fc => some (.text (Bytes.lower text))
  | .uc => some (.text (Bytes.upper text))
  | .lcfirst => some (.text (firstChanged Bytes.lowerByte text))
  | .ucfirst => some (.text (firstChanged Bytes.upperByte text))
  | .quotemeta => some (.text (quotedMeta text))
  | .hex => some (hexValue text)
  | .oct => some (octalValue text)
  | .ord => some (.int (codeAt (text.take 1)).1)
  | .looksLikeNumber => some (Scalar.ofBool (isNumeric text))
  | .md5Hex => some (.text (Digest.hex (Digest.md5 text)))
  | .sha1Hex => some (.text (Digest.hex (Digest.sha1 text)))
  | .sha256Hex => some (.text (Digest.hex (Digest.sha256 text)))
  | .dirname => some (.text (directoryOf text))
  | .decodeBase64 =>
    let codes := text.filterMap fun c => base64Letters.findIdx? (· == c)
    some (.text (base64Bytes codes))
  | _ => none

def listed? (f : Function) (values : List Scalar) (want : Want) : Running (Option (List Scalar)) := do
  let one (value : Scalar) : Running (Option (List Scalar)) := return some [value]
  let text (index : Nat) : Running Bytes := textOf (values.getD index .nothing)
  let clock : Running Int := act (Act.look (·.clock))
  match f with
  | .join =>
    let texts ← (values.drop 1).mapM textOf
    one (.text (Bytes.join (← text 0) texts))
  | .sprintf =>
    let shown ← (values.drop 1).mapM fun value => do return (value, ← textOf value)
    one (.text (formatAll (← text 0) shown))
  | .index => one (.int (firstPlace (← text 0) (← text 1) ((values[2]?).getD Scalar.nothing).toInt))
  | .rindex => one (.int (lastPlace (← text 0) (← text 1) ((values[2]?).map (·.toInt))))
  | .atan2 => one (.float (Float.atan2 (values.getD 0 .nothing).toFloat (values.getD 1 .nothing).toFloat))
  | .fmod => one (floatValue (Format.remainder (values.getD 0 .nothing).toFloat (values.getD 1 .nothing).toFloat))
  | .chr =>
    let code := (values.headD .nothing).toInt
    if code < 0 then one (.text (wideText 0xFFFD))
    else one (.text (if code < 256 then [UInt8.ofNat code.toNat] else wideText code.toNat))
  | .pack =>
    let shown ← (values.drop 1).mapM fun value => do return (value, ← textOf value)
    let template ← text 0
    one (.text (packed (packings (template.length + 1) template) shown []))
  | .unpack =>
    let template ← text 0
    let whole ← text 1
    let found := unpacked (packings (template.length + 1) template) whole whole
    return some (if want = .many then found else found.take 1)
  | .reverse =>
    if want = .many then return some values.reverse
    let texts ← values.mapM textOf
    one (.text texts.flatten.reverse)
  | .sum =>
    match values with
    | [] => one .nothing
    | value :: rest => one (rest.foldl Scalar.add value.number)
  | .sum0 => one (values.foldl Scalar.add (.int 0))
  | .product => one (values.foldl Scalar.multiply (.int 1))
  | .min => one (extreme false values)
  | .max => one (extreme true values)
  | .minstr | .maxstr =>
    let texts ← values.mapM textOf
    let best (a b : Bytes) : Bytes := if Bytes.le a b = (f = .minstr) then a else b
    match texts with
    | [] => one .nothing
    | first :: rest => one (.text (rest.foldl best first))
  | .shuffle => return some (← shuffled values.toArray)
  | .uniq | .uniqnum =>
    let found ← distinct (if f = .uniqnum then values.map (·.number) else values)
    if want = .many then return some found else one (Scalar.ofNat found.length)
  | .pairs =>
    let found ← (inPairs values).mapM fun (a, b) => do return Scalar.reference (← newArray [a, b])
    return some found
  | .pairkeys => return some ((inPairs values).map Prod.fst)
  | .pairvalues => return some ((inPairs values).map Prod.snd)
  | .rand =>
    let most := (values.headD .nothing).toFloat
    let most := if most == 0.0 then 1.0 else most
    return some [.float ((← random) * most)]
  | .srand =>
    let seed ← match values with
      | value :: _ => pure value.toWord
      | [] => pure (((← clock).fdiv 1000000).toNat)
    modify ({ · with seed := seedOf seed })
    one (Scalar.ofNat seed)
  | .time => one (.int ((← clock).fdiv 1000000))
  | .timeHires =>
    let now ← clock
    one (.float (floatOfInt now / 1000000.0))
  | .times => return some [.float 0.0, .float 0.0, .float 0.0, .float 0.0]
  | .localtime | .gmtime =>
    let seconds ← match values with
      | value :: _ => pure value.toInt
      | [] => pure ((← clock).fdiv 1000000)
    let moment := momentOf seconds
    if want = .many then return some (timeParts moment) else one (.text (timeText moment))
  | .strftime =>
    let moment := momentOfParts (values.drop 1)
    one (.text (moment.text (← text 0)))
  | .mktime => one (.int (momentOfParts values).seconds)
  | .strtol =>
    let digits ← text 0
    let base := ((values[1]?).getD (Scalar.int 10)).toNat
    let negative := digits.head? == some '-'.toUInt8
    let body := if negative then digits.drop 1 else digits
    let isDigit (c : UInt8) : Bool := Bytes.isHex c && nibble c < base
    let used := body.takeWhile isDigit
    let n : Int := Bytes.valueIn base used
    let value := Scalar.int (if negative then -n else n)
    if want = .many then return some [value, Scalar.ofNat (body.length - used.length)] else one value
  | .basename => one (.text (baseOf (← text 0) (← (values.drop 1).mapM textOf)))
  | .fileparse =>
    let path ← text 0
    let (directory, name) := splitPath path
    let endings ← (values.drop 1).mapM fun value => do
      let text ← textOf value
      match value, Regex.Perl.read {} text with
      | .pattern _, .ok expression | .text _, .ok expression => return some expression.regex
      | _, _ => return none
    let ending := endings.findSome? fun regex => regex.bind fun (regex : Regex) =>
      ((List.range name.length).find? fun k =>
        match Regex.matchAt .first regex (name.drop k).toArray 0 with
        | some (stop, _) => stop == name.length - k
        | none => false).map name.drop
    let directory := if directory.isEmpty then utf8 "./" else directory
    let ending := ending.getD []
    return some [.text (name.take (name.length - ending.length)), .text directory, .text ending]
  | .encodeBase64 =>
    let ending ← if 1 < values.length then text 1 else pure [10]
    let letters := base64Text (← text 0)
    one (.text (inLines 76 ending (letters.length + 1) letters))
  | .identity => return some (values.drop (values.length - 1))
  | .dumper =>
    let setting (name : String) (usual : Nat) : Running Nat := do
      match (← get).shared[keyOf .scalar (utf8 ("Data::Dumper::" ++ name))]? with
      | some address => do
        let value ← scalarAt address
        return if value.isDefined then value.toNat else usual
      | none => return usual
    let indent ← setting "Indent" 2
    let terse ← setting "Terse" 0
    let sorts ← setting "Sortkeys" 0
    let parts ← values.zipIdx.mapM fun (value, index) => do
      let name := utf8 "$VAR" ++ Bytes.decimal (index + 1) ++ utf8 " = "
      if terse != 0 then return (← dumped indent (sorts != 0) 100 0 value) ++ (if indent = 0 then [] else utf8 "\n")
      let column := if indent < 2 then 0 else name.length
      let body ← dumped indent (sorts != 0) 100 column value
      return name ++ body ++ utf8 ";" ++ (if indent = 0 then [] else utf8 "\n")
    one (.text parts.flatten)
  | .isExited => one (Scalar.ofBool ((values.headD .nothing).toNat % 128 = 0))
  | .exitStatus => one (Scalar.ofNat ((values.headD .nothing).toNat / 256 % 256))
  | .isSignaled => one (Scalar.ofBool ((values.headD .nothing).toNat % 128 != 0))
  | .termSignal => one (Scalar.ofNat ((values.headD .nothing).toNat % 128))
  | .tv_interval => one (.float 0.0)
  | .isatty => one (Scalar.ofBool false)
  | .weaken => return some []
  | _ =>
    match numeric? f (values.headD .nothing) with
    | some value => one (← value)
    | none =>
      match textual? f (← text 0) with
      | some value => one value
      | none => return none

end Running

end ShellCompletion.Perl
