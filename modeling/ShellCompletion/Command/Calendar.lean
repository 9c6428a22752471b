import ShellCompletion.Bytes

/-!
# The calendar

Days are counted from the start of 1970, in the calendar that is used today, carried on backwards. A
moment is a number of seconds, and is shown in a zone with a fixed distance from universal time.
-/
namespace ShellCompletion.Calendar

def isLeap (year : Int) : Bool := year % 4 == 0 && (year % 100 != 0 || year % 400 == 0)

/-- How many days a month has; January is month one. -/
def monthLength (year : Int) (month : Nat) : Nat :=
  if month = 2 then (if isLeap year then 29 else 28)
  else if month = 4 ∨ month = 6 ∨ month = 9 ∨ month = 11 then 30
  else 31

def daysBeforeYear (year : Int) : Int :=
  let y := year - 1
  365 * (year - 1970) + (y.fdiv 4 - y.fdiv 100 + y.fdiv 400) - 477

def daysBeforeMonth (year : Int) (month : Nat) : Nat :=
  ((List.range (month - 1)).map fun k => monthLength year (k + 1)).foldl (· + ·) 0

def dayNumber (year month day : Int) : Int :=
  let y := year + (month - 1).fdiv 12
  let m := ((month - 1).fmod 12).toNat + 1
  daysBeforeYear y + daysBeforeMonth y m + day - 1

/-- A day of the calendar. -/
structure Date where
  year : Int
  month : Nat
  day : Nat
deriving DecidableEq, Repr

def yearOf (days : Int) : Int :=
  let guess := 1970 + days.fdiv 366
  let guess := guess + ((days - daysBeforeYear guess).fdiv 366)
  if daysBeforeYear (guess + 1) ≤ days then guess + 1 else guess

def monthOf (year : Int) : (months month day : Nat) → Nat × Nat
  | 0, month, day => (month, day)
  | months + 1, month, day =>
    let length := monthLength year month
    if day < length then (month, day) else monthOf year months (month + 1) (day - length)

def dateOf (days : Int) : Date :=
  let start := yearOf days
  /- The guess may still be some years too early, where it is far from the start. -/
  let year := (List.range 400).foldl (fun year _ =>
    if daysBeforeYear (year + 1) ≤ days then year + 1 else year) start
  let (month, day) := monthOf year 11 1 (days - daysBeforeYear year).toNat
  ⟨year, month, day + 1⟩

def weekday (days : Int) : Nat := ((days + 4).fmod 7).toNat

/-- The year and week that a day lies in, where weeks start on Monday and the first one of a year has
    its first Thursday. -/
def isoWeek (days : Int) : Int × Nat :=
  let fromMonday := (days + 3).fmod 7
  let thursday := days - fromMonday + 3
  let year := (dateOf thursday).year
  (year, ((thursday - daysBeforeYear year) / 7).toNat + 1)

def weekdays : List String :=
  ["Sunday", "Monday", "Tuesday", "Wednesday", "Thursday", "Friday", "Saturday"]

def months : List String :=
  ["January", "February", "March", "April", "May", "June", "July", "August", "September", "October",
   "November", "December"]

/-- A moment and the zone in which it is shown. -/
structure Moment where
  seconds : Int
  nanoseconds : Nat := 0
  /-- How far the zone is ahead of universal time, in seconds. -/
  offset : Int := 0
  zone : Bytes := utf8 "UTC"

namespace Moment

def local_ (moment : Moment) : Int := moment.seconds + moment.offset

def days (moment : Moment) : Int := moment.local_.fdiv 86400

def second (moment : Moment) : Nat := (moment.local_.fmod 86400).toNat

def hour (moment : Moment) : Nat := moment.second / 3600

def date (moment : Moment) : Date := dateOf moment.days

def yearDay (moment : Moment) : Nat := (moment.days - daysBeforeYear moment.date.year).toNat

def zoneText (moment : Moment) (colons : Nat) : Bytes :=
  let n := moment.offset.natAbs
  let two (n : Nat) : Bytes := [UInt8.ofNat (48 + n / 10 % 10), UInt8.ofNat (48 + n % 10)]
  let (hours, minutes, seconds) := (two (n / 3600), two (n / 60 % 60), two (n % 60))
  let colon : Bytes := [58]
  (if moment.offset < 0 then utf8 "-" else utf8 "+") ++
    match colons with
    | 0 => hours ++ minutes
    | 1 => hours ++ colon ++ minutes
    | 2 => hours ++ colon ++ minutes ++ colon ++ seconds
    | _ =>
      if n % 60 ≠ 0 then hours ++ colon ++ minutes ++ colon ++ seconds
      else if n % 3600 ≠ 0 then hours ++ colon ++ minutes
      else hours

end Moment

/-! ## Formats -/

/-- How a conversion is padded and spelled. -/
structure Style where
  /-- The byte before digits; none says that there is no padding. -/
  pad : Option (Option UInt8) := none
  upper : Bool := false
  swap : Bool := false
  width : Option Nat := none

/-- A number with digits before it. -/
def padded (style : Style) (usual : UInt8) (width : Nat) (n : Int) : Bytes :=
  let digits := Bytes.decimal n.natAbs
  let mark := match style.pad with
    | some mark => mark
    | none => some usual
  let width := style.width.getD width
  let sign : Bytes := if n < 0 then utf8 "-" else []
  let missing := width - digits.length - sign.length
  match mark with
  | none => sign ++ digits
  | some 32 => List.replicate missing 32 ++ sign ++ digits
  | some mark => sign ++ List.replicate missing mark ++ digits

def paddedText (style : Style) (text : Bytes) : Bytes :=
  let text := if style.upper then Bytes.upper text
    else if style.swap then
      text.map fun c => if Bytes.isUpper c then Bytes.lowerByte c else Bytes.upperByte c
    else text
  let mark := match style.pad with
    | some (some mark) => mark
    | _ => 32
  List.replicate (style.width.getD 0 - text.length) mark ++ text

/-- The text of a conversion that needs no other one; none if it is unknown. -/
def simple (moment : Moment) (style : Style) (colons : Nat) (letter : Char) : Option Bytes :=
  let date := moment.date
  let hour := moment.hour
  let number (width : Nat) (n : Int) : Option Bytes := some (padded style 48 width n)
  let blank (n : Int) : Option Bytes := some (padded style 32 2 n)
  let text (s : String) : Option Bytes := some (paddedText style (utf8 s))
  let hour12 : Nat := if hour % 12 = 0 then 12 else hour % 12
  let day := weekday moment.days
  match letter with
  | 'a' => text ((weekdays.getD day "").take 3).toString
  | 'A' => text (weekdays.getD day "")
  | 'b' | 'h' => text ((months.getD (date.month - 1) "").take 3).toString
  | 'B' => text (months.getD (date.month - 1) "")
  | 'C' => number 2 (date.year.fdiv 100)
  | 'd' => number 2 date.day
  | 'e' => blank date.day
  | 'g' => number 2 ((isoWeek moment.days).1.fmod 100)
  | 'G' => number 4 (isoWeek moment.days).1
  | 'H' => number 2 hour
  | 'I' => number 2 hour12
  | 'j' => number 3 (moment.yearDay + 1)
  | 'k' => blank hour
  | 'l' => blank hour12
  | 'm' => number 2 date.month
  | 'M' => number 2 (moment.second / 60 % 60)
  | 'n' => some [10]
  | 'N' =>
    let digits := Bytes.decimal (1000000000 + moment.nanoseconds)
    some ((digits.drop 1).take (style.width.getD 9))
  | 'p' => some (paddedText { style with swap := false }
      (if style.swap then utf8 (if hour < 12 then "am" else "pm")
        else utf8 (if hour < 12 then "AM" else "PM")))
  | 'P' => text (if hour < 12 then "am" else "pm")
  | 'q' => number 1 ((date.month - 1) / 3 + 1)
  | 's' => number 1 moment.seconds
  | 'S' => number 2 (moment.second % 60)
  | 't' => some [9]
  | 'u' => number 1 (if day = 0 then 7 else day)
  | 'U' => number 2 ((moment.yearDay + 7 - day) / 7)
  | 'V' => number 2 (isoWeek moment.days).2
  | 'w' => number 1 day
  | 'W' => number 2 ((moment.yearDay + 7 - (day + 6) % 7) / 7)
  | 'y' => number 2 (date.year.fmod 100)
  | 'Y' => number 4 date.year
  | 'z' => some (paddedText { style with pad := some (some 48) } (moment.zoneText colons))
  | 'Z' => some (paddedText style moment.zone)
  | '%' => if style.width.isNone && style.pad.isNone then some (utf8 "%") else none
  | _ => none

/-- The conversions that are short for others. -/
def compound : List (Char × String) :=
  [('c', "%a %b %e %H:%M:%S %Y"), ('D', "%m/%d/%y"), ('F', "%Y-%m-%d"), ('r', "%I:%M:%S %p"),
   ('R', "%H:%M"), ('T', "%H:%M:%S"), ('x', "%m/%d/%y"), ('X', "%H:%M:%S")]

/-- Reads the flags of a conversion. -/
def readStyle : (fuel : Nat) → Style → Bytes → Style × Bytes
  | 0, style, s => (style, s)
  | _, style, [] => (style, [])
  | fuel + 1, style, c :: rest =>
    if c = '-'.toUInt8 then readStyle fuel { style with pad := some none } rest
    else if c = '_'.toUInt8 then readStyle fuel { style with pad := some (some 32) } rest
    else if c = '0'.toUInt8 then readStyle fuel { style with pad := some (some 48) } rest
    else if c = '+'.toUInt8 then readStyle fuel { style with pad := some (some 48) } rest
    else if c = '^'.toUInt8 then readStyle fuel { style with upper := true } rest
    else if c = '#'.toUInt8 then readStyle fuel { style with swap := true } rest
    else (style, c :: rest)

/-- The text of a format for a moment. `fuel` bounds the bytes. -/
def format (moment : Moment) : (fuel : Nat) → Bytes → Bytes
  | 0, _ => []
  | _, [] => []
  | fuel + 1, c :: rest =>
    if c ≠ '%'.toUInt8 then c :: format moment fuel rest
    else
      let (style, after) := readStyle rest.length {} rest
      let digits := after.takeWhile Bytes.isDigit
      let style := if digits.isEmpty then style else { style with width := some (Bytes.digitsValue digits) }
      let after := after.drop digits.length
      let colons := after.takeWhile (· == ':'.toUInt8)
      let after := after.drop colons.length
      let after := match after with
        | modifier :: letter :: more =>
          if modifier = 'E'.toUInt8 ∨ modifier = 'O'.toUInt8 then
            if Bytes.isAlpha letter then letter :: more else after
          else after
        | after => after
      match after with
      | [] => c :: rest
      | letter :: after =>
        let name := Char.ofNat letter.toNat
        let long := compound.lookup name
        match long, simple moment style colons.length name with
        | some text, _ =>
          let inner := text.toList.foldr (fun c text => match c with
            | '%' => 37 :: text
            | c => c.toUInt8 :: text) []
          paddedText { style with swap := false } (expand moment inner) ++ format moment fuel after
        | none, some text => text ++ format moment fuel after
        | none, none => (c :: rest).take (rest.length + 1 - after.length) ++ format moment fuel after
where
  /-- The text of a format with simple conversions only. -/
  expand (moment : Moment) : Bytes → Bytes
    | 37 :: letter :: rest =>
      (simple moment {} 0 (Char.ofNat letter.toNat)).getD [] ++ expand moment rest
    | c :: rest => c :: expand moment rest
    | [] => []

def Moment.text (moment : Moment) (format : Bytes) : Bytes :=
  Calendar.format moment (format.length + 1) format

/-! ## Zones -/

/-- The zone that a text such as `EST5` names: how far it is ahead of universal time, and its name. -/
def readZone (text : Bytes) : Int × Bytes :=
  let (name, rest) := match text with
    | 60 :: more => (Bytes.before 62 more, (more.dropWhile (· != 62)).drop 1)
    | text => (text.takeWhile Bytes.isAlpha, text.dropWhile Bytes.isAlpha)
  let (sign, digits) : Int × Bytes := match rest with
    | 45 :: more => (1, more)
    | 43 :: more => (-1, more)
    | more => (-1, more)
  let parts := (Bytes.fields 58 (digits.takeWhile fun c => Bytes.isDigit c || c == 58)).map
    Bytes.digitsValue
  let seconds := parts.getD 0 0 * 3600 + parts.getD 1 0 * 60 + parts.getD 2 0
  if name.length < 3 ∨ !digits.head?.any Bytes.isDigit then (0, utf8 "UTC")
  else (sign * seconds, name)

/-! ## Reading moments -/

/-- A part of a text that says when something is. -/
inductive Token where
  /-- A number with the count of its digits, whether a sign stands before it, and its fraction. -/
  | number (sign : Option Bool) (value digits : Nat) (fraction : Option Bytes)
  | word (text : Bytes)
  | mark (c : UInt8)
deriving DecidableEq

/-- The parts of a text; what stands in round brackets is left out. -/
def tokens : (fuel : Nat) → Bytes → List Token
  | 0, _ => []
  | _, [] => []
  | fuel + 1, c :: rest =>
    let numberAt (sign : Option Bool) (s : Bytes) : List Token :=
      let digits := s.takeWhile Bytes.isDigit
      let after := s.drop digits.length
      let fraction := match after with
        | 46 :: more => some (more.takeWhile Bytes.isDigit)
        | 44 :: more => some (more.takeWhile Bytes.isDigit)
        | _ => none
      let fraction := fraction.filter (!·.isEmpty)
      .number sign (Bytes.digitsValue digits) digits.length fraction ::
        tokens fuel (match fraction with
          | some more => after.drop (more.length + 1)
          | none => after)
    if Bytes.isSpace c then tokens fuel rest
    else if Bytes.isDigit c then numberAt none (c :: rest)
    else if c = '-'.toUInt8 ∨ c = '+'.toUInt8 then
      let body := rest.dropWhile Bytes.isSpace
      if body.head?.any Bytes.isDigit then numberAt (some (c == '-'.toUInt8)) body
      else tokens fuel rest
    else if Bytes.isAlpha c then
      let word := (c :: rest).takeWhile fun d => Bytes.isAlpha d || d == '.'.toUInt8
      .word (Bytes.lower (word.filter (· != '.'.toUInt8))) :: tokens fuel ((c :: rest).drop word.length)
    else if c = '('.toUInt8 then tokens fuel ((rest.dropWhile (· != ')'.toUInt8)).drop 1)
    else .mark c :: tokens fuel rest

/-- What has been read of a moment. -/
structure Reading where
  epoch : Option (Int × Nat) := none
  date : Option (Option Int × Nat × Nat) := none
  time : Option (Nat × Nat × Nat × Nat) := none
  zone : Option Int := none
  /-- A day of the week, and how many of that name later. -/
  weekday : Option (Int × Nat) := none
  /-- Years, months, days and seconds to be added. -/
  years : Int := 0
  months : Int := 0
  days : Int := 0
  seconds : Int := 0
  relative : Bool := false

/-- The number of a name or of its first three letters, from one on. -/
def named? (names : List String) (word : Bytes) : Option Nat :=
  (names.findIdx? fun name =>
    let name := Bytes.lower (utf8 name)
    word == name || word == name.take 3 || (word == utf8 "sept" && name.take 4 == word)).map (· + 1)

/-- The distances of some zones from universal time, in hours. -/
def zones : List (String × Int) :=
  [("utc", 0), ("gmt", 0), ("z", 0), ("ut", 0), ("wet", 0), ("est", -5), ("edt", -4), ("cst", -6),
   ("cdt", -5), ("mst", -7), ("mdt", -6), ("pst", -8), ("pdt", -7), ("cet", 1), ("cest", 2),
   ("eet", 2), ("eest", 3), ("bst", 1), ("jst", 9), ("msk", 3)]

/-- Numbers as words. -/
def ordinals : List (String × Int) :=
  [("last", -1), ("this", 0), ("next", 1), ("first", 1), ("third", 3), ("fourth", 4), ("fifth", 5),
   ("sixth", 6), ("seventh", 7), ("eighth", 8), ("ninth", 9), ("tenth", 10), ("eleventh", 11),
   ("twelfth", 12)]

/-- The distance that a single letter stands for, in hours. -/
def letterZone? (word : Bytes) : Option Int :=
  match word with
  | [c] =>
    match (utf8 "abcdefghiklm").idxOf? c, (utf8 "nopqrstuvwxy").idxOf? c with
    | some index, _ => some ((index : Int) + 1)
    | none, some index => some (-((index : Int) + 1))
    | none, none => none
  | _ => none

def lookupWord {α : Type} (table : List (String × α)) (word : Bytes) : Option α :=
  table.findSome? fun (name, value) => if utf8 name = word then some value else none

def addUnit (reading : Reading) (n : Int) (word : Bytes) : Option Reading :=
  let singular := if word.length > 3 ∧ word.getLast? = some 's'.toUInt8 then word.dropLast else word
  let reading := { reading with relative := true }
  let is (name : String) : Bool := utf8 name == singular
  if is "year" then some { reading with years := reading.years + n }
  else if is "month" then some { reading with months := reading.months + n }
  else if is "fortnight" then some { reading with days := reading.days + 14 * n }
  else if is "week" then some { reading with days := reading.days + 7 * n }
  else if is "day" then some { reading with days := reading.days + n }
  else if is "hour" then some { reading with seconds := reading.seconds + 3600 * n }
  else if is "minute" || is "min" then some { reading with seconds := reading.seconds + 60 * n }
  else if is "second" || is "sec" then some { reading with seconds := reading.seconds + n }
  else none

def nanoseconds (fraction : Option Bytes) : Nat :=
  Bytes.digitsValue (((fraction.getD []) ++ List.replicate 9 48).take 9)

def fullYear (value digits : Nat) : Int :=
  if digits ≤ 2 then (if value < 69 then value + 2000 else value + 1900) else value

/-- The distance of a zone that a number with a sign says. -/
def zoneOf (negative : Bool) (value digits : Nat) (minutes : Option Nat) : Int :=
  let seconds : Int := match minutes with
    | some minutes => value * 3600 + minutes * 60
    | none => if digits ≤ 2 then value * 3600 else (value / 100 * 3600 + value % 100 * 60 : Nat)
  if negative then -seconds else seconds

def setDate (reading : Reading) (year : Option Int) (month day : Nat) : Option Reading :=
  if reading.date.isSome then none else some { reading with date := some (year, month, day) }

def setTime (reading : Reading) (hour minute second nano : Nat) : Option Reading :=
  if reading.time.isSome then none else some { reading with time := some (hour, minute, second, nano) }

/-- The hour of the day where the two halves are told apart by a word. -/
def halfDay? (hour : Nat) (word : Bytes) : Option Nat :=
  if hour = 0 ∨ 12 < hour then none
  else if word = utf8 "am" then some (hour % 12)
  else if word = utf8 "pm" then some (hour % 12 + 12)
  else none

/-- What is said by the parts of a text. -/
def readTokens : (fuel : Nat) → Reading → List Token → Option Reading
  | 0, _, _ => none
  | _, reading, [] => some reading
  | fuel + 1, reading, list => do
    let go (reading : Reading) (rest : List Token) : Option Reading := readTokens fuel reading rest
    /- A zone may follow a time. -/
    let afterTime (reading : Reading) (rest : List Token) : Option Reading :=
      match rest with
      | .number (some negative) hours _ none :: .mark 58 :: .number none minutes _ none :: rest =>
        go { reading with zone := some (zoneOf negative hours 2 (some minutes)) } rest
      | .number (some negative) value digits none :: rest =>
        go { reading with zone := some (zoneOf negative value digits none) } rest
      | rest => go reading rest
    match list with
    | [] => some reading
    | .mark 64 :: .number sign value _ fraction :: rest =>
      let n : Int := if sign = some true then -value else value
      let nano := nanoseconds fraction
      let epoch := if sign = some true ∧ nano ≠ 0 then (n - 1, 1000000000 - nano) else (n, nano)
      if rest.isEmpty then some { reading with epoch := some epoch } else none
    | .number none hour _ none :: .mark 58 :: .number none minute _ none :: .mark 58 ::
        .number none second _ fraction :: rest =>
      match rest with
      | .word word :: more =>
        match halfDay? hour word with
        | some hour => afterTime (← setTime reading hour minute second (nanoseconds fraction)) more
        | none => afterTime (← setTime reading hour minute second (nanoseconds fraction)) rest
      | rest => afterTime (← setTime reading hour minute second (nanoseconds fraction)) rest
    | .number none hour _ none :: .mark 58 :: .number none minute _ none :: rest =>
      match rest with
      | .word word :: more =>
        match halfDay? hour word with
        | some hour => afterTime (← setTime reading hour minute 0 0) more
        | none => afterTime (← setTime reading hour minute 0 0) rest
      | rest => afterTime (← setTime reading hour minute 0 0) rest
    | .number none year digits none :: .number (some true) month _ none ::
        .number (some true) day _ none :: rest =>
      go (← setDate reading (some (fullYear year digits)) month day) rest
    | .number none day _ none :: .mark 45 :: .word word :: .number (some true) year digits none :: rest =>
      go (← setDate reading (some (fullYear year digits)) (← named? months word) day) rest
    | .number none first _ none :: .mark 47 :: .number none second _ none :: .mark 47 ::
        .number none third digits none :: rest =>
      if 31 < first then go (← setDate reading (some first) second third) rest
      else go (← setDate reading (some (fullYear third digits)) first second) rest
    | .number none month _ none :: .mark 47 :: .number none day _ none :: rest =>
      go (← setDate reading none month day) rest
    | .number sign value digits none :: .word word :: rest =>
      match named? months word, addUnit reading (if sign = some true then -(value : Int) else value) word,
          if sign.isNone then halfDay? value word else none with
      | some month, _, _ =>
        match rest with
        | .number (some true) year yearDigits none :: rest =>
          go (← setDate reading (some (fullYear year yearDigits)) month value) rest
        | .number none year yearDigits none :: more =>
          if more.head? = some (.mark 58) then go (← setDate reading none month value) rest
          else go (← setDate reading (some (fullYear year yearDigits)) month value) more
        | rest => go (← setDate reading none month value) rest
      | none, some added, _ =>
        match rest with
        | .word ago :: more =>
          if ago = utf8 "ago" then
            let n : Int := if sign = some true then value else -(value : Int)
            go (← addUnit reading n word) more
          else go added rest
        | rest => go added rest
      | none, none, some hour => afterTime (← setTime reading hour 0 0 0) rest
      | none, none, none =>
        if word = utf8 "t" ∧ digits = 8 then
          go (← setDate reading (some (value / 10000)) (value / 100 % 100) (value % 100)) rest
        else if sign.isSome then none
        else go (← plainNumber reading value digits) (.word word :: rest)
    | .number none value digits none :: rest => go (← plainNumber reading value digits) rest
    | .word word :: rest =>
      let is (name : String) : Bool := utf8 name == word
      if is "now" || is "today" then go { reading with relative := true } rest
      else if is "yesterday" then go { reading with days := reading.days - 1, relative := true } rest
      else if is "tomorrow" then go { reading with days := reading.days + 1, relative := true } rest
      else if is "t" then go reading rest
      else if is "at" || is "and" || is "on" then none
      else match named? months word with
        | some month =>
          match rest with
          | .number none day _ none :: .mark 44 :: .number none year digits none :: rest =>
            go (← setDate reading (some (fullYear year digits)) month day) rest
          | .number none day _ none :: rest =>
            match rest with
            | .number none year digits none :: more =>
              if more.head? = some (.mark 58) then go (← setDate reading none month day) rest
              else go (← setDate reading (some (fullYear year digits)) month day) more
            | rest =>
              /- The year may stand at the end, after the time. -/
              match rest.getLast? with
              | some (.number none year 4 none) =>
                go (← setDate reading (some (year : Int)) month day) rest.dropLast
              | _ => go (← setDate reading none month day) rest
          | _ => none
        | none => match named? weekdays word, (lookupWord zones word).or (letterZone? word),
            lookupWord ordinals word with
          | some day, _, _ =>
            let rest := if rest.head? = some (.mark 44) then rest.drop 1 else rest
            go { reading with weekday := some (0, day - 1) } rest
          | none, some hours, _ => go { reading with zone := some (3600 * hours) } rest
          | none, none, some n =>
            match rest with
            | .word unit :: rest =>
              match addUnit reading n unit, named? weekdays unit with
              | some reading, _ => go reading rest
              | none, some day => go { reading with weekday := some (n, day - 1) } rest
              | none, none => none
            | _ => none
          | none, none, none =>
            match addUnit reading 1 word with
            | some added =>
              match rest with
              | .word ago :: more =>
                if ago = utf8 "ago" then go (← addUnit reading (-1) word) more else go added rest
              | rest => go added rest
            | none => none
    | _ => none
where
  /-- A number that stands alone. -/
  plainNumber (reading : Reading) (value digits : Nat) : Option Reading :=
    if 5 ≤ digits then
      setDate reading (some (fullYear (value / 10000) (digits - 4))) (value / 100 % 100) (value % 100)
    else match reading.date with
      | some (none, month, day) =>
        if digits = 4 then some { reading with date := some (some (value : Int), month, day) } else none
      | _ =>
        if digits ≤ 2 then setTime reading value 0 0 0
        else setTime reading (value / 100) (value % 100) 0 0

/-- The zone that a text says at its start, and the rest. -/
def splitZone (text : Bytes) : Option (Int × Bytes) × Bytes :=
  let mark := utf8 "TZ=\""
  if mark.isPrefixOf text then
    let zone := (text.drop mark.length).takeWhile (· != '"'.toUInt8)
    (some (readZone zone), text.drop (mark.length + zone.length + 1))
  else (none, text)

def read (now : Moment) (text : Bytes) : Option Moment := do
  let (zone, text) := splitZone text
  let shown := now
  let now := match zone with
    | some (offset, zone) => { now with offset, zone }
    | none => now
  let reading ← readTokens (text.length + 2) {} (tokens (text.length + 1) text)
  match reading.epoch with
  | some (seconds, nanoseconds) => return { shown with seconds := seconds + reading.seconds, nanoseconds }
  | none =>
    let today := now.date
    let (year, month, day) := match reading.date with
      | some (year, month, day) => (year.getD today.year, month, day)
      | none => (today.year, today.month, today.day)
    if month < 1 || 12 < month || day < 1 || monthLength year month < day then none
    let keepsTime := reading.relative && reading.date.isNone && reading.weekday.isNone
    let (hour, minute, second, nano) := match reading.time with
      | some time => time
      | none =>
        if keepsTime then (now.hour, now.second / 60 % 60, now.second % 60, now.nanoseconds)
        else (0, 0, 0, 0)
    if 23 < hour || 59 < minute || 60 < second then none
    let start := dayNumber (year + reading.years) (month + reading.months) (day + reading.days)
    let start := match reading.weekday, reading.date with
      | some (ordinal, wanted), none =>
        let current := weekday start
        let more : Int := ((wanted + 7 - current) % 7 : Nat)
        start + more + 7 * (ordinal - if 0 < ordinal ∧ current ≠ wanted then 1 else 0)
      | _, _ => start
    let seconds := start * 86400 + (hour * 3600 + minute * 60 + second : Nat) -
      reading.zone.getD now.offset + reading.seconds
    return { shown with seconds, nanoseconds := nano }

end ShellCompletion.Calendar
