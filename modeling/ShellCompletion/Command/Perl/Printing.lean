import ShellCompletion.Command.Perl.Session

/-!
# Formats and packed texts

Values under a format, and values as bytes under a template, back and forth.
-/
namespace ShellCompletion.Perl

/-- A value with its text. -/
abbrev Shown := Scalar × Bytes

namespace Shown

/-- The value that a conversion finds where there is none. -/
def missing : Shown := (.nothing, [])

end Shown

/-! ## Formats -/

def realShown (padding : Format.Padding) (letter : UInt8) (x : Float) : Bytes :=
  if x.isNaN then Format.plainText { padding with precision := none } (utf8 "NaN")
  else if x.isInf then
    let sign := if x < 0 then utf8 "-" else if padding.plus then utf8 "+" else []
    Format.plainText { padding with precision := none } (sign ++ utf8 "Inf")
  else Format.floatText padding letter x

/-- A value under a conversion; none if nobody knows the letter. -/
def converted (padding : Format.Padding) (letter : UInt8) (vector : Bool) (shown : Shown) : Option Bytes :=
  let (value, text) := shown
  let isOneOf (letters : String) : Bool := (utf8 letters).contains letter
  if vector && isOneOf "d" then
    let isVersion := text.head? == some 'v'.toUInt8 && 1 < text.length &&
      (text.drop 1).all fun c => Bytes.isDigit c || c == '.'.toUInt8
    some (Format.plainText padding (if isVersion then text.drop 1
      else Bytes.join (utf8 ".") (text.map fun c => Bytes.decimal c.toNat)))
  else if isOneOf "s" then some (Format.plainText padding text)
  else if isOneOf "c" then
    let code := value.toWord
    let bytes := if code < 256 then [UInt8.ofNat code] else wideText code
    some (Format.plainText { padding with precision := none } bytes)
  else if isOneOf "diD" then
    match value.number with
    | .float x =>
      if x.isNaN || x.isInf then some (realShown padding letter x)
      else some (Format.signedText padding value.toInt)
    | _ => some (Format.signedText padding value.toInt)
  else if isOneOf "uUoOxX" then
    let letter := if isOneOf "UO" then Bytes.lowerByte letter else letter
    some (Format.unsignedText padding letter value.toWord)
  else if isOneOf "bB" then
    let digits := (Nat.toDigits 2 value.toWord).map Char.toUInt8
    let start := if padding.alternate && value.toWord != 0 then [48, letter] else []
    let digits := match padding.precision with
      | some places => List.replicate (places - digits.length) 48 ++ digits
      | none => digits
    some (Format.pad padding start digits (padding.zeros && padding.precision.isNone))
  else if isOneOf "eEfFgGaA" then some (realShown padding letter value.toFloat)
  else none

/-- A width or a precision: a number or the next value. -/
def readMeasure (s : Bytes) (values : List Shown) : Int × Bytes × List Shown :=
  match s with
  | 42 :: rest => ((values.headD .missing).1.toInt, rest, values.drop 1)
  | s => (Bytes.digitsValue (s.takeWhile Bytes.isDigit), s.dropWhile Bytes.isDigit, values)

/-- Values under a format. `fuel` bounds its bytes. -/
def formatted (all : List Shown) : (fuel : Nat) → Bytes → List Shown → Bytes
  | 0, _, _ => []
  | _, [], _ => []
  | fuel + 1, 37 :: rest, values =>
    match rest with
    | [] => [37]
    | 37 :: rest => 37 :: formatted all fuel rest values
    | rest =>
      let number := rest.takeWhile Bytes.isDigit
      let isIndexed := !number.isEmpty && (rest.drop number.length).head? == some '$'.toUInt8
      let spec := if isIndexed then rest.drop (number.length + 1) else rest
      let flags := spec.takeWhile (utf8 "-0+ #").contains
      let spec := spec.drop flags.length
      let vector := spec.head? == some 'v'.toUInt8
      let spec := if vector then spec.drop 1 else spec
      let (width, spec, values) := readMeasure spec values
      let (precision, spec, values) := match spec with
        | 46 :: spec =>
          let (n, spec, values) := readMeasure spec values
          (if n < 0 then none else some n.toNat, spec, values)
        | spec => (none, spec, values)
      let spec := spec.dropWhile (utf8 "hlqLVzt").contains
      let padding : Format.Padding :=
        { left := flags.contains '-'.toUInt8 || width < 0, zeros := flags.contains '0'.toUInt8
          plus := flags.contains '+'.toUInt8, blank := flags.contains ' '.toUInt8
          alternate := flags.contains '#'.toUInt8, width := width.natAbs, precision }
      match spec with
      | [] => 37 :: rest
      | letter :: after =>
        let (shown, values) := if isIndexed then
            (all.getD (Bytes.digitsValue number - 1) .missing, values)
          else (values.headD .missing, values.drop 1)
        match converted padding letter vector shown with
        | some text => text ++ formatted all fuel after values
        | none => 37 :: rest.take (rest.length - after.length) ++ formatted all fuel after values
  | fuel + 1, c :: rest, values => c :: formatted all fuel rest values

def formatAll (format : Bytes) (values : List Shown) : Bytes :=
  formatted values (format.length + 1) format values

/-! ## Packed texts -/

/-- A part of a template: a letter, with how often it counts. -/
structure Packing where
  letter : UInt8
  /-- Bytes go from the last one to the first one. -/
  big : Bool := false
  /-- None if it counts for all that is left. -/
  count : Option Nat := some 1
  counted : Bool := false

/-- The parts of a template. `fuel` bounds its bytes. -/
def packings : (fuel : Nat) → Bytes → List Packing
  | 0, _ => []
  | _, [] => []
  | fuel + 1, c :: rest =>
    if Bytes.isSpace c then packings fuel rest
    else
      let marks := rest.takeWhile (utf8 "<>!").contains
      let rest := rest.drop marks.length
      let digits := rest.takeWhile Bytes.isDigit
      let (count, counted, rest) := match rest with
        | 42 :: rest => (none, true, rest)
        | 91 :: after => (some (Bytes.digitsValue (after.takeWhile Bytes.isDigit)), true, (after.dropWhile (· != 93)).drop 1)
        | rest => if digits.isEmpty then (some 1, false, rest)
          else (some (Bytes.digitsValue digits), true, rest.drop digits.length)
      { letter := c, big := marks.contains '>'.toUInt8, count, counted } :: packings fuel rest

/-- A number as so many bytes, the least first. -/
def littleBytes (size n : Nat) : Bytes := (List.range size).map fun k => UInt8.ofNat (n >>> (8 * k) % 256)

/-- The number of bytes, of which the least comes first. -/
def littleValue (bytes : Bytes) : Nat := bytes.foldr (fun c n => c.toNat + 256 * n) 0

/-- How many bytes an integer of a letter has, whether the greatest comes first, and whether it has a
    sign. -/
def integerForm? (letter : UInt8) (big : Bool) : Option (Nat × Bool × Bool) :=
  let is (c : Char) : Bool := c.toUInt8 == letter
  if is 'c' then some (1, big, true) else if is 'C' then some (1, big, false)
  else if is 's' then some (2, big, true) else if is 'S' then some (2, big, false)
  else if is 'l' then some (4, big, true) else if is 'L' then some (4, big, false)
  else if is 'q' || is 'j' then some (8, big, true) else if is 'Q' || is 'J' then some (8, big, false)
  else if is 'i' then some (4, big, true) else if is 'I' then some (4, big, false)
  else if is 'n' then some (2, true, false) else if is 'N' then some (4, true, false)
  else if is 'v' then some (2, false, false) else if is 'V' then some (4, false, false)
  else none

/-- The value of a digit in base sixteen. -/
def nibble (c : UInt8) : Nat :=
  if Bytes.isDigit c then c.toNat - 48 else if Bytes.isAlpha c then (c.toNat + 9) % 16 else c.toNat % 16

/-- Pairs of digits as bytes. -/
def hexBytes (highFirst : Bool) : Bytes → Bytes
  | [] => []
  | [a] => [UInt8.ofNat (if highFirst then nibble a * 16 else nibble a)]
  | a :: b :: rest =>
    UInt8.ofNat (if highFirst then nibble a * 16 + nibble b else nibble b * 16 + nibble a) :: hexBytes highFirst rest

/-- Bits as bytes. `fuel` bounds them. -/
def bitBytes (highFirst : Bool) : (fuel : Nat) → Bytes → Bytes
  | 0, _ => []
  | _, [] => []
  | fuel + 1, bits =>
    let part := bits.take 8
    let part := part ++ List.replicate (8 - part.length) 48
    let ordered := if highFirst then part else part.reverse
    UInt8.ofNat (ordered.foldl (fun n c => 2 * n + c.toNat % 2) 0) :: bitBytes highFirst fuel (bits.drop 8)

/-- A number in groups of seven bits, of which all but the last have the highest bit as well. -/
def compressed : (fuel n : Nat) → (last : Bool) → Bytes
  | 0, _, _ => []
  | fuel + 1, n, last =>
    let byte := UInt8.ofNat (n % 128 + if last then 0 else 128)
    (if n < 128 then [] else compressed fuel (n / 128) false) ++ [byte]

/-- Values as bytes under the parts of a template. -/
def packed : List Packing → List Shown → Bytes → Bytes
  | [], _, done => done
  | part :: rest, values, done =>
    let is (letters : String) : Bool := (utf8 letters).contains part.letter
    let (value, text) := values.headD .missing
    if is "aAZ" then
      let size := match part.count with
        | some count => count
        | none => text.length + if is "Z" then 1 else 0
      let filler : UInt8 := if is "A" then 32 else 0
      let cut := text.take (if is "Z" && part.count.isSome then size - 1 else size)
      packed rest (values.drop 1) (done ++ cut ++ List.replicate (size - cut.length) filler)
    else if is "Hh" then
      let digits := match part.count with
        | some count => if part.counted then text.take count else text.take 1
        | none => text
      packed rest (values.drop 1) (done ++ hexBytes (is "H") digits)
    else if is "Bb" then
      let bits := match part.count with
        | some count => if part.counted then text.take count else text.take 1
        | none => text
      packed rest (values.drop 1) (done ++ bitBytes (is "B") (bits.length + 1) bits)
    else if is "x" then packed rest values (done ++ List.replicate (part.count.getD 0) 0)
    else if is "X" then packed rest values (done.take (done.length - part.count.getD 0))
    else if is "@" then
      let size := part.count.getD 0
      packed rest values (done.take size ++ List.replicate (size - done.length) 0)
    else
      let count := part.count.getD values.length
      let put (shown : Shown) : Bytes :=
        match integerForm? part.letter part.big with
        | some (size, big, _) =>
          let bytes := littleBytes size (shown.1.toInt % (Nat.pow 256 size : Nat)).toNat
          if big then bytes.reverse else bytes
        | none =>
          if is "UW" then
            let code := shown.1.toWord
            if is "W" && code < 256 then [UInt8.ofNat code] else wideText code
          else if is "w" then compressed 20 shown.1.toWord true
          else if is "dF" then
            let bytes := littleBytes 8 shown.1.toFloat.toBits.toNat
            if part.big then bytes.reverse else bytes
          else if is "f" then
            let bytes := littleBytes 4 shown.1.toFloat.toFloat32.toBits.toNat
            if part.big then bytes.reverse else bytes
          else []
      let used := values.take count ++ List.replicate (count - values.length) .missing
      packed rest (values.drop count) (done ++ used.flatMap put)
termination_by parts => parts.length

def nibbleDigits (highFirst : Bool) (bytes : Bytes) : Bytes :=
  let digit (n : Nat) : UInt8 := (Nat.digitChar n).toUInt8
  bytes.flatMap fun c =>
    let (high, low) := (digit (c.toNat / 16), digit (c.toNat % 16))
    if highFirst then [high, low] else [low, high]

def bitDigits (highFirst : Bool) (bytes : Bytes) : Bytes :=
  bytes.flatMap fun c =>
    let bits := (List.range 8).map fun k => if c.toNat >>> k % 2 = 1 then (49 : UInt8) else 48
    if highFirst then bits.reverse else bits

/-- Values from bytes, all in the same form. `fuel` bounds them. -/
def unpackEach (size : Nat) (value : Bytes → Scalar) : (fuel : Nat) → Bytes → List Scalar × Bytes
  | 0, s => ([], s)
  | fuel + 1, s =>
    if size = 0 || s.length < size then ([], s)
    else
      let (values, rest) := unpackEach size value fuel (s.drop size)
      (value (s.take size) :: values, rest)

def integerOf (big negative : Bool) (bytes : Bytes) : Scalar :=
  let n := littleValue (if big then bytes.reverse else bytes)
  let top := Nat.pow 256 bytes.length
  if negative && top ≤ 2 * n then .int ((n : Int) - top) else .int n

/-- The code of the character at the start of a text, and how long it is. -/
def codeAt (s : Bytes) : Nat × Nat :=
  match s with
  | [] => (0, 0)
  | c :: rest =>
    let size := if c < 0xc0 then 1 else if c < 0xe0 then 2 else if c < 0xf0 then 3 else 4
    let more := rest.take (size - 1)
    if size = 1 || more.length < size - 1 || more.any (fun d => d < 0x80 || 0xc0 ≤ d) then (c.toNat, 1)
    else
      let first := if size = 2 then c.toNat % 32 else if size = 3 then c.toNat % 16 else c.toNat % 8
      (more.foldl (fun n d => 64 * n + d.toNat % 64) first, size)

/-- The codes of the characters of a text. `fuel` bounds them. -/
def codesOf : (fuel : Nat) → Bytes → List Nat
  | 0, _ => []
  | _, [] => []
  | fuel + 1, s =>
    let (code, size) := codeAt s
    code :: codesOf fuel (s.drop (max 1 size))

/-- Values from bytes under the parts of a template. -/
def unpacked : List Packing → (whole rest : Bytes) → List Scalar
  | [], _, _ => []
  | part :: parts, whole, s =>
    let is (letters : String) : Bool := (utf8 letters).contains part.letter
    let size := part.count.getD s.length
    if is "aAZ" then
      let text := s.take size
      let shown := if is "A" then (text.reverse.dropWhile fun c => c == 0 || Bytes.isSpace c).reverse
        else if is "Z" then Bytes.untilNul text else text
      let used := if is "Z" && part.count.isNone then min s.length (shown.length + 1) else size
      .text shown :: unpacked parts whole (s.drop used)
    else if is "Hh" then
      let digits := part.count.getD (2 * s.length)
      .text ((nibbleDigits (is "H") (s.take ((digits + 1) / 2))).take digits) ::
        unpacked parts whole (s.drop ((digits + 1) / 2))
    else if is "Bb" then
      let bits := part.count.getD (8 * s.length)
      .text ((bitDigits (is "B") (s.take ((bits + 7) / 8))).take bits) ::
        unpacked parts whole (s.drop ((bits + 7) / 8))
    else if is "%" then
      let sums := (unpacked parts whole s).map fun value => match value with
        | .text bits => (bits.count 49 : Int)
        | value => value.toInt
      [Scalar.int (sums.foldl (· + ·) 0 % Int.ofNat (Nat.pow 2 (min 64 (part.count.getD 16))))]
    else if is "x" then unpacked parts whole (s.drop size)
    else if is "@" then unpacked parts whole (whole.drop size)
    else if is "UW" then
      let codes := codesOf (s.length + 1) s
      let codes := codes.take size
      codes.map Scalar.ofNat ++ unpacked parts whole (s.drop ((codes.map fun code => (wideText code).length).foldl (· + ·) 0))
    else match integerForm? part.letter part.big with
      | some (width, big, negative) =>
        let (values, rest) := unpackEach width (integerOf big negative) size s
        values ++ unpacked parts whole rest
      | none =>
        if is "dF" then
          let value (bytes : Bytes) : Scalar :=
            Scalar.settled (Float.ofBits (UInt64.ofNat (littleValue (if part.big then bytes.reverse else bytes))))
          let (values, rest) := unpackEach 8 value size s
          values ++ unpacked parts whole rest
        else unpacked parts whole s

end ShellCompletion.Perl
