import ShellCompletion.Command.Arithmetic

/-!
# Formats

How texts and numbers are printed: the escapes that stand for bytes, and formats whose conversions
take their arguments from a list.
-/
namespace ShellCompletion.Format

/-! ## Escapes -/

/-- The byte that a letter after a backslash stands for. -/
def escapeOf? (c : UInt8) : Option UInt8 :=
  [('a', 7), ('b', 8), ('e', 27), ('f', 12), ('n', 10), ('r', 13), ('t', 9), ('v', 11), ('\\', 92)]
    |>.findSome? fun (letter, byte) => if letter.toUInt8 = c then some byte else none

/-- How a code of Unicode is escaped. -/
inductive CodeUse where
  | never
  /-- With as many digits as there may be. -/
  | full
  /-- With at least one digit. -/
  | short
deriving DecidableEq, Repr

/-- How escapes are read. -/
structure Escapes where
  /-- Up to three octal digits may follow a zero, rather than the zero being the first of them. -/
  afterZero : Bool
  /-- Other octal digits may follow the backslash. -/
  octal : Bool := true
  /-- Hexadecimal digits may follow an x. -/
  hex : Bool := false
  /-- These bytes stand for themselves. -/
  plain : Bytes := []
  /-- The letter c ends all. -/
  ends : Bool := true
  codes : CodeUse := .never

/-- What an escape comes to. -/
inductive Escaped where
  | bytes (bytes rest : Bytes)
  /-- The text ends here. -/
  | ends
  /-- The text ends here because of a fault. -/
  | faulty (text : Bytes)

def codeText (code : Nat) : Bytes :=
  let digits (count : Nat) : Bytes :=
    let shown := Bytes.upper ((Nat.toDigits 16 code).map Char.toUInt8)
    List.replicate (count - shown.length) '0'.toUInt8 ++ shown
  if code < 128 then [UInt8.ofNat code]
  else if code < 65536 then utf8 "\\u" ++ digits 4
  else utf8 "\\U" ++ digits 8

def readCode (codes : CodeUse) (letter : UInt8) (rest : Bytes) : Escaped :=
  let most := if letter = 'u'.toUInt8 then 4 else 8
  let digits := (rest.take most).takeWhile Bytes.isHex
  let code := Bytes.valueIn 16 digits
  let after := rest.drop digits.length
  if codes = .full then
    if digits.length < most then .faulty (utf8 "missing hexadecimal number in escape")
    else if (0xd800 ≤ code && code ≤ 0xdfff) || 0x10ffff < code then
      .faulty (utf8 "invalid universal character name \\" ++ letter :: digits)
    else .bytes (codeText code) after
  else if digits.isEmpty then .bytes [92, letter] rest
  else .bytes (codeText code) after

/-- Reads what follows a backslash. -/
def readEscape (escapes : Escapes) : Bytes → Escaped
  | [] => .bytes [92] []
  | c :: rest =>
    if c = 'c'.toUInt8 ∧ escapes.ends then .ends
    else if escapes.plain.contains c then .bytes [c] rest
    else if (utf8 "uU").contains c ∧ escapes.codes ≠ .never then readCode escapes.codes c rest
    else match escapeOf? c with
      | some byte => .bytes [byte] rest
      | none =>
        let start := if escapes.afterZero && c == '0'.toUInt8 then rest else c :: rest
        let digits := (start.take 3).takeWhile Bytes.isOctal
        let hexDigits := (rest.take 2).takeWhile Bytes.isHex
        if Bytes.isOctal c && (escapes.octal || c == '0'.toUInt8) then
          .bytes [UInt8.ofNat (Bytes.valueIn 8 digits)] (start.drop digits.length)
        else if c = 'x'.toUInt8 ∧ escapes.hex ∧ !hexDigits.isEmpty then
          .bytes [UInt8.ofNat (Bytes.valueIn 16 hexDigits)] (rest.drop hexDigits.length)
        else .bytes [92, c] rest

/-- A text with its escapes resolved, and whether it was cut short. -/
def unescape (escapes : Escapes) : (fuel : Nat) → Bytes → Bytes × Bool
  | 0, s => (s, false)
  | _, [] => ([], false)
  | fuel + 1, c :: rest =>
    if c = 92 then
      match readEscape escapes rest with
      | .ends | .faulty _ => ([], true)
      | .bytes bytes rest =>
        let (text, cut) := unescape escapes fuel rest
        (bytes ++ text, cut)
    else
      let (text, cut) := unescape escapes fuel rest
      (c :: text, cut)

/-- Words with blanks between them and a line feed at the end, as scripts print them: escapes are
    resolved, and a first word `-n` leaves the line feed away. -/
def echo (arguments : List Bytes) : Bytes :=
  let bare := arguments.head? == some (utf8 "-n")
  let line := Bytes.join (utf8 " ") (if bare then arguments.drop 1 else arguments)
  let (text, cut) := unescape { afterZero := true } line.length line
  if cut || bare then text else text ++ utf8 "\n"

/-- The same as the utility prints them, which resolves escapes only if it is asked to, or `always`
    unless it is asked not to. -/
def plainEcho (arguments : List Bytes)
    (escapes : Escapes := { afterZero := true, hex := true }) (always : Bool := false) : Bytes :=
  let isOption (word : Bytes) : Bool :=
    word.head? == some '-'.toUInt8 && 1 < word.length && (word.drop 1).all (utf8 "neE").contains
  let given := arguments.takeWhile isOption
  let letters := given.flatMap (·.drop 1)
  let resolves := match (letters.filter (· != 'n'.toUInt8)).getLast? with
    | some letter => letter == 'e'.toUInt8
    | none => always
  let line := Bytes.join (utf8 " ") (arguments.drop given.length)
  let (text, cut) :=
    if resolves then unescape escapes line.length line else (line, false)
  if cut || letters.contains 'n'.toUInt8 then text else text ++ utf8 "\n"

/-! ## Numbers with fractions -/

/-- A number with a fraction, or one that is none. -/
inductive Real where
  /-- `digits` divided by `divisor`. -/
  | finite (negative : Bool) (digits divisor : Nat)
  | infinite (negative : Bool)
  | notANumber
deriving DecidableEq, Repr

/-- The quotient, rounded to the nearest number; to the even one of two that are equally near. -/
def roundedQuotient (a b : Nat) : Nat :=
  let quotient := a / b
  let rest := 2 * (a % b)
  if b < rest || (rest == b && quotient % 2 == 1) then quotient + 1 else quotient

/-- The quotient as a float with so many binary digits holds it. -/
def toFloat (precision a b : Nat) : Nat × Nat :=
  if a = 0 then (0, 1)
  else
    let size : Int := (a.log2 : Int) - (b.log2 : Int)
    let shift : Int := (precision : Int) - size
    let up := shift.toNat
    let down := (-shift).toNat
    let isLong := (1 <<< precision) * (b <<< down) ≤ (a <<< up)
    let (up, down) := if isLong then (if up = 0 then (0, down + 1) else (up - 1, down)) else (up, down)
    let significand := roundedQuotient (a <<< up) (b <<< down)
    (significand <<< down, 1 <<< up)

/-- Reads a number with a fraction and an exponent; what it cannot read is left. -/
def readReal (precision : Nat) (text : Bytes) : Option (Real × Bytes) :=
  let text := text.dropWhile Bytes.isSpace
  let negative := text.head? == some '-'.toUInt8
  let digits := if negative || text.head? == some '+'.toUInt8 then text.drop 1 else text
  let lower := Bytes.lower digits
  if (utf8 "infinity").isPrefixOf lower then some (.infinite negative, digits.drop 8)
  else if (utf8 "inf").isPrefixOf lower then some (.infinite negative, digits.drop 3)
  else if (utf8 "nan").isPrefixOf lower then some (.notANumber, digits.drop 3)
  else
    let whole := digits.takeWhile Bytes.isDigit
    let rest := digits.drop whole.length
    let fraction := if rest.head? == some '.'.toUInt8 then (rest.drop 1).takeWhile Bytes.isDigit else []
    if whole.isEmpty && fraction.isEmpty then none
    else
      let rest := if rest.head? == some '.'.toUInt8 then rest.drop (fraction.length + 1) else rest
      let sign := (rest[1]?).filter fun c => c == '-'.toUInt8 || c == '+'.toUInt8
      let exponentDigits := (rest.drop (1 + sign.toList.length)).takeWhile Bytes.isDigit
      let hasExponent := rest.head?.any (utf8 "eE").contains && !exponentDigits.isEmpty
      let exponent : Nat := if hasExponent then min (Bytes.digitsValue exponentDigits) 400 else 0
      let shrinks := sign == some '-'.toUInt8
      let rest := if hasExponent then rest.drop (1 + sign.toList.length + exponentDigits.length)
        else rest
      let value := Bytes.digitsValue (whole ++ fraction)
      let numerator := if shrinks then value else value * Nat.pow 10 exponent
      let denominator := Nat.pow 10 (fraction.length + if shrinks then exponent else 0)
      let (a, b) := toFloat precision numerator denominator
      some (.finite negative a b, rest)

/-- The digits of a quotient with so many after the point. -/
def fixedDigits (places a b : Nat) : Bytes :=
  let n := roundedQuotient (a * Nat.pow 10 places) b
  let digits := Bytes.decimal n
  let digits := List.replicate (places + 1 - digits.length) '0'.toUInt8 ++ digits
  let whole := digits.take (digits.length - places)
  if places = 0 then whole else whole ++ '.'.toUInt8 :: digits.drop (digits.length - places)

/-- The exponent of ten of a quotient that is not zero, and its digits, one of them before the
    point. -/
def scientific (places a b : Nat) : Int × Bytes :=
  if a = 0 then (0, fixedDigits places 0 1)
  else
    let guess : Int := ((Bytes.decimal a).length : Int) - ((Bytes.decimal b).length : Int)
    let scaled (exponent : Int) : Nat × Nat :=
      (a * Nat.pow 10 (-exponent).toNat, b * Nat.pow 10 exponent.toNat)
    let exponent := if (scaled guess).1 < (scaled guess).2 then guess - 1 else guess
    let (c, d) := scaled exponent
    let rounded := roundedQuotient (c * Nat.pow 10 places) d
    if rounded = Nat.pow 10 (places + 1) then (exponent + 1, fixedDigits places 1 1)
    else (exponent, fixedDigits places rounded (Nat.pow 10 places))

/-- An exponent of ten as it is printed. -/
def exponentText (exponent : Int) : Bytes :=
  let digits := Bytes.decimal exponent.natAbs
  (if exponent < 0 then utf8 "e-" else utf8 "e+") ++
    List.replicate (2 - digits.length) '0'.toUInt8 ++ digits

/-- The text without zeros at the end of its fraction. -/
def dropZeros (text : Bytes) : Bytes :=
  if text.contains '.'.toUInt8 then
    let shorter := (text.reverse.dropWhile (· == '0'.toUInt8)).reverse
    if shorter.getLast? = some '.'.toUInt8 then shorter.dropLast else shorter
  else text

def realDigits (letter : UInt8) (places : Nat) (alternate : Bool) (a b : Nat) : Bytes :=
  let letter := Bytes.lowerByte letter
  if letter = 'f'.toUInt8 then fixedDigits places a b
  else if letter = 'e'.toUInt8 then
    let (exponent, digits) := scientific places a b
    digits ++ exponentText exponent
  else
    let places := max places 1
    let (exponent, digits) := scientific (places - 1) a b
    let shorten (text : Bytes) : Bytes := if alternate then text else dropZeros text
    if exponent < -4 ∨ (places : Int) ≤ exponent then shorten digits ++ exponentText exponent
    else shorten (fixedDigits ((places : Int) - 1 - exponent).toNat a b)

/-! ## Conversions -/

/-- How a conversion pads what it prints. -/
structure Padding where
  left : Bool := false
  zeros : Bool := false
  plus : Bool := false
  blank : Bool := false
  alternate : Bool := false
  width : Nat := 0
  precision : Option Nat := none

/-- A text of at least that width. -/
def pad (padding : Padding) (sign digits : Bytes) (zeros : Bool) : Bytes :=
  let fill := padding.width - (sign.length + digits.length)
  if padding.left then sign ++ digits ++ List.replicate fill ' '.toUInt8
  else if zeros && padding.zeros then sign ++ List.replicate fill '0'.toUInt8 ++ digits
  else List.replicate fill ' '.toUInt8 ++ sign ++ digits

/-- The digits of a number in a base, at least as many as the precision says. -/
def digitsIn (base : Nat) (upper : Bool) (padding : Padding) (n : Nat) : Bytes :=
  let digits := if n = 0 ∧ padding.precision = some 0 then []
    else (Nat.toDigits base n).map Char.toUInt8
  let digits := if upper then Bytes.upper digits else digits
  List.replicate (padding.precision.getD 1 - digits.length) '0'.toUInt8 ++ digits

/-- What is wrong with the number of an argument. -/
inductive NumberFault where
  | none
  | missing
  | trailing
  | range
deriving DecidableEq, Repr

/-- The number of an argument, or the code of the byte after a quote. -/
def numberOf (unsigned : Bool) (text : Bytes) : Int × NumberFault :=
  let least : Int := if unsigned then -(Word64.maxUnsigned : Int) else -(Word64.maxSigned : Int) - 1
  let most : Int := if unsigned then Word64.maxUnsigned else Word64.maxSigned
  match text.dropWhile Bytes.isSpace with
  | [] => (0, if text.isEmpty then .none else .missing)
  | c :: rest =>
    if text.head? = some c ∧ (c = 39 ∨ c = 34) then ((rest.head?.map UInt8.toNat).getD 0, .none)
    else
      let negative := c == '-'.toUInt8
      let digits := if negative || c == '+'.toUInt8 then rest else c :: rest
      if !digits.head?.any Bytes.isDigit then (0, .missing)
      else
        let (n, after) := Arithmetic.readNumber digits
        let value : Int := if negative then -(n : Int) else n
        let fault : NumberFault := if !after.isEmpty then .trailing
          else if value < least ∨ most < value then .range
          else .none
        (max least (min most value), fault)

/-- What has been printed, and what was wrong. -/
structure Printed where
  text : Bytes := []
  /-- With the length of the text that comes before. -/
  faults : List (Nat × Bytes) := []
  /-- The conversion that nobody knows. -/
  invalid : Option Bytes := none
  /-- Nothing is printed after this. -/
  ends : Bool := false

namespace Printed

def append (a b : Printed) : Printed :=
  ⟨a.text ++ b.text, a.faults ++ b.faults.map (fun (place, text) => (a.text.length + place, text)),
    b.invalid, b.ends⟩

end Printed

/-- The words in which a kind of printing speaks of numbers that are none. -/
structure Wording where
  missing : Bytes → Bytes
  trailing : Bytes → Bytes
  range : Bytes → Bytes

/-- How the conversions of a format are done. -/
structure Manner where
  /-- In formats. -/
  escapes : Escapes
  wording : Wording
  /-- How many binary digits real numbers have. -/
  precision : Nat
  /-- How a text is printed in quotes, if it can be. -/
  quotes : Option (Bytes → Bytes) := none
  /-- How a moment is printed under a format of its own, if it can be. -/
  moments : Option (Bytes → Bytes → Bytes) := none
  /-- The letters that may stand before the one of a conversion, and mean nothing. -/
  modifiers : Bytes := []
  /-- A single byte is printed even if there is none. -/
  bytes : Bool := true

/-- A text as scripts could spell it: in quotes if a byte of it could mean something else. -/
def spelled (text : Bytes) : Bytes :=
  let isPlain (c : UInt8) : Bool :=
    Bytes.isAlpha c || Bytes.isDigit c || 127 < c || (utf8 "-_./+,:@%").contains c
  if !text.isEmpty && text.all isPlain then text
  else if text.contains 39 && !text.contains 34 then [34] ++ text ++ [34]
  else [39] ++ text.flatMap (fun c => if c = 39 then utf8 "'\\''" else [c]) ++ [39]

def Wording.fault (wording : Wording) (text : Bytes) : NumberFault → List (Nat × Bytes)
  | .none => []
  | .missing => [(0, wording.missing text)]
  | .trailing => [(0, wording.trailing text)]
  | .range => [(0, wording.range text)]

namespace Padding

/-- What stands before the digits of a number. -/
def sign (padding : Padding) (negative : Bool) : Bytes :=
  if negative then utf8 "-" else if padding.plus then utf8 "+"
  else if padding.blank then utf8 " " else []

end Padding

/-- A text, cut to the precision. -/
def plainText (padding : Padding) (text : Bytes) : Bytes :=
  let text := match padding.precision with
    | some n => text.take n
    | none => text
  pad padding [] text false

def signedText (padding : Padding) (value : Int) : Bytes :=
  pad padding (padding.sign (value < 0)) (digitsIn 10 false padding value.natAbs)
    padding.precision.isNone

/-- A number without a sign under the conversion of a letter. -/
def unsignedText (padding : Padding) (letter : UInt8) (n : Nat) : Bytes :=
  let isLetter (c : Char) : Bool := letter == c.toUInt8
  let base := if isLetter 'o' then 8 else if isLetter 'u' then 10 else 16
  let digits := digitsIn base (isLetter 'X') padding n
  let start := if !padding.alternate || n == 0 then []
    else if isLetter 'x' then utf8 "0x" else if isLetter 'X' then utf8 "0X"
    else if isLetter 'o' && digits.head? != some '0'.toUInt8 then utf8 "0" else []
  pad padding start digits padding.precision.isNone

def realText (padding : Padding) (letter : UInt8) (value : Real) : Bytes :=
  let (negative, digits, isFinite) := match value with
    | .finite negative a b =>
      (negative, realDigits letter (padding.precision.getD 6) padding.alternate a b, true)
    | .infinite negative => (negative, utf8 "inf", false)
    | .notANumber => (false, utf8 "nan", false)
  let digits := if Bytes.isUpper letter then Bytes.upper digits else digits
  pad padding (padding.sign negative) digits isFinite

/-- What a conversion prints of an argument; none if nobody knows the conversion. -/
def convert (manner : Manner) (padding : Padding) (letter : UInt8) (argument : Bytes) :
    Option Printed :=
  let isOneOf (letters : String) : Bool := (utf8 letters).contains letter
  if isOneOf "s" then some { text := plainText padding argument }
  else if isOneOf "b" then
    let escapes := { manner.escapes with afterZero := true, ends := true }
    let (text, ends) := unescape escapes argument.length argument
    some { text := plainText padding text, ends }
  else if isOneOf "c" then
    let byte := if manner.bytes then [argument.headD 0] else argument.take 1
    some { text := pad padding [] byte false }
  else if isOneOf "di" then
    let (value, fault) := numberOf false argument
    some { text := signedText padding value, faults := manner.wording.fault argument fault }
  else if isOneOf "ouxX" then
    let (value, fault) := numberOf true argument
    some { text := unsignedText padding letter (value % (Word64.maxUnsigned + 1)).toNat
           faults := manner.wording.fault argument fault }
  else if isOneOf "feEgGF" then
    let (value, fault) : Real × NumberFault := match readReal manner.precision argument with
      | none => (.finite false 0 1, if argument.isEmpty then .none else .missing)
      | some (value, rest) => (value, if rest.isEmpty then .none else .trailing)
    some { text := realText padding letter value, faults := manner.wording.fault argument fault }
  else match manner.quotes with
    | some quote =>
      if isOneOf "q" then some { text := plainText padding (quote argument) }
      else if isOneOf "Q" && manner.moments.isSome then
        let cut := match padding.precision with
          | some n => argument.take n
          | none => argument
        some { text := plainText { padding with precision := none } (quote cut) }
      else none
    | none => none

/-- A number or a star, whose number is the next argument. -/
def readWidth (s : Bytes) (arguments : List Bytes) : Int × Bytes × List Bytes :=
  if s.head? = some '*'.toUInt8 then
    ((numberOf false (arguments.headD [])).1, s.drop 1, arguments.drop 1)
  else (Bytes.digitsValue (s.takeWhile Bytes.isDigit), s.dropWhile Bytes.isDigit, arguments)

def formatPass (manner : Manner) : (fuel : Nat) → Bytes → List Bytes → Printed × List Bytes
  | 0, _, arguments => ({ ends := true }, arguments)
  | _, [], arguments => ({}, arguments)
  | fuel + 1, c :: rest, arguments =>
    let put (printed : Printed) (rest : Bytes) (arguments : List Bytes) : Printed × List Bytes :=
      if printed.ends || printed.invalid.isSome then (printed, arguments)
      else
        let (more, arguments) := formatPass manner fuel rest arguments
        (printed.append more, arguments)
    if c = 92 then
      match readEscape manner.escapes rest with
      | .ends => ({ ends := true }, arguments)
      | .faulty text => ({ ends := true, faults := [(0, text)] }, arguments)
      | .bytes bytes rest => put { text := bytes } rest arguments
    else if c ≠ '%'.toUInt8 then put { text := [c] } rest arguments
    else if rest.head? = some '%'.toUInt8 then put { text := [c] } (rest.drop 1) arguments
    else
      let flags := rest.takeWhile (utf8 "-0+ #").contains
      let (width, after, arguments) := readWidth (rest.drop flags.length) arguments
      let (precision, after, arguments) :=
        if after.head? = some '.'.toUInt8 then
          let (n, after, arguments) := readWidth (after.drop 1) arguments
          (if n < 0 then none else some n.toNat, after, arguments)
        else (none, after, arguments)
      let padding : Padding :=
        { left := flags.contains '-'.toUInt8 || width < 0, zeros := flags.contains '0'.toUInt8
          plus := flags.contains '+'.toUInt8, blank := flags.contains ' '.toUInt8
          alternate := flags.contains '#'.toUInt8, width := width.natAbs, precision }
      let after := after.dropWhile manner.modifiers.contains
      let dated : Option (Bytes × Bytes) := match after, manner.moments with
        | 40 :: inner, some moment =>
          let format := Bytes.before ')'.toUInt8 inner
          match inner.drop format.length with
          | _ :: 84 :: after => some (moment format (arguments.headD (utf8 "-1")), after)
          | _ => none
        | _, _ => none
      if let some (text, after) := dated then
        put { text := plainText padding text } after (arguments.drop 1)
      else match after with
      | [] => ({ invalid := some [] }, arguments)
      | letter :: after =>
        match convert manner padding letter (arguments.headD []) with
        | some printed => put printed after (arguments.drop 1)
        | none =>
          let spelled := rest.take (rest.length - after.length)
          ({ invalid := some (c :: spelled) }, arguments)

/-- Passes over a format as long as there are arguments that it takes. -/
def formatAll (manner : Manner) : (fuel : Nat) → Bytes → List Bytes → Printed
  | 0, _, _ => {}
  | fuel + 1, format, arguments =>
    let (printed, left) := formatPass manner (format.length + 1) format arguments
    if printed.ends || printed.invalid.isSome || left.isEmpty || left.length == arguments.length then
      printed
    else printed.append (formatAll manner fuel format left)

def scripts : Manner where
  escapes := { afterZero := false }
  wording :=
    { missing := (· ++ utf8 ": expected numeric value")
      trailing := (· ++ utf8 ": not completely converted")
      range := (· ++ utf8 ": Numerical result out of range") }
  precision := 53

def utility : Manner where
  escapes := { afterZero := false, hex := true, plain := [34], codes := .full }
  wording :=
    { missing := fun text => utf8 "'" ++ text ++ utf8 "': expected a numeric value"
      trailing := fun text => utf8 "'" ++ text ++ utf8 "': value not completely converted"
      range := fun text => utf8 "'" ++ text ++ utf8 "': Numerical result out of range" }
  precision := 64
  quotes := some spelled
  modifiers := utf8 "hjlLtz"

/-- How scripts of the extended language print. -/
def extended (quote : Bytes → Bytes) (moment : Bytes → Bytes → Bytes) : Manner where
  escapes := { afterZero := false, hex := true, plain := utf8 "\"'?", codes := .short, ends := false }
  wording :=
    { missing := (· ++ utf8 ": invalid number")
      trailing := (· ++ utf8 ": invalid number")
      range := fun text => utf8 "warning: " ++ text ++ utf8 ": Numerical result out of range" }
  precision := 64
  quotes := some quote
  moments := some moment
  modifiers := utf8 "hjlLtz"
  bytes := false

def print (manner : Manner) (format : Bytes) (arguments : List Bytes) : Printed :=
  formatAll manner (arguments.length + 1) format arguments

end ShellCompletion.Format
