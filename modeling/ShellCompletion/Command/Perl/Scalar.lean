import ShellCompletion.Command.Number

/-!
# Single values

A single value is nothing, a number, a text, or leads to something else. A number is an integer as long
as 64 bits hold it, and a float otherwise. A text counts as the number that it starts with, and every
number has a text.
-/
namespace ShellCompletion.Perl

/-- A value. -/
inductive Scalar where
  | nothing
  | int (n : Int)
  | float (x : Float)
  | text (bytes : Bytes)
  /-- Leads to a thing at an address. -/
  | reference (address : Nat)
  /-- Leads to a file or a directory that is open. -/
  | handle (number : Nat)
  /-- An expression to match with. -/
  | pattern (text : Bytes)
  /-- A number and a text at once. -/
  | dual (n : Int) (bytes : Bytes)

instance : Inhabited Scalar := ⟨.nothing⟩

/-! ## Characters -/

def wideText (code : Nat) : Bytes := utf8 (String.singleton (Char.ofNat code))

/-! ## Numbers -/

/-- The integers that 64 bits hold, with a sign or without. -/
def leastInt : Int := -9223372036854775808
def largestInt : Int := 18446744073709551615

namespace Scalar

def ofNat (n : Nat) : Scalar := .int n

def ofBool (b : Bool) : Scalar := if b then .int 1 else .text []

/-- An integer, or the float next to it. -/
def ofInt (n : Int) : Scalar :=
  if leastInt ≤ n ∧ n ≤ largestInt then .int n
  else .float (if n < 0 then -(Format.Real.floatOf n.natAbs 1) else Format.Real.floatOf n.natAbs 1)

end Scalar

def floatOfInt (n : Int) : Float :=
  if n < 0 then -(Format.Real.floatOf n.natAbs 1) else Format.Real.floatOf n.natAbs 1

def infinity : Float := 1.0 / 0.0

/-- How many bytes of a text spell a number: digits with a point and an exponent. -/
def numberLength (text : Bytes) : Nat :=
  let whole := text.takeWhile Bytes.isDigit
  let rest := text.drop whole.length
  let (length, rest, hasDigits) := match rest with
    | 46 :: after =>
      let fraction := after.takeWhile Bytes.isDigit
      (whole.length + 1 + fraction.length, after.drop fraction.length,
        !whole.isEmpty || !fraction.isEmpty)
    | rest => (whole.length, rest, !whole.isEmpty)
  if !hasDigits then 0
  else match rest with
    | c :: after =>
      if c = 'e'.toUInt8 ∨ c = 'E'.toUInt8 then
        let hasSign := after.head? == some '+'.toUInt8 || after.head? == some '-'.toUInt8
        let digits := (if hasSign then after.drop 1 else after).takeWhile Bytes.isDigit
        if digits.isEmpty then length
        else length + 1 + digits.length + if hasSign then 1 else 0
      else length
    | [] => length

def readNumber (text : Bytes) : Scalar × Bytes :=
  let start := text.dropWhile Bytes.isSpace
  let negative := start.head? == some '-'.toUInt8
  let body := if negative || start.head? == some '+'.toUInt8 then start.drop 1 else start
  let length := numberLength body
  let digits := body.take length
  if length = 0 then
    let word := Bytes.lower (body.take 8)
    let put (x : Float) (used : Nat) : Scalar × Bytes :=
      (.float (if negative then -x else x), body.drop used)
    if word = utf8 "infinity" then put infinity 8
    else if (utf8 "inf").isPrefixOf word then put infinity 3
    else if (utf8 "nan").isPrefixOf word then put (0.0 / 0.0) 3
    else (.int 0, text)
  else if digits.all Bytes.isDigit then
    let n : Int := Bytes.digitsValue digits
    (Scalar.ofInt (if negative then -n else n), body.drop length)
  else match Format.readReal 53 digits with
    | some (value, _) =>
      let x := value.toFloat
      (.float (if negative then -x else x), body.drop length)
    | none => (.int 0, text)

/-- All of a text spells a number, maybe with blanks around it. -/
def isNumeric (text : Bytes) : Bool :=
  let (_, rest) := readNumber text
  rest.length < text.length && rest.all Bytes.isSpace

def floatText (x : Float) : Bytes :=
  if x.isNaN then utf8 "NaN"
  else if x.isInf then utf8 (if x < 0 then "-Inf" else "Inf")
  else if x == 0.0 then utf8 "0"
  else Format.floatText { precision := some 15 } 'g'.toUInt8 x

namespace Scalar

/-- The number that a value stands for: an integer or a float. -/
def number : Scalar → Scalar
  | .nothing => .int 0
  | .text bytes => (readNumber bytes).1
  | .reference address => .int (94000000000000 + 24 * address)
  | .handle number => .int (94000000000000 + 24 * number)
  | .pattern _ => .int 94000000000000
  | .dual n _ => .int n
  | value => value

def toFloat (value : Scalar) : Float :=
  match value.number with
  | .int n => floatOfInt n
  | .float x => x
  | _ => 0

/-- The integer towards zero. -/
def toInt (value : Scalar) : Int :=
  match value.number with
  | .int n => n
  | .float x => Format.truncated leastInt largestInt x
  | _ => 0

/-- The integer as 64 bits without a sign. -/
def toWord (value : Scalar) : Nat := (value.toInt % (largestInt + 1)).toNat

/-- A number of bytes or elements. -/
def toNat (value : Scalar) : Nat := value.toInt.toNat

/-- The text of a value that leads to nothing else. -/
def text? : Scalar → Option Bytes
  | .nothing => some []
  | .int n => some (Bytes.decimalInt n)
  | .float x => some (floatText x)
  | .text bytes | .pattern bytes => some bytes
  | .dual _ bytes => some bytes
  | _ => none

def isDefined : Scalar → Bool
  | .nothing => false
  | _ => true

def isTrue : Scalar → Bool
  | .nothing => false
  | .int n => n != 0
  | .float x => x != 0.0
  | .text bytes => !bytes.isEmpty && bytes != [48]
  | .dual n bytes => n != 0 || !bytes.isEmpty
  | _ => true

/-! ## Reckoning -/

/-- A float is as good as the integer that it is. -/
def settled (x : Float) : Scalar :=
  if Format.isWhole x && x.abs < 9007199254740992.0 && !(x == 0.0) then
    .int (Format.truncated leastInt largestInt x)
  else .float x

/-- A number as an integer, if it is one that a float holds exactly. -/
def exact (a : Scalar) : Scalar :=
  match a.number with
  | .float x => settled x
  | value => value

def add (a b : Scalar) : Scalar :=
  match a.exact, b.exact with
  | .int m, .int n => ofInt (m + n)
  | a, b => .float (a.toFloat + b.toFloat)

def subtract (a b : Scalar) : Scalar :=
  match a.exact, b.exact with
  | .int m, .int n => ofInt (m - n)
  | a, b => .float (a.toFloat - b.toFloat)

def multiply (a b : Scalar) : Scalar :=
  match a.exact, b.exact with
  | .int m, .int n => ofInt (m * n)
  | a, b => .float (a.toFloat * b.toFloat)

/-- A quotient; none if the divisor is zero. -/
def divide (a b : Scalar) : Option Scalar :=
  match a.exact, b.exact with
  | .int m, .int n =>
    if n = 0 then none
    else if m % n = 0 then some (ofInt (m / n))
    else some (.float (floatOfInt m / floatOfInt n))
  | a, b => if b.toFloat == 0.0 then none else some (settled (a.toFloat / b.toFloat))

/-- The rest of a division of integers, which has the sign of the divisor; none if that is zero. -/
def modulo (a b : Scalar) : Option Scalar :=
  let isHuge (x : Scalar) : Bool := match x.number with
    | .float x => !(x.abs < 18446744073709551616.0)
    | _ => false
  if isHuge a || isHuge b then
    if b.toFloat == 0.0 then none
    else if b.toFloat.isInf then some (.float a.toFloat)
    else some (settled (Format.remainder a.toFloat b.toFloat))
  else
    let n := b.toInt
    if n = 0 then none else some (ofInt (a.toInt.fmod n))

/-- How many binary digits a number has. -/
def bitCount (n : Nat) : Nat := if n = 0 then 0 else n.log2 + 1

/-- A power: of integers it is an integer if 64 bits hold it for sure, unless it is a power of two. -/
def power (a b : Scalar) : Scalar :=
  match a.exact, b.exact with
  | .int m, .int n =>
    let size := m.natAbs
    let isPowerOfTwo := 1 <<< size.log2 = size
    if 0 ≤ n ∧ (size ≤ 1 ∨ (¬ isPowerOfTwo ∧ bitCount size * n.toNat ≤ 64)) then
      let count : Nat := if size ≤ 1 then n.toNat % 2 + if n = 0 then 0 else 2 else n.toNat
      ofInt (Int.pow m count)
    else .float (Float.pow (floatOfInt m) (floatOfInt n))
  | a, b => .float (Float.pow a.toFloat b.toFloat)

def negate (a : Scalar) : Scalar :=
  match a with
  | .text (c :: rest) =>
    if Bytes.isAlpha c || c == '_'.toUInt8 then .text ('-'.toUInt8 :: c :: rest)
    else if (c == '-'.toUInt8 || c == '+'.toUInt8) && rest.head?.any (fun d => Bytes.isAlpha d || d == '_'.toUInt8) then
      .text ((if c == '-'.toUInt8 then '+'.toUInt8 else '-'.toUInt8) :: rest)
    else match a.number with
      | .int n => ofInt (-n)
      | a => .float (-a.toFloat)
  | a => match a.number with
    | .int n => ofInt (-n)
    | a => .float (-a.toFloat)

/-- The order of two numbers; none if one of them is none. -/
def order (a b : Scalar) : Option Ordering :=
  match a.number, b.number with
  | .int m, .int n => some (compareOfLessAndEq m n)
  | a, b =>
    let (x, y) := (a.toFloat, b.toFloat)
    if x < y then some .lt else if x == y then some .eq else if y < x then some .gt else none

/-- Works on the bits of two texts, byte by byte; the shorter one goes on with zeros. -/
def bytewise (change : UInt8 → UInt8 → UInt8) (cuts : Bool) : Bytes → Bytes → Bytes
  | [], [] => []
  | a, [] => if cuts then [] else a.map fun c => change c 0
  | [], b => if cuts then [] else b.map fun c => change 0 c
  | c :: a, d :: b => change c d :: bytewise change cuts a b

/-- What comes after a text that counts: its last letter or digit goes up, and so do those before it when
    it starts again. `text` is reversed. -/
def nextReversed : Bytes → Bytes
  | [] => []
  | c :: rest =>
    let around (start : Char) : Bytes :=
      start.toUInt8 :: if rest.isEmpty then [if start = '0' then '1'.toUInt8 else start.toUInt8]
        else nextReversed rest
    if c = 'z'.toUInt8 then around 'a'
    else if c = 'Z'.toUInt8 then around 'A'
    else if c = '9'.toUInt8 then around '0'
    else (c + 1) :: rest

def isCounter (text : Bytes) : Bool :=
  !text.isEmpty && (text.dropWhile Bytes.isAlpha).all Bytes.isDigit

/-- The value after a value. -/
def next (a : Scalar) : Scalar :=
  match a with
  | .text bytes =>
    if bytes.isEmpty then .int 1
    else if isCounter bytes && bytes.head?.any Bytes.isAlpha then .text (nextReversed bytes.reverse).reverse
    else a.add (.int 1)
  | a => a.add (.int 1)

end Scalar

end ShellCompletion.Perl
