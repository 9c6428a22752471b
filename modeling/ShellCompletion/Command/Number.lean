import ShellCompletion.Command.Format

/-!
# Numbers as programs reckon with them

Floats of 64 bits: how they are read from texts, and which real numbers they hold exactly.
-/
namespace ShellCompletion.Format

namespace Real

/-- The float that is a quotient of a number of at most 53 significant bits and a power of two. -/
def floatOf (digits divisor : Nat) : Float :=
  let excess := digits.log2 - 60
  Float.scaleB (Float.ofNat (digits >>> excess)) ((excess : Int) - divisor.log2)

def toFloat : Real → Float
  | .finite negative digits divisor =>
    if negative then -(floatOf digits divisor) else floatOf digits divisor
  | .infinite negative => if negative then -1.0 / 0.0 else 1.0 / 0.0
  | .notANumber => 0.0 / 0.0

/-- The number that a float holds. -/
def ofFloat (value : Float) : Real :=
  let bits := value.toBits.toNat
  let negative := 1 <<< 63 ≤ bits
  let exponent := (bits >>> 52) % 2048
  let fraction := bits % (1 <<< 52)
  if exponent = 2047 then if fraction = 0 then .infinite negative else .notANumber
  else
    let digits := if exponent = 0 then fraction else fraction + (1 <<< 52)
    let power : Int := (max exponent 1 : Int) - 1075
    .finite negative (digits <<< power.toNat) (1 <<< (-power).toNat)

end Real

/-- Reads a number in base sixteen after its sign and its `0x`, maybe with a fraction and an exponent
    of two. -/
def readHex (digits : Bytes) : Option (Float × Bytes) :=
  let whole := digits.takeWhile Bytes.isHex
  let rest := digits.drop whole.length
  let hasPoint := rest.head? == some '.'.toUInt8
  let fraction := if hasPoint then (rest.drop 1).takeWhile Bytes.isHex else []
  if whole.isEmpty && fraction.isEmpty then none
  else
    let rest := if hasPoint then rest.drop (fraction.length + 1) else rest
    let (negative, power) := match rest with
      | 112 :: 45 :: more | 80 :: 45 :: more => (true, more.takeWhile Bytes.isDigit)
      | 112 :: 43 :: more | 80 :: 43 :: more => (false, more.takeWhile Bytes.isDigit)
      | 112 :: more | 80 :: more => (false, more.takeWhile Bytes.isDigit)
      | _ => (false, [])
    let sign := (rest[1]?).any fun c => c == '-'.toUInt8 || c == '+'.toUInt8
    let rest := if power.isEmpty then rest
      else rest.drop (power.length + if sign then 2 else 1)
    let size : Int := min (Bytes.digitsValue power) 4000
    let exponent := (if negative then -size else size) - 4 * fraction.length
    some (Float.scaleB (Float.ofNat (Bytes.valueIn 16 (whole ++ fraction))) exponent, rest)

def readFloat (text : Bytes) : Option (Float × Bytes) :=
  let text := text.dropWhile Bytes.isSpace
  let negative := text.head? == some '-'.toUInt8
  let digits := if negative || text.head? == some '+'.toUInt8 then text.drop 1 else text
  let hex := if Bytes.lower (digits.take 2) == utf8 "0x" then readHex (digits.drop 2) else none
  match hex with
  | some (value, rest) => some (if negative then -value else value, rest)
  | none => (readReal 53 text).map fun (value, rest) => (value.toFloat, rest)

/-- The integer towards zero, or the nearest of the range. -/
def truncated (least most : Int) (value : Float) : Int :=
  match Real.ofFloat value with
  | .finite negative digits divisor =>
    let n : Int := digits / divisor
    max least (min most (if negative then -n else n))
  | .infinite negative => if negative then least else most
  | .notANumber => least

/-- The integer towards zero as a float. -/
def wholePart (value : Float) : Float := if value < 0 then value.ceil else value.floor

def isWhole (value : Float) : Bool := value.isFinite && value.floor == value

/-- The rest of a division whose quotient is rounded towards zero. -/
def remainder (a b : Float) : Float :=
  match Real.ofFloat a, Real.ofFloat b with
  | .finite negative digits divisor, .finite _ otherDigits otherDivisor =>
    if otherDigits = 0 then 0.0 / 0.0
    else
      let rest := (digits * otherDivisor) % (otherDigits * divisor)
      let value := Real.floatOf rest (divisor * otherDivisor)
      if negative then -value else value
  | .finite .., .infinite _ => a
  | _, _ => 0.0 / 0.0

/-! ## Printing -/

/-- A float under a conversion of real numbers. -/
def floatText (padding : Padding) (letter : UInt8) (value : Float) : Bytes :=
  realText padding letter (Real.ofFloat value)

end ShellCompletion.Format
