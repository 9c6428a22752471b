/-!
# Byte strings

Command lines, file names and file contents are byte strings: lists of bytes without an encoding.
The classes of bytes and the two cases are those of ASCII, so a byte of 0x80 or more is never a
letter, a digit or a space and has no case. Texts are cut at a delimiter by `fields`, into lines by
`lines`, and ordered byte by byte by `Bytes.le`.
-/
namespace ShellCompletion

/-- A string of bytes. -/
abbrev Bytes := List UInt8

def utf8 (text : String) : Bytes := text.toUTF8.data.toList

namespace Bytes

/-! ## Classes of bytes -/

/-- Space, tab, line feed, vertical tab, form feed and carriage return. -/
def isSpace (c : UInt8) : Bool := c == ' '.toUInt8 || ('\t'.toUInt8 ≤ c && c ≤ '\r'.toUInt8)

/-- The blanks that end words and are trimmed from lines: space, tab, line feed, carriage return. -/
def isBlank (c : UInt8) : Bool :=
  c == ' '.toUInt8 || c == '\t'.toUInt8 || c == '\n'.toUInt8 || c == '\r'.toUInt8

def isDigit (c : UInt8) : Bool := '0'.toUInt8 ≤ c && c ≤ '9'.toUInt8

def isOctal (c : UInt8) : Bool := '0'.toUInt8 ≤ c && c ≤ '7'.toUInt8

def isUpper (c : UInt8) : Bool := 'A'.toUInt8 ≤ c && c ≤ 'Z'.toUInt8

def isLower (c : UInt8) : Bool := 'a'.toUInt8 ≤ c && c ≤ 'z'.toUInt8

def isAlpha (c : UInt8) : Bool := isUpper c || isLower c

def lowerByte (c : UInt8) : UInt8 := if isUpper c then c + 32 else c

def upperByte (c : UInt8) : UInt8 := if isLower c then c - 32 else c

/-- A hexadecimal digit. -/
def isHex (c : UInt8) : Bool :=
  isDigit c || ('a'.toUInt8 ≤ lowerByte c && lowerByte c ≤ 'f'.toUInt8)

/-- The text with its ASCII letters in lower case. -/
def lower (s : Bytes) : Bytes := s.map lowerByte

/-- The text with its ASCII letters in upper case. -/
def upper (s : Bytes) : Bytes := s.map upperByte

/-- The text is not empty and holds digits only. -/
def allDigits (s : Bytes) : Bool := !s.isEmpty && s.all isDigit

/-! ## Parts of a text -/

def startsWith (s start : Bytes) : Bool := start.isPrefixOf s

def endsWith (s ending : Bytes) : Bool := ending.isSuffixOf s

/-- The text without the blanks at its two ends. -/
def trim (s : Bytes) : Bytes := ((s.dropWhile isBlank).reverse.dropWhile isBlank).reverse

/-- The parts of `s` between the delimiters: one more than there are delimiters. -/
def fields (delimiter : UInt8) : Bytes → List Bytes
  | [] => [[]]
  | c :: rest =>
    if c = delimiter then [] :: fields delimiter rest
    else match fields delimiter rest with
      | [] => [[c]]
      | field :: more => (c :: field) :: more

/-- The text without one carriage return at its end. -/
def dropReturn (line : Bytes) : Bytes :=
  if line.getLast? = some '\r'.toUInt8 then line.dropLast else line

/-- The lines of a text, each without its line feed and one carriage return before that. An empty
    last line is no line, so a final line feed adds none. -/
def lines (s : Bytes) : List Bytes :=
  let all := (fields '\n'.toUInt8 s).map dropReturn
  if all.getLast? = some [] then all.dropLast else all

def join (delimiter : Bytes) (parts : List Bytes) : Bytes := (parts.intersperse delimiter).flatten

/-- The text before the first `c`, or all of it. -/
def before (c : UInt8) (s : Bytes) : Bytes := s.takeWhile (· != c)

/-- What follows the last `c`, or all of the text. -/
def afterLast (c : UInt8) (s : Bytes) : Bytes := (s.reverse.takeWhile (· != c)).reverse

def throughLast (c : UInt8) (s : Bytes) : Bytes := (s.reverse.dropWhile (· != c)).reverse

/-! ## Order -/

/-- The order byte by byte; a text comes before its extensions. -/
def le : Bytes → Bytes → Bool
  | [], _ => true
  | _ :: _, [] => false
  | a :: s, b :: t => a < b || (a == b && le s t)

/-! ## Decimal numbers -/

def decimal (n : Nat) : Bytes := (Nat.toDigits 10 n).map Char.toUInt8

/-- The decimal digits of an integer, after a minus sign if it is negative. -/
def decimalInt : Int → Bytes
  | .ofNat n => decimal n
  | .negSucc n => '-'.toUInt8 :: decimal (n + 1)

/-- The number that a text of digits denotes. -/
def digitsValue (s : Bytes) : Nat := s.foldl (fun n c => 10 * n + (c.toNat - 48)) 0

/-- The number that digits denote in a base up to sixteen. -/
def valueIn (base : Nat) (digits : Bytes) : Nat :=
  digits.foldl (fun n c =>
    base * n + if isDigit c then c.toNat - 48 else (lowerByte c).toNat - 87) 0

/-- The integer that the whole text denotes: white space, a sign, and at least one digit. -/
def readInteger (s : Bytes) : Option Int :=
  match s.dropWhile isSpace with
  | [] => none
  | c :: rest =>
    if c = '-'.toUInt8 then if allDigits rest then some (-(digitsValue rest : Int)) else none
    else if c = '+'.toUInt8 then if allDigits rest then some (digitsValue rest) else none
    else if allDigits (c :: rest) then some (digitsValue (c :: rest)) else none

/-- The text up to its first NUL byte. -/
def untilNul (s : Bytes) : Bytes := s.takeWhile (· != 0)

end Bytes

end ShellCompletion
