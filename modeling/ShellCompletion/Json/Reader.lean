import ShellCompletion.Json
import ShellCompletion.Word64

/-!
# Reading JSON

A reader for JSON texts in UTF-8. A reading step takes a part of the text and gives the rest; none
where the text is not JSON.
-/
namespace ShellCompletion.Json

/-- The blanks between the parts of a JSON text are the four that end words. -/
def skipBlanks (s : Bytes) : Bytes := s.dropWhile Bytes.isBlank

/-! ## Strings -/

/-- The value of a hexadecimal digit. -/
def hexDigit? (c : UInt8) : Option Nat :=
  if Bytes.isDigit c then some (c.toNat - '0'.toNat)
  else if 'a'.toUInt8 ≤ c && c ≤ 'f'.toUInt8 then some (c.toNat - 'a'.toNat + 10)
  else if 'A'.toUInt8 ≤ c && c ≤ 'F'.toUInt8 then some (c.toNat - 'A'.toNat + 10)
  else none

/-- The value of four hexadecimal digits, and the text after them. -/
def hexQuad? : Bytes → Option (Nat × Bytes)
  | a :: b :: c :: d :: rest => do
    let a ← hexDigit? a
    let b ← hexDigit? b
    let c ← hexDigit? c
    let d ← hexDigit? d
    return (((a * 16 + b) * 16 + c) * 16 + d, rest)
  | _ => none

def codePoint (n : Nat) : Bytes := utf8 (String.singleton (Char.ofNat n))

/-- The bytes that an escape after a backslash stands for, and the text after it. A code point
    beyond the first 65536 is written as two surrogates, which have no meaning alone. -/
def escape? : Bytes → Option (Bytes × Bytes)
  | [] => none
  | c :: rest =>
    if c = '"'.toUInt8 ∨ c = '\\'.toUInt8 ∨ c = '/'.toUInt8 then some ([c], rest)
    else if c = 'b'.toUInt8 then some ([8], rest)
    else if c = 'f'.toUInt8 then some ([12], rest)
    else if c = 'n'.toUInt8 then some ([10], rest)
    else if c = 'r'.toUInt8 then some ([13], rest)
    else if c = 't'.toUInt8 then some ([9], rest)
    else if c = 'u'.toUInt8 then
      match hexQuad? rest with
      | none => none
      | some (unit, rest) =>
        if unit < 0xD800 ∨ 0xE000 ≤ unit then some (codePoint unit, rest)
        else if unit < 0xDC00 ∧ (utf8 "\\u").isPrefixOf rest then
          match hexQuad? (rest.drop 2) with
          | none => none
          | some (low, rest) =>
            if 0xDC00 ≤ low ∧ low < 0xE000 then
              some (codePoint (0x10000 + (unit - 0xD800) * 0x400 + (low - 0xDC00)), rest)
            else none
        else none
    else none

/-- The rest of a string after its opening quote. The fuel bounds the number of its parts. -/
def stringRest? : Nat → Bytes → Option (Bytes × Bytes)
  | 0, _ => none
  | _, [] => none
  | fuel + 1, c :: rest =>
    if c = '"'.toUInt8 then some ([], rest)
    else if c < 32 then none
    else if c = '\\'.toUInt8 then
      match escape? rest with
      | none => none
      | some (bytes, rest) => (stringRest? fuel rest).map fun (more, rest) => (bytes ++ more, rest)
    else (stringRest? fuel rest).map fun (more, rest) => (c :: more, rest)

/-! ## Numbers -/

/-- The sign, whole digits, fraction and exponent of a number. -/
structure NumberText where
  negative : Bool
  whole : Bytes
  fraction : Bytes
  exponent : Bytes

/-- The fraction at the front of a text, with its point; none if the point has no digit after it. -/
def fraction? (s : Bytes) : Option (Bytes × Bytes) :=
  match s with
  | [] => some ([], [])
  | c :: rest =>
    if c = '.'.toUInt8 then
      let digits := rest.takeWhile Bytes.isDigit
      if digits.isEmpty then none else some (c :: digits, rest.dropWhile Bytes.isDigit)
    else some ([], s)

/-- The exponent at the front of a text, with its mark; none if the mark has no digit after it. -/
def exponent? (s : Bytes) : Option (Bytes × Bytes) :=
  match s with
  | [] => some ([], [])
  | c :: rest =>
    if c = 'e'.toUInt8 ∨ c = 'E'.toUInt8 then
      let sign := (rest.take 1).filter fun c => c == '+'.toUInt8 || c == '-'.toUInt8
      let digits := (rest.drop sign.length).takeWhile Bytes.isDigit
      if digits.isEmpty then none
      else some (c :: (sign ++ digits), (rest.drop sign.length).dropWhile Bytes.isDigit)
    else some ([], s)

/-- The number at the front of a text. Its whole digits do not start with a needless zero. -/
def numberText? (s : Bytes) : Option (NumberText × Bytes) := do
  let negative := s.head? == some '-'.toUInt8
  let s := if negative then s.drop 1 else s
  let whole := s.takeWhile Bytes.isDigit
  guard (!whole.isEmpty && (whole.length == 1 || whole.head? != some '0'.toUInt8))
  let (fraction, rest) ← fraction? (s.dropWhile Bytes.isDigit)
  let (exponent, rest) ← exponent? rest
  return (⟨negative, whole, fraction, exponent⟩, rest)

/-- The value of a number: an integer if it is written as one and fits 64 bits. -/
def NumberText.value (text : NumberText) : Json :=
  let digits := Bytes.digitsValue text.whole
  let signed : Int := if text.negative then -digits else digits
  if text.fraction.isEmpty && text.exponent.isEmpty && decide (-Word64.maxSigned - 1 ≤ signed) &&
      decide (signed ≤ Word64.maxUnsigned) then .integer signed
  else .real ((if text.negative then ['-'.toUInt8] else []) ++ text.whole ++ text.fraction ++
    text.exponent)

/-! ## Values -/

mutual

/-- The value at the front of a text. The fuel bounds the number of steps. -/
def readValue? : Nat → Bytes → Option (Json × Bytes)
  | 0, _ => none
  | fuel + 1, s =>
    match skipBlanks s with
    | [] => none
    | c :: rest =>
      if c = '\x7b'.toUInt8 then
        match skipBlanks rest with
        | [] => none
        | d :: after =>
          if d = '\x7d'.toUInt8 then some (.object [], after)
          else (readMembers? fuel (d :: after)).map fun (members, rest) => (.object members, rest)
      else if c = '['.toUInt8 then
        match skipBlanks rest with
        | [] => none
        | d :: after =>
          if d = ']'.toUInt8 then some (.array [], after)
          else (readItems? fuel (d :: after)).map fun (items, rest) => (.array items, rest)
      else if c = '"'.toUInt8 then
        (stringRest? (rest.length + 1) rest).map fun (text, rest) => (.string text, rest)
      else if (utf8 "true").isPrefixOf (c :: rest) then some (.bool true, rest.drop 3)
      else if (utf8 "false").isPrefixOf (c :: rest) then some (.bool false, rest.drop 4)
      else if (utf8 "null").isPrefixOf (c :: rest) then some (.null, rest.drop 3)
      else (numberText? (c :: rest)).map fun (text, rest) => (text.value, rest)

/-- The items of an array up to its closing bracket; at least one. -/
def readItems? : Nat → Bytes → Option (List Json × Bytes)
  | 0, _ => none
  | fuel + 1, s =>
    match readValue? fuel s with
    | none => none
    | some (item, rest) =>
      match skipBlanks rest with
      | [] => none
      | c :: rest =>
        if c = ']'.toUInt8 then some ([item], rest)
        else if c = ','.toUInt8 then
          (readItems? fuel rest).map fun (items, rest) => (item :: items, rest)
        else none

/-- The members of an object up to its closing brace; at least one. -/
def readMembers? : Nat → Bytes → Option (List (Bytes × Json) × Bytes)
  | 0, _ => none
  | fuel + 1, s =>
    match skipBlanks s with
    | [] => none
    | c :: rest =>
      if c ≠ '"'.toUInt8 then none
      else match stringRest? (rest.length + 1) rest with
        | none => none
        | some (name, rest) =>
          match skipBlanks rest with
          | [] => none
          | colon :: rest =>
            if colon ≠ ':'.toUInt8 then none
            else match readValue? fuel rest with
              | none => none
              | some (value, rest) =>
                match skipBlanks rest with
                | [] => none
                | c :: rest =>
                  if c = '\x7d'.toUInt8 then some ([(name, value)], rest)
                  else if c = ','.toUInt8 then
                    (readMembers? fuel rest).map fun (members, rest) => ((name, value) :: members, rest)
                  else none

end

/-- The value of a JSON text. Each step takes a byte or leads to one that does, so twice the length
    of the text is fuel enough. -/
def parse? (text : Bytes) : Option Json :=
  match readValue? (2 * text.length + 2) text with
  | some (json, rest) => if (skipBlanks rest).isEmpty then some json else none
  | none => none

/-- The reader as a library. Numbers are kept as they are written, so none is out of range. -/
def library : JsonLibrary where
  parse text := (parse? text).elim (.error .malformed) .ok
  message := utf8 "<json error>"

end ShellCompletion.Json
