import ShellCompletion.Command.Regex.Posix

/-!
# Regular expressions as Perl spells them

Here repetitions may also prefer less or give nothing back, groups may have names or none, and parts may
only look at what is ahead or behind.
-/
namespace ShellCompletion.Regex.Perl

/-- How an expression is meant. -/
structure Flags where
  ignoreCase : Bool := false
  /-- A text has lines, each with a start and an end. -/
  lines : Bool := false
  /-- A dot stands for line feeds as well. -/
  dotAll : Bool := false
  /-- Blanks and comments do not count; in sets, if it is two. -/
  spaced : Bool := false
  /-- Brackets group only if they have a name. -/
  namedOnly : Bool := false
deriving DecidableEq, Repr

def Flags.set (flags : Flags) (letter : UInt8) (on : Bool) : Option Flags :=
  let is (c : Char) : Bool := c.toUInt8 == letter
  if is 'i' then some { flags with ignoreCase := on }
  else if is 'm' then some { flags with lines := on }
  else if is 's' then some { flags with dotAll := on }
  else if is 'x' then some { flags with spaced := on }
  else if is 'n' then some { flags with namedOnly := on }
  else if (utf8 "adlupgcor").contains letter then some flags
  else none

/-- An expression with its groups. -/
structure Expression where
  regex : Regex
  groups : Nat
  names : List (Bytes × Nat)

/-- The part of an expression that is left, and the groups so far. -/
structure Source where
  rest : Bytes
  opened : Nat := 0
  names : List (Bytes × Nat) := []

abbrev Reading := StateT Source (Except Bytes)

def fault {α : Type} (text : String) : Reading α := fun _ => .error (utf8 text)

def rest : Reading Bytes := do return (← get).rest

def goOn (rest : Bytes) : Reading Unit := modify ({ · with rest })

def both (first second : Regex) : Regex :=
  match first with
  | .empty => second
  | first => .both first second

/-! ## Single bytes -/

def isBlank (c : UInt8) : Bool := c == 32 || c == 9

def isBreak (c : UInt8) : Bool := 10 ≤ c && c ≤ 13

/-- The class of bytes that a letter after a backslash stands for. -/
def class? (c : UInt8) : Option (UInt8 → Bool) :=
  let is (letter : Char) : Bool := letter.toUInt8 == c
  if is 'd' then some Bytes.isDigit
  else if is 'D' then some (!Bytes.isDigit ·)
  else if is 'w' then some isWordByte
  else if is 'W' then some (!isWordByte ·)
  else if is 's' then some Bytes.isSpace
  else if is 'S' then some (!Bytes.isSpace ·)
  else if is 'h' then some isBlank
  else if is 'H' then some (!isBlank ·)
  else if is 'v' then some isBreak
  else if is 'V' then some (!isBreak ·)
  else if is 'N' then some (· != 10)
  else none

/-- The byte that a letter after a backslash stands for, and what follows. -/
def byte? (c : UInt8) (rest : Bytes) : Option (UInt8 × Bytes) :=
  let is (letter : Char) : Bool := letter.toUInt8 == c
  if is 'n' then some (10, rest)
  else if is 't' then some (9, rest)
  else if is 'r' then some (13, rest)
  else if is 'f' then some (12, rest)
  else if is 'e' then some (27, rest)
  else if is 'a' then some (7, rest)
  else if is 'c' then rest.head?.map fun d => (Bytes.upperByte d ^^^ 64, rest.drop 1)
  else if is 'x' then
    match rest with
    | 123 :: rest =>
      let digits := rest.takeWhile (· != 125)
      some (UInt8.ofNat (Bytes.valueIn 16 (digits.filter Bytes.isHex)), rest.drop (digits.length + 1))
    | rest =>
      let digits := (rest.take 2).takeWhile Bytes.isHex
      some (UInt8.ofNat (Bytes.valueIn 16 digits), rest.drop digits.length)
  else if is 'o' ∧ rest.head? = some 123 then
    let digits := (rest.drop 1).takeWhile (· != 125)
    some (UInt8.ofNat (Bytes.valueIn 8 digits), rest.drop (digits.length + 2))
  else if is '0' then
    let digits := (rest.take 2).takeWhile Bytes.isOctal
    some (UInt8.ofNat (Bytes.valueIn 8 digits), rest.drop digits.length)
  else none

def property? (wanted : Bool) (s : Bytes) : Option ((UInt8 → Bool) × Bytes) :=
  let (name, rest) := match s with
    | 123 :: s => (s.takeWhile (· != 125), (s.dropWhile (· != 125)).drop 1)
    | s => (s.take 1, s.drop 1)
  let negated := name.head? == some '^'.toUInt8
  let name := if negated then name.drop 1 else name
  let is (names : List String) : Bool := names.any (utf8 · == name)
  let holds : Option (UInt8 → Bool) :=
    if is ["L", "Letter", "Alpha", "Alphabetic", "PosixAlpha"] then some Bytes.isAlpha
    else if is ["Lu", "Upper", "Uppercase", "PosixUpper"] then some Bytes.isUpper
    else if is ["Ll", "Lower", "Lowercase", "PosixLower"] then some Bytes.isLower
    else if is ["N", "Nd", "Digit", "PosixDigit"] then some Bytes.isDigit
    else if is ["Z", "Zs", "Space", "SpacePerl", "White_Space", "PosixSpace"] then some Bytes.isSpace
    else if is ["P", "Punct", "PosixPunct"] then
      some fun c => (33 ≤ c && c ≤ 126) && !Bytes.isAlpha c && !Bytes.isDigit c
    else if is ["Alnum", "PosixAlnum"] then some fun c => Bytes.isAlpha c || Bytes.isDigit c
    else if is ["Word", "W", "PosixWord"] then some isWordByte
    else if is ["ASCII"] then some (· < 128)
    else none
  holds.map fun holds => (fun c => (holds c == wanted) != negated, rest)

/-! ## Sets -/

/-- Reads one member of a set: a class, or a byte that may start a range. -/
def readMember (s : Bytes) : Except Bytes ((UInt8 ⊕ (UInt8 → Bool)) × Bytes) :=
  match s with
  | [] => .error (utf8 "Unmatched [ in regex")
  | 91 :: 58 :: rest =>
    match untilMark ':'.toUInt8 [] rest with
    | none => .ok (.inl 91, 58 :: rest)
    | some (name, after) =>
      let negated := name.head? == some '^'.toUInt8
      let name := if negated then name.drop 1 else name
      match (if name == utf8 "word" then some isWordByte
          else (Pattern.classes.find? (utf8 ·.1 = name)).map Prod.snd) with
      | some holds => .ok (.inr fun c => holds c != negated, after)
      | none => .error (utf8 "POSIX class [:" ++ name ++ utf8 ":] unknown in regex")
  | 92 :: c :: rest =>
    match class? c, byte? c rest with
    | some holds, _ => .ok (.inr holds, rest)
    | none, some (byte, rest) => .ok (.inl byte, rest)
    | none, none =>
      if c = 'b'.toUInt8 then .ok (.inl 8, rest)
      else if c = 'p'.toUInt8 ∨ c = 'P'.toUInt8 then
        match property? (c == 'p'.toUInt8) rest with
        | some (holds, rest) => .ok (.inr holds, rest)
        | none => .error (utf8 "Can't find Unicode property definition")
      else if Bytes.isOctal c then
        let digits := ((c :: rest).take 3).takeWhile Bytes.isOctal
        .ok (.inl (UInt8.ofNat (Bytes.valueIn 8 digits)), (c :: rest).drop digits.length)
      else .ok (.inl c, rest)
  | c :: rest => .ok (.inl c, rest)

/-- Reads the members of a set up to the bracket that closes it. -/
def readMembers : (fuel : Nat) → (start : Bool) → (UInt8 → Bool) → Bytes →
    Except Bytes ((UInt8 → Bool) × Bytes)
  | 0, _, _, _ => .error (utf8 "Unmatched [ in regex")
  | fuel + 1, start, found, s => do
    match s with
    | [] => .error (utf8 "Unmatched [ in regex")
    | c :: rest =>
      if c = ']'.toUInt8 ∧ !start then return (found, rest)
      let (member, rest) ← readMember s
      match member with
      | .inr holds => readMembers fuel false (fun d => holds d || found d) rest
      | .inl low =>
        match rest with
        | 45 :: next :: more =>
          if next = ']'.toUInt8 then readMembers fuel false (fun d => d == low || found d) rest
          else
            match ← readMember (next :: more) with
            | (.inl high, rest) =>
              if high < low then .error (utf8 "Invalid [] range in regex")
              else readMembers fuel false (fun d => (low ≤ d && d ≤ high) || found d) rest
            | (.inr holds, rest) =>
              readMembers fuel false (fun d => holds d || d == low || d == 45 || found d) rest
        | rest => readMembers fuel false (fun d => d == low || found d) rest

def readSet (ignoreCase : Bool) (s : Bytes) : Except Bytes (Regex × Bytes) := do
  let negated := s.head? == some '^'.toUInt8
  let s := if negated then s.drop 1 else s
  let (holds, rest) ← readMembers (s.length + 1) true (fun _ => false) s
  let folded (c : UInt8) : Bool :=
    if ignoreCase then holds (Bytes.lowerByte c) || holds (Bytes.upperByte c) else holds c
  return (.one (tabled fun c => folded c != negated), rest)

/-! ## Repetitions -/

/-- The repetition in braces that a text starts with. -/
def braces? (s : Bytes) : Option (Nat × Option Nat × Bytes) :=
  let s := s.dropWhile isBlank
  let low := s.takeWhile Bytes.isDigit
  let after := (s.drop low.length).dropWhile isBlank
  match after with
  | 125 :: rest =>
    if low.isEmpty then none else some (Bytes.digitsValue low, some (Bytes.digitsValue low), rest)
  | 44 :: rest =>
    let rest := rest.dropWhile isBlank
    let high := rest.takeWhile Bytes.isDigit
    match (rest.drop high.length).dropWhile isBlank with
    | 125 :: rest =>
      if low.isEmpty && high.isEmpty then none
      else some (Bytes.digitsValue low, if high.isEmpty then none else some (Bytes.digitsValue high), rest)
    | _ => none
  | _ => none

/-- The text without the blanks and comments at its start. -/
def skipSpace : (fuel : Nat) → Bytes → Bytes
  | 0, s => s
  | fuel + 1, s =>
    match s with
    | c :: rest =>
      if Bytes.isSpace c then skipSpace fuel rest
      else if c = '#'.toUInt8 then skipSpace fuel ((rest.dropWhile (· != 10)).drop 1)
      else s
    | [] => []

def repeats (flags : Flags) (body : Regex) : Reading Regex := do
  let left ← rest
  let left := if flags.spaced then skipSpace left.length left else left
  let found : Option (Nat × Option Nat × Bytes) := match left with
    | 42 :: after => some (0, none, after)
    | 43 :: after => some (1, none, after)
    | 63 :: after => some (0, some 1, after)
    | 123 :: after => braces? after
    | _ => none
  match found with
  | none => return body
  | some (least, most, after) =>
    if most.any (· < least) then
      goOn after
      return .one fun _ => false
    match after with
    | 63 :: after =>
      goOn after
      return .loop least most false body
    | 43 :: after =>
      goOn after
      return .atomic (.loop least most true body)
    | after =>
      goOn after
      return .loop least most true body

def groupName (ending : UInt8) : Reading Bytes := do
  let left ← rest
  let name := left.takeWhile isWordByte
  match left.drop name.length with
  | c :: after =>
    if c ≠ ending ∨ name.isEmpty then fault "Sequence (?<... not terminated in regex"
    goOn after
    return name
  | [] => fault "Sequence (?<... not terminated in regex"

def lineEnd (lines : Bool) : Regex := .edge fun text place =>
  place == text.size || (text[place]? == some 10 && (lines || place + 1 == text.size))

def lineStart (lines : Bool) : Regex := .edge fun text place =>
  place == 0 || (lines && text[place - 1]? == some 10 && place < text.size)

def reference (flags : Flags) (name : Bytes) : Reading Regex := do
  let source ← get
  if Bytes.allDigits name then return .again (Bytes.digitsValue name) flags.ignoreCase
  else if name.head? = some '-'.toUInt8 then
    return .again (source.opened + 1 - Bytes.digitsValue (name.drop 1)) flags.ignoreCase
  else match source.names.lookup name with
    | some number => return .again number flags.ignoreCase
    | none => fault "Reference to nonexistent named group in regex"

/-- Reads what stands in brackets of some kind, and goes on after it. -/
def bracketed (s : Bytes) : Option (Bytes × Bytes) :=
  match s with
  | 123 :: rest => some (rest.takeWhile (· != 125), (rest.dropWhile (· != 125)).drop 1)
  | 60 :: rest => some (rest.takeWhile (· != 62), (rest.dropWhile (· != 62)).drop 1)
  | 39 :: rest => some (rest.takeWhile (· != 39), (rest.dropWhile (· != 39)).drop 1)
  | _ => none

/-- Reads what a backslash starts. -/
def escape (flags : Flags) (c : UInt8) (after : Bytes) : Reading Regex := do
  let is (letter : Char) : Bool := letter.toUInt8 == c
  goOn after
  if is 'A' then return atStart
  else if is 'z' then return atEnd
  else if is 'Z' then return lineEnd false
  else if is 'b' then return atWord true true
  else if is 'B' then return notAtWord
  else if is 'K' then return .restart
  else if is 'G' then return .empty
  else if is 'R' then
    return .either (.both (.one (· == 13)) (.one (· == 10))) (.one isBreak)
  else if is 'Q' then
    let text := (List.range (after.length + 1)).find? fun k => (utf8 "\\E").isPrefixOf (after.drop k)
    let length := text.getD after.length
    goOn (after.drop (length + 2))
    return plain flags.ignoreCase (after.take length)
  else if is 'E' then return .empty
  else if is 'k' then
    match bracketed after with
    | some (name, after) =>
      goOn after
      reference flags name
    | none => fault "Sequence \\k... not terminated in regex"
  else if is 'g' then
    match bracketed after with
    | some (name, after) =>
      goOn after
      reference flags name
    | none =>
      let digits := after.takeWhile fun c => Bytes.isDigit c || c == '-'.toUInt8
      goOn (after.drop digits.length)
      reference flags digits
  else match class? c with
    | some holds => return .one (tabled holds)
    | none =>
      if is 'p' || is 'P' then
        match property? (is 'p') after with
        | some (holds, after) =>
          goOn after
          return .one (tabled holds)
        | none => fault "Can't find Unicode property definition"
      else match byte? c after with
        | some (byte, after) =>
          goOn after
          return literal flags.ignoreCase byte
        | none =>
          if Bytes.isDigit c then
            let digits := (c :: after).takeWhile Bytes.isDigit
            let number := Bytes.digitsValue digits
            if number < 10 ∨ number ≤ (← get).opened then
              goOn ((c :: after).drop digits.length)
              return .again number flags.ignoreCase
            else
              let digits := ((c :: after).take 3).takeWhile Bytes.isOctal
              goOn ((c :: after).drop digits.length)
              return literal flags.ignoreCase (UInt8.ofNat (Bytes.valueIn 8 digits))
          else return literal flags.ignoreCase c

/-- Reads letters of flags; those after a minus sign are turned off. -/
def readFlags : Bytes → (on : Bool) → Flags → Option (Flags × Bytes)
  | [], _, _ => none
  | c :: rest, on, flags =>
    if c = '-'.toUInt8 then readFlags rest false flags
    else if c = '^'.toUInt8 then readFlags rest on {}
    else if c = ':'.toUInt8 ∨ c = ')'.toUInt8 then some (flags, c :: rest)
    else (flags.set c on).bind fun flags => readFlags rest on flags

mutual

def alternatives : (fuel : Nat) → Flags → Reading Regex
  | 0, _ => fault "Regexp too big"
  | fuel + 1, flags => do
    let (first, flags) ← sequence fuel flags .empty
    match ← rest with
    | 124 :: after =>
      goOn after
      return .either first (← alternatives fuel flags)
    | _ => return first

def sequence : (fuel : Nat) → Flags → Regex → Reading (Regex × Flags)
  | 0, _, _ => fault "Regexp too big"
  | fuel + 1, flags, found => do
    let left ← rest
    let left := if flags.spaced then skipSpace left.length left else left
    goOn left
    let go (regex : Regex) : Reading (Regex × Flags) := do
      let regex ← repeats flags regex
      sequence fuel flags (both found regex)
    match left with
    | [] => return (found, flags)
    | c :: after =>
      let is (letter : Char) : Bool := letter.toUInt8 == c
      if is '|' || is ')' then return (found, flags)
      else if is '(' then
        match ← group fuel flags after with
        | .inl flags => sequence fuel flags found
        | .inr regex => go regex
      else if is '[' then
        let (set, after) ← readSet flags.ignoreCase after
        goOn after
        go set
      else if is '.' then
        goOn after
        go (.one fun c => flags.dotAll || c != 10)
      else if is '^' then
        goOn after
        go (lineStart flags.lines)
      else if is '$' then
        goOn after
        go (lineEnd flags.lines)
      else if is '*' || is '+' || is '?' then fault "Quantifier follows nothing in regex"
      else if c = 92 then
        match after with
        | [] => fault "Trailing \\ in regex"
        | d :: after => go (← escape flags d after)
      else
        goOn after
        go (literal flags.ignoreCase c)

/-- Reads what follows the bracket that opens a group: new flags, or what the group matches. -/
def group : (fuel : Nat) → Flags → Bytes → Reading (Flags ⊕ Regex)
  | 0, _, _ => fault "Regexp too big"
  | fuel + 1, flags, s => do
    let body (flags : Flags) (start : Bytes) : Reading Regex := do
      goOn start
      let regex ← alternatives fuel flags
      match ← rest with
      | 41 :: after =>
        goOn after
        return regex
      | _ => fault "Unmatched ( in regex"
    let capture (name : Option Bytes) (start : Bytes) : Reading (Flags ⊕ Regex) := do
      let number := (← get).opened + 1
      modify fun source =>
        let names := match name with
          | some name => source.names ++ [(name, number)]
          | none => source.names
        { source with opened := number, names }
      return .inr (.group number (← body flags start))
    let named (ending : UInt8) (start : Bytes) : Reading (Flags ⊕ Regex) := do
      goOn start
      let name ← groupName ending
      capture (some name) (← rest)
    match s with
    | 63 :: 35 :: after =>
      goOn ((after.dropWhile (· != 41)).drop 1)
      return .inr .empty
    | 63 :: 61 :: after => return .inr (.look true true (← body flags after))
    | 63 :: 33 :: after => return .inr (.look true false (← body flags after))
    | 63 :: 60 :: 61 :: after => return .inr (.look false true (← body flags after))
    | 63 :: 60 :: 33 :: after => return .inr (.look false false (← body flags after))
    | 63 :: 62 :: after => return .inr (.atomic (← body flags after))
    | 63 :: 124 :: after => return .inr (← body flags after)
    | 63 :: 60 :: after => named 62 after
    | 63 :: 80 :: 60 :: after => named 62 after
    | 63 :: 39 :: after => named 39 after
    | 63 :: 80 :: 61 :: after =>
      let name := after.takeWhile isWordByte
      goOn (after.drop (name.length + 1))
      return .inr (← reference flags name)
    | 63 :: after =>
      match readFlags after true flags with
      | some (flags, 58 :: after) => return .inr (← body flags after)
      | some (flags, _ :: after) =>
        goOn after
        return .inl flags
      | _ => fault "Sequence (?... not recognized in regex"
    | s => if flags.namedOnly then return .inr (← body flags s) else capture none s

end

def read (flags : Flags) (text : Bytes) : Except Bytes Expression := do
  let (regex, source) ← (alternatives (4 * text.length + 4) flags).run { rest := text }
  if source.rest.isEmpty then return ⟨regex, source.opened, source.names⟩
  else throw (utf8 "Unmatched ) in regex")

end ShellCompletion.Regex.Perl
