import ShellCompletion.Command.Format
import ShellCompletion.Command.Regex.Posix

/-!
# Regular expressions with escapes

The extended spelling, in which a backslash also stands for single bytes, and also within a set. There
are no references to groups.
-/
namespace ShellCompletion.Regex.Escaped

/-- Why a text spells no expression. -/
inductive Flaw where
  | missingOperand
  | missingClosing
  | badSet
  | repeatedStart
deriving DecidableEq, Repr

def Flaw.message : Flaw → String
  | missingOperand => "missing operand"
  | missingClosing => "missing ')'"
  | badSet => "bad class -- [], [^] or ["
  | repeatedStart => "syntax error ^* or ^+"

abbrev Reading := StateT Bytes (Except Flaw)

/-- The byte that is spelled after a backslash, and the rest. -/
def escaped (c : UInt8) (rest : Bytes) : UInt8 × Bytes :=
  let digits := ((c :: rest).take 3).takeWhile Bytes.isOctal
  if !digits.isEmpty then
    (UInt8.ofNat (Bytes.valueIn 8 digits), (c :: rest).drop digits.length)
  else match Format.escapeOf? c with
    | some byte => (if c = 'e'.toUInt8 then c else byte, rest)
    | none => (c, rest)

/-- Reads the members of a set up to the bracket that closes it. -/
def readMembers : (fuel : Nat) → (start : Bool) → (UInt8 → Bool) → Bytes →
    Except Flaw ((UInt8 → Bool) × Bytes)
  | 0, _, _, _ => .error .badSet
  | _, _, _, [] => .error .badSet
  | fuel + 1, start, found, c :: rest =>
    if c = ']'.toUInt8 ∧ !start then .ok (found, rest)
    else if c = '['.toUInt8 ∧ rest.head? = some ':'.toUInt8 then
      match untilMark ':'.toUInt8 [] (rest.drop 1) with
      | none => readMembers fuel false (fun d => d == c || found d) rest
      | some (name, rest) =>
        match Pattern.classes.find? (utf8 ·.1 = name) with
        | none => .error .badSet
        | some (_, holds) => readMembers fuel false (fun d => holds d || found d) rest
    else
      let element (c : UInt8) (rest : Bytes) : UInt8 × Bytes :=
        match c, rest with
        | 92, d :: rest => escaped d rest
        | c, rest => (c, rest)
      let (low, rest) := element c rest
      match rest with
      | 45 :: next :: more =>
        if next = ']'.toUInt8 then readMembers fuel false (fun d => d == low || found d) rest
        else
          let (high, rest) := element next more
          let (low, high) := if high < low then (high, low) else (low, high)
          readMembers fuel false (fun d => (low ≤ d && d ≤ high) || found d) rest
      | rest => readMembers fuel false (fun d => d == low || found d) rest

def readSet (s : Bytes) : Except Flaw (Regex × Bytes) := do
  let negated := s.head? == some '^'.toUInt8
  let s := if negated then s.drop 1 else s
  let (holds, rest) ← readMembers (s.length + 1) true (fun _ => false) s
  return (.one (tabled fun c => holds c != negated), rest)

/-- The bounds of a repetition in braces, and what follows; none if it is no repetition. -/
def braces? (s : Bytes) : Option (Nat × Option Nat × Bytes) :=
  let low := s.takeWhile Bytes.isDigit
  let rest := s.drop low.length
  let least := Bytes.digitsValue low
  match rest with
  | 125 :: rest => if low.isEmpty then none else some (least, some least, rest)
  | 44 :: rest =>
    let high := rest.takeWhile Bytes.isDigit
    match rest.drop high.length with
    | 125 :: rest =>
      if low.isEmpty && high.isEmpty then none
      else some (least, if high.isEmpty then none else some (Bytes.digitsValue high), rest)
    | _ => none
  | _ => none

def repeats : (fuel : Nat) → Regex → Reading Regex
  | 0, body => return body
  | fuel + 1, body => do
    match ← get with
    | 42 :: rest => do
      set rest
      repeats fuel (.loop 0 none true body)
    | 43 :: rest => do
      set rest
      repeats fuel (.loop 1 none true body)
    | 63 :: rest => do
      set rest
      repeats fuel (.loop 0 (some 1) true body)
    | 123 :: rest =>
      match braces? rest with
      | some (least, most, rest) =>
        set rest
        repeats fuel (.loop least most true body)
      | none => return body
    | _ => return body

mutual

def alternatives : (fuel : Nat) → (depth : Nat) → Reading Regex
  | 0, _ => throw .missingClosing
  | fuel + 1, depth => do
    let first ← sequence fuel depth true .empty
    match ← get with
    | 124 :: rest =>
      set rest
      return .either first (← alternatives fuel depth)
    | _ => return first

/-- Reads what follows one another. `start` tells whether nothing has been read yet. -/
def sequence : (fuel : Nat) → (depth : Nat) → (start : Bool) → Regex → Reading Regex
  | 0, _, _, _ => throw .missingClosing
  | fuel + 1, depth, start, found => do
    let go (regex : Regex) (rest : Bytes) : Reading Regex := do
      set rest
      let regex ← repeats rest.length regex
      sequence fuel depth false (.both found regex)
    match ← get with
    | [] => return found
    | c :: rest =>
      if c = '|'.toUInt8 then return found
      else if c = ')'.toUInt8 ∧ 0 < depth then
        if start then throw .missingOperand else return found
      else if c = '('.toUInt8 then
        set rest
        let body ← alternatives fuel (depth + 1)
        match ← get with
        | 41 :: rest => go body rest
        | _ => throw .missingClosing
      else if (utf8 "*+?").contains c ∧ start then throw .missingOperand
      else if c = '['.toUInt8 then
        match readSet rest with
        | .ok (set, rest) => go set rest
        | .error flaw => throw flaw
      else if c = '.'.toUInt8 then go (.one fun _ => true) rest
      else if c = '^'.toUInt8 then
        if rest.head?.any (utf8 "*+").contains then throw .repeatedStart
        set rest
        sequence fuel depth false (.both found atStart)
      else if c = '$'.toUInt8 then
        set rest
        sequence fuel depth false (.both found atEnd)
      else match c, rest with
        | 92, d :: rest =>
          let (byte, rest) := escaped d rest
          go (.one (· == byte)) rest
        | c, rest => go (.one (· == c)) rest

end

/-- The expression that a text spells. -/
def read (text : Bytes) : Except Flaw Regex := do
  let (regex, _) ← (alternatives (3 * text.length + 3) 0).run text
  return regex

end ShellCompletion.Regex.Escaped
