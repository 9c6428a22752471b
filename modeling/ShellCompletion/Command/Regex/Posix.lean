import ShellCompletion.Command.Pattern
import ShellCompletion.Command.Regex.Basic

/-!
# Regular expressions as POSIX spells them

There are two spellings. In the extended one, brackets, bars, braces and the signs for repetition have
a meaning as they stand; in the basic one, after a backslash.
-/
namespace ShellCompletion.Regex

/-- How expressions are spelled and compared. -/
structure Spelling where
  extended : Bool := false
  ignoreCase : Bool := false
  /-- Lines have starts and ends within a text. -/
  lines : Bool := false
  /-- A sign for repetition with nothing before it is passed over, and a bracket that closes nothing
      stands for itself. -/
  lenient : Bool := false

/-- Why a text spells no expression. -/
inductive Fault where
  | unclosedSet
  | unclosedGroup
  | unopenedGroup
  | unclosedBraces
  | badBraces
  | nothingToRepeat
  | badReference
  | badRange
  | badClass
  | badElement
  | classOutside
  | loneBackslash
deriving DecidableEq, Repr

namespace Fault

def message : Fault → String
  | unclosedSet => "Unmatched [, [^, [:, [., or [="
  | unclosedGroup => "Unmatched ( or \\("
  | unopenedGroup => "Unmatched ) or \\)"
  | unclosedBraces => "Unmatched \\\x7b"
  | badBraces => "Invalid content of \\\x7b\\\x7d"
  | nothingToRepeat => "Invalid preceding regular expression"
  | badReference => "Invalid back reference"
  | badRange => "Invalid range end"
  | badClass => "Invalid character class name"
  | badElement => "Invalid collation character"
  | classOutside => "character class syntax is [[:space:]], not [:space:]"
  | loneBackslash => "Trailing backslash"

end Fault

/-! ## Sets -/

/-- The text up to a mark and a closing bracket, and what follows. -/
def untilMark (mark : UInt8) : Bytes → Bytes → Option (Bytes × Bytes)
  | _, [] => none
  | found, c :: rest =>
    if c = mark ∧ rest.head? = some ']'.toUInt8 then some (found.reverse, rest.drop 1)
    else untilMark mark (c :: found) rest

def elementNames : List (String × Char) :=
  [("space", ' '), ("hyphen", '-'), ("hyphen-minus", '-'), ("period", '.'), ("full-stop", '.'),
   ("slash", '/'), ("tab", '\t'), ("newline", '\n'), ("comma", ','), ("colon", ':')]

/-- A single byte of a set, by itself or by its name. -/
def element? (name : Bytes) : Option UInt8 :=
  match name with
  | [c] => some c
  | name => (elementNames.find? (utf8 ·.1 = name)).map (·.2.toUInt8)

/-- Reads one end of a range of a set. -/
def readElement (s : Bytes) : Except Fault (UInt8 × Bytes) :=
  match s with
  | [] => .error .unclosedSet
  | 91 :: 46 :: rest =>
    match untilMark 46 [] rest with
    | none => .error .unclosedSet
    | some (name, rest) =>
      match element? name with
      | some c => .ok (c, rest)
      | none => .error .badElement
  | c :: rest => .ok (c, rest)

/-- Reads the members of a set up to the bracket that closes it. -/
def readMembers : (fuel : Nat) → (start : Bool) → (UInt8 → Bool) → Bytes →
    Except Fault ((UInt8 → Bool) × Bytes)
  | 0, _, _, _ => .error .unclosedSet
  | _, _, _, [] => .error .unclosedSet
  | fuel + 1, start, found, c :: rest =>
    if c = ']'.toUInt8 ∧ !start then .ok (found, rest)
    else if c = '['.toUInt8 ∧ rest.head? = some ':'.toUInt8 then
      match untilMark ':'.toUInt8 [] (rest.drop 1) with
      | none => .error .unclosedSet
      | some (name, rest) =>
        match Pattern.classes.find? (utf8 ·.1 = name) with
        | none => .error .badClass
        | some (_, holds) => readMembers fuel false (fun d => holds d || found d) rest
    else if c = '['.toUInt8 ∧ rest.head? = some '='.toUInt8 then
      match untilMark '='.toUInt8 [] (rest.drop 1) with
      | none => .error .unclosedSet
      | some (name, rest) =>
        match element? name with
        | none => .error .badElement
        | some e => readMembers fuel false (fun d => d == e || found d) rest
    else do
      let (low, rest) ← readElement (c :: rest)
      match rest with
      | 45 :: next :: more =>
        if next = ']'.toUInt8 then readMembers fuel false (fun d => d == low || found d) rest
        else
          let (high, rest) ← readElement (next :: more)
          if high < low then .error .badRange
          else readMembers fuel false (fun d => (low ≤ d && d ≤ high) || found d) rest
      | rest => readMembers fuel false (fun d => d == low || found d) rest

/-- The predicate as a table, so that it is quick. -/
def tabled (holds : UInt8 → Bool) : UInt8 → Bool :=
  let table := ((List.range 256).map fun k => holds (UInt8.ofNat k)).toArray
  fun c => table[c.toNat]?.getD false

def readSet (ignoreCase : Bool) (s : Bytes) : Except Fault (Regex × Bytes) := do
  let negated := s.head? == some '^'.toUInt8
  let s := if negated then s.drop 1 else s
  let (holds, rest) ← readMembers (s.length + 1) true (fun _ => false) s
  let consumed := s.take (s.length - rest.length)
  if consumed.head? = some ':'.toUInt8 ∧ (utf8 ":]").isSuffixOf consumed ∧ 2 < consumed.length ∧ !negated then
    throw .classOutside
  let folded (c : UInt8) : Bool :=
    if ignoreCase then holds (Bytes.lowerByte c) || holds (Bytes.upperByte c) else holds c
  return (.one (tabled fun c => folded c != negated), rest)

/-! ## Reading -/

/-- The part of an expression that is left, and the groups so far: how many were opened, and which of
    them have been closed. -/
structure Source where
  rest : Bytes
  opened : Nat := 0
  closed : List Nat := []

abbrev Reading := StateT Source (Except Fault)

/-- What a sign of structure means. -/
inductive Sign where
  | opening
  | closing
  | bar
  | star
  | plus
  | question
  | braces
deriving DecidableEq

def signs : List (Char × Sign) :=
  [('(', .opening), (')', .closing), ('|', .bar), ('+', .plus), ('?', .question), ('\x7b', .braces)]

/-- The sign of structure that a text starts with, and what follows it. -/
def sign? (extended : Bool) (s : Bytes) : Option (Sign × Bytes) :=
  match s with
  | 42 :: rest => some (.star, rest)
  | 92 :: c :: rest =>
    if extended then none
    else (signs.find? (·.1.toUInt8 == c)).map fun entry => (entry.2, rest)
  | c :: rest =>
    if extended then (signs.find? (·.1.toUInt8 == c)).map fun entry => (entry.2, rest) else none
  | [] => none

/-- What a letter after a backslash matches. -/
def escape? (c : UInt8) : Option Regex :=
  let is (letter : Char) : Bool := letter.toUInt8 == c
  if is 'w' then some (.one isWordByte)
  else if is 'W' then some (.one (!isWordByte ·))
  else if is 's' then some (.one Bytes.isSpace)
  else if is 'S' then some (.one (!Bytes.isSpace ·))
  else if is '<' then some (atWord true false)
  else if is '>' then some (atWord false true)
  else if is 'b' then some (atWord true true)
  else if is 'B' then some notAtWord
  else if c = 96 then some atStart
  else if c = 39 then some atEnd
  else none

/-- The largest number of repetitions. -/
def maxRepeats : Nat := 32767

def readBraces (extended : Bool) (s : Bytes) : Except Fault (Nat × Option Nat × Bytes) := do
  let low := s.takeWhile Bytes.isDigit
  let rest := s.drop low.length
  let comma := rest.head? == some ','.toUInt8
  let high := if comma then (rest.drop 1).takeWhile Bytes.isDigit else []
  let rest := if comma then rest.drop (1 + high.length) else rest
  let closing : Bytes := if extended then [125] else [92, 125]
  if rest.isEmpty then throw .unclosedBraces
  else if !closing.isPrefixOf rest ∨ (low.isEmpty && !comma) then throw .badBraces
  else
    let least := Bytes.digitsValue low
    let most := if !comma then some least else if high.isEmpty then none
      else some (Bytes.digitsValue high)
    if most.any (· < least) ∨ maxRepeats < max least (most.getD 0) then throw .badBraces
    return (least, most, rest.drop closing.length)

def lineStart (lines : Bool) : Regex :=
  if lines then .edge fun text place => place == 0 || text[place - 1]? == some 10 else atStart

def lineEnd (lines : Bool) : Regex :=
  if lines then .edge fun text place => place == text.size || text[place]? == some 10 else atEnd

/-- Takes what is left. -/
def rest : Reading Bytes := do return (← get).rest

def goOn (rest : Bytes) : Reading Unit := modify ({ · with rest })

def repeats (spelling : Spelling) : (fuel : Nat) → Regex → Reading Regex
  | 0, body => return body
  | fuel + 1, body => do
    match sign? spelling.extended (← rest) with
    | some (.star, after) =>
      goOn after
      repeats spelling fuel (.loop 0 none true body)
    | some (.plus, after) =>
      goOn after
      repeats spelling fuel (.loop 1 none true body)
    | some (.question, after) =>
      goOn after
      repeats spelling fuel (.loop 0 (some 1) true body)
    | some (.braces, after) =>
      match readBraces spelling.extended after with
      | .ok (least, most, after) =>
        goOn after
        repeats spelling fuel (.loop least most true body)
      | .error fault =>
        let isPlain := spelling.lenient && spelling.extended &&
          !(after.takeWhile fun c => Bytes.isDigit c || c == ','.toUInt8).contains ','.toUInt8
        if isPlain then
          goOn after
          return .both body (literal false 123)
        else throw fault
    | _ => return body

mutual

def alternatives (spelling : Spelling) : (fuel : Nat) → (inGroup : Bool) → Reading Regex
  | 0, _ => throw .unclosedGroup
  | fuel + 1, inGroup => do
    let first ← sequence spelling fuel inGroup true .empty
    match sign? spelling.extended (← rest) with
    | some (.bar, after) =>
      goOn after
      return .either first (← alternatives spelling fuel inGroup)
    | _ => return first

/-- Reads what follows one another. `start` tells whether nothing has been read yet. -/
def sequence (spelling : Spelling) : (fuel : Nat) → (inGroup start : Bool) → Regex → Reading Regex
  | 0, _, _, _ => throw .unclosedGroup
  | fuel + 1, inGroup, start, found => do
    let go (regex : Regex) : Reading Regex := do
      let regex ← repeats spelling fuel regex
      sequence spelling fuel inGroup false (.both found regex)
    let left ← rest
    match sign? spelling.extended left with
    | some (.bar, _) => return found
    | some (.closing, after) =>
      if inGroup then return found
      else if spelling.lenient && spelling.extended then
        goOn after
        go (literal false ')'.toUInt8)
      else throw .unopenedGroup
    | some (.opening, after) =>
      let number := (← get).opened + 1
      modify ({ · with rest := after, opened := number })
      let body ← alternatives spelling fuel true
      match sign? spelling.extended (← rest) with
      | some (.closing, after) =>
        modify fun source => { source with rest := after, closed := number :: source.closed }
        go (.group number body)
      | _ => throw .unclosedGroup
    | some (.star, after) =>
      if spelling.extended then
        if !spelling.lenient then throw .nothingToRepeat
        goOn after
        sequence spelling fuel inGroup start found
      else
        goOn after
        go (literal false '*'.toUInt8)
    | some (sign, after) =>
      if spelling.lenient || (!spelling.extended && sign != .braces) then
        goOn after
        if spelling.extended then sequence spelling fuel inGroup start found
        else go (literal false (left.getD 1 0))
      else throw .nothingToRepeat
    | none =>
      match left with
      | [] => return found
      | c :: after =>
        goOn after
        let isLast : Bool := after.isEmpty || match sign? spelling.extended after with
          | some (.bar, _) => true
          | some (.closing, _) => inGroup
          | _ => false
        if c = '['.toUInt8 then
          let (set, after) ← readSet spelling.ignoreCase after
          goOn after
          go set
        else if c = '.'.toUInt8 then go (.one fun _ => true)
        else if c = '^'.toUInt8 ∧ (start ∨ spelling.extended) then
          sequence spelling fuel inGroup start (.both found (lineStart spelling.lines))
        else if c = '$'.toUInt8 ∧ (isLast ∨ spelling.extended) then
          let ending := lineEnd spelling.lines
          if spelling.extended then go ending
          else sequence spelling fuel inGroup false (.both found ending)
        else if c = 92 then
          match after with
          | [] => throw .loneBackslash
          | d :: after =>
            goOn after
            if Bytes.isDigit d && d != '0'.toUInt8 then
              let number := d.toNat - 48
              if !(← get).closed.contains number then throw .badReference
              go (.again number spelling.ignoreCase)
            else match escape? d with
              | some regex => go regex
              | none => go (literal spelling.ignoreCase d)
        else go (literal spelling.ignoreCase c)

end

def read (spelling : Spelling) (text : Bytes) : Except Fault Regex := do
  let (regex, source) ← (alternatives spelling (3 * text.length + 3) false).run { rest := text }
  if source.rest.isEmpty then return regex else throw .unopenedGroup

end ShellCompletion.Regex
