import ShellCompletion.Bytes

/-!
# Patterns

A pattern stands for the names that it matches: a star for any bytes, a question mark for one byte,
and brackets for one byte of a set. A byte that was quoted stands for itself.
-/
namespace ShellCompletion

abbrev PatternByte := UInt8 × Bool

abbrev Pattern := List PatternByte

namespace Pattern

def star : PatternByte := ('*'.toUInt8, false)
def question : PatternByte := ('?'.toUInt8, false)
def opening : PatternByte := ('['.toUInt8, false)
def closing : PatternByte := (']'.toUInt8, false)
def hyphen : PatternByte := ('-'.toUInt8, false)

/-- The named classes of bytes. -/
def classes : List (String × (UInt8 → Bool)) :=
  let isGraphic (c : UInt8) : Bool := 33 ≤ c && c ≤ 126
  [("alnum", fun c => Bytes.isAlpha c || Bytes.isDigit c),
   ("alpha", Bytes.isAlpha),
   ("blank", fun c => c == 32 || c == 9),
   ("cntrl", fun c => c < 32 || c == 127),
   ("digit", Bytes.isDigit),
   ("graph", isGraphic),
   ("lower", Bytes.isLower),
   ("print", fun c => isGraphic c || c == 32),
   ("punct", fun c => isGraphic c && !Bytes.isAlpha c && !Bytes.isDigit c),
   ("space", Bytes.isSpace),
   ("upper", Bytes.isUpper),
   ("xdigit", fun c => Bytes.isDigit c || (97 ≤ Bytes.lowerByte c && Bytes.lowerByte c ≤ 102))]

/-- The class that is named after a bracket in a set, and what follows it. -/
def readClass (pattern : Pattern) : Option ((UInt8 → Bool) × Pattern) :=
  classes.findSome? fun (name, holds) =>
    let spelled := (utf8 ":" ++ utf8 name ++ utf8 ":]").map (·, false)
    if spelled.isPrefixOf pattern then some (holds, pattern.drop spelled.length) else none

/-- Looks for a byte in the set that a pattern goes on with, and gives what follows the set. A
    bracket at the start of the set does not close it. -/
def readSet (c : UInt8) : (fuel : Nat) → (start found : Bool) → Pattern → Option (Bool × Pattern)
  | 0, _, _, _ => none
  | _, _, _, [] => none
  | fuel + 1, start, found, p :: rest =>
    if p = closing ∧ !start then some (found, rest)
    else
      let single : Option (Bool × Pattern) := match rest with
        | dash :: last :: after =>
          if dash = hyphen ∧ last ≠ closing then
            readSet c fuel false (found || (p.1 ≤ c && c ≤ last.1)) after
          else readSet c fuel false (found || p.1 == c) rest
        | _ => readSet c fuel false (found || p.1 == c) rest
      if p = opening then
        match readClass rest with
        | some (holds, after) => readSet c fuel false (found || holds c) after
        | none => single
      else single

/-- Whether a byte is of the set after a bracket, and what follows the set; none if it is not
    closed. -/
def inSet? (c : UInt8) (pattern : Pattern) : Option (Bool × Pattern) :=
  let negated := pattern.head? == some ('!'.toUInt8, false)
  let set := if negated then pattern.drop 1 else pattern
  (readSet c (set.length + 1) true false set).map fun (found, rest) => (found != negated, rest)

/-- A text matches a pattern. `fuel` bounds the length of both together. -/
def isMatch : (fuel : Nat) → Pattern → Bytes → Bool
  | 0, _, _ => false
  | _, [], s => s.isEmpty
  | fuel + 1, p :: rest, s =>
    if p = star then
      isMatch fuel rest s || match s with
        | [] => false
        | _ :: s => isMatch fuel (p :: rest) s
    else match s with
      | [] => false
      | c :: s =>
        if p = question then isMatch fuel rest s
        else if p = opening then
          match inSet? c rest with
          | some (found, rest) => found && isMatch fuel rest s
          | none => c == p.1 && isMatch fuel rest s
        else c == p.1 && isMatch fuel rest s

def accepts (pattern : Pattern) (s : Bytes) : Bool := isMatch (pattern.length + s.length + 1) pattern s

/-! ## Groups -/

/-- The alternatives of a group up to its closing bracket, and what follows. -/
def alternatives : (depth : Nat) → (current : Pattern) → (done : List Pattern) → Pattern →
    Option (List Pattern × Pattern)
  | _, _, _, [] => none
  | depth, current, done, p :: rest =>
    if p = ('('.toUInt8, false) then alternatives (depth + 1) (p :: current) done rest
    else if p = (')'.toUInt8, false) then
      match depth with
      | 0 => some ((current.reverse :: done).reverse, rest)
      | depth + 1 => alternatives depth (p :: current) done rest
    else if p = ('|'.toUInt8, false) ∧ depth = 0 then
      alternatives depth [] (current.reverse :: done) rest
    else alternatives depth (p :: current) done rest

/-- The sign of the group that a pattern starts with, its alternatives, and what follows. -/
def group? : Pattern → Option (UInt8 × List Pattern × Pattern)
  | (sign, false) :: (40, false) :: rest =>
    if (utf8 "?*+@!").contains sign then
      (alternatives 0 [] [] rest).map fun (found, rest) => (sign, found, rest)
    else none
  | _ => none

/-- A text matches a pattern with groups: of alternatives that are there at most once, or any number of
    times, or at least once, or once, or that are not what is there. -/
def isGroupMatch : (fuel : Nat) → Pattern → Bytes → Bool
  | 0, _, _ => false
  | _, [], s => s.isEmpty
  | fuel + 1, p :: rest, s =>
    match group? (p :: rest) with
    | some (sign, found, after) =>
      let isOne (text : Bytes) : Bool := found.any fun pattern => isGroupMatch fuel pattern text
      let places := List.range (s.length + 1)
      let once (next : Bytes → Bool) : Bool :=
        places.any fun place => isOne (s.take place) && next (s.drop place)
      let is (c : Char) : Bool := sign == c.toUInt8
      if is '@' then once (isGroupMatch fuel after)
      else if is '?' then isGroupMatch fuel after s || once (isGroupMatch fuel after)
      else if is '!' then
        places.any fun place => !isOne (s.take place) && isGroupMatch fuel after (s.drop place)
      else
        let again : Pattern := ('*'.toUInt8, false) :: rest
        let more := places.any fun place =>
          0 < place && isOne (s.take place) && isGroupMatch fuel again (s.drop place)
        (if is '+' then isOne [] && isGroupMatch fuel after s else isGroupMatch fuel after s) || more
    | none =>
      if p = star then
        isGroupMatch fuel rest s || match s with
          | [] => false
          | _ :: s => isGroupMatch fuel (p :: rest) s
      else match s with
        | [] => false
        | c :: s =>
          if p = question then isGroupMatch fuel rest s
          else if p = opening then
            match inSet? c rest with
            | some (found, rest) => found && isGroupMatch fuel rest s
            | none => c == p.1 && isGroupMatch fuel rest s
          else c == p.1 && isGroupMatch fuel rest s

def hasGroup : Pattern → Bool
  | [] => false
  | p :: rest => (group? (p :: rest)).isSome || hasGroup rest

def acceptsWithGroups (pattern : Pattern) (s : Bytes) : Bool :=
  if hasGroup pattern then isGroupMatch (2 * (pattern.length + s.length) + 2) pattern s
  else accepts pattern s

/-- The pattern where a caret at the start of a set negates it as well. -/
def withCarets : Pattern → Pattern
  | (91, false) :: (94, false) :: rest => opening :: ('!'.toUInt8, false) :: withCarets rest
  | p :: rest => p :: withCarets rest
  | [] => []

/-- The pattern may match something else than its own text. -/
def isOpen (pattern : Pattern) : Bool := pattern.any fun p => p = star || p = question || p = opening

/-- The pattern that a text spells: a backslash quotes the next byte, and a set may also be negated by
    a caret. -/
def ofText : Bytes → Pattern
  | 92 :: c :: rest => (c, true) :: ofText rest
  | 91 :: 94 :: rest => opening :: ('!'.toUInt8, false) :: ofText rest
  | c :: rest => (c, false) :: ofText rest
  | [] => []

def text (pattern : Pattern) : Bytes := pattern.map Prod.fst

end Pattern

end ShellCompletion
