import ShellCompletion.Command.Script.Reader
import ShellCompletion.Command.Shell.Expansion
import ShellCompletion.Command.Shell.Quoted

/-!
# Changes of values

What the extended language makes of the value of a parameter: parts of it, the value with other texts in
the stead of some, or with letters in another case.
-/
namespace ShellCompletion.Values

/-! ## Parts -/

def cut (accepts : Bytes → Bool) (atEnd longest : Bool) (text : Bytes) : Bytes :=
  let places := List.range (text.length + 1)
  let places := if atEnd == longest then places else places.reverse
  let isCut (place : Nat) : Bool := accepts (if atEnd then text.drop place else text.take place)
  match places.find? isCut with
  | none => text
  | some place => if atEnd then text.take place else text.drop place

/-- The part of something of some size that starts at a place and has some length; a negative place
    counts from the end, and a negative length tells how far from the end the part ends. None if it
    would end before it starts. -/
def span? (size : Nat) (start : Int) (length : Option Int) : Option (Nat × Nat) :=
  let first := if start < 0 then start + size else start
  if first < 0 ∨ size < first then some (0, 0)
  else match length with
    | none => some (first.toNat, size - first.toNat)
    | some length =>
      let last := if length < 0 then length + size else first + length
      if last < first then none else some (first.toNat, (last - first).toNat)

/-! ## Other texts in their stead -/

/-- The length of the longest part at the start that is accepted, of those up to some length. -/
def longest? (accepts : Bytes → Bool) (most : Nat) (text : Bytes) : Option Nat :=
  (List.range (min most text.length + 1)).reverse.find? fun length => accepts (text.take length)

/-- The text with another one in the stead of each part that is accepted, or of the first one. -/
def replaceIn (accepts : Bytes → Bool) (most : Nat) (every : Bool) (replacement : Bytes → Bytes) :
    (fuel : Nat) → Bytes → Bytes
  | 0, text => text
  | _, [] => []
  | fuel + 1, c :: rest =>
    match (longest? accepts most (c :: rest)).filter (0 < ·) with
    | none => c :: replaceIn accepts most every replacement fuel rest
    | some length =>
      let after := (c :: rest).drop length
      replacement ((c :: rest).take length) ++
        if every then replaceIn accepts most every replacement fuel after else after

/-- The text with another one in the stead of what is accepted: anywhere, or only at the start or at the
    end. `most` is the longest part that could be accepted. -/
def replace (accepts : Bytes → Bool) (most : Nat) (every : Bool) (place : Option Bool)
    (replacement : Bytes → Bytes) (text : Bytes) : Bytes :=
  match place with
  | none =>
    if text.isEmpty then if accepts [] then replacement [] else []
    else replaceIn accepts most every replacement text.length text
  | some false =>
    match longest? accepts most text with
    | none => text
    | some length => replacement (text.take length) ++ text.drop length
  | some true =>
    match (List.range (text.length + 1)).find? fun place => accepts (text.drop place) with
    | none => text
    | some place => text.take place ++ replacement (text.drop place)

/-- The longest text that a pattern can match, if that is bounded. -/
def mostOf (pattern : Pattern) (text : Bytes) : Nat :=
  if pattern.contains Pattern.star || Pattern.hasGroup pattern then text.length else pattern.length

/-- What stands in the stead of a match: a sign for it means the match itself. -/
def filled (replacement : Pattern) (found : Bytes) : Bytes :=
  replacement.flatMap fun (c, quoted) => if c = '&'.toUInt8 ∧ !quoted then found else [c]

/-! ## Cases and other forms -/

/-- The text with its first letter in another case, or with every one; only those that are accepted
    count. -/
def fold (accepts : Bytes → Bool) (upper : Option Bool) (every : Bool) (text : Bytes) : Bytes :=
  let change (c : UInt8) : UInt8 := match upper with
    | some true => Bytes.upperByte c
    | some false => Bytes.lowerByte c
    | none => if Bytes.isUpper c then Bytes.lowerByte c else Bytes.upperByte c
  let changed (c : UInt8) : UInt8 := if accepts [c] then change c else c
  if every then text.map changed
  else match text with
    | [] => []
    | c :: rest => changed c :: rest

def transformed (letter : UInt8) (text : Bytes) : Bytes :=
  let is (c : Char) : Bool := letter == c.toUInt8
  if is 'Q' then Quoted.reusable text
  else if is 'U' then Bytes.upper text
  else if is 'u' then fold (fun _ => true) (some true) false text
  else if is 'L' then Bytes.lower text
  else if is 'E' then ScriptReader.unescape (text.length + 1) text
  else text

end ShellCompletion.Values
