import ShellCompletion.Command.Perl.Filing

/-!
# Matches in Perl programs

Expressions are read once and kept. The last match that was found tells what groups are, and each value
that is gone through match by match knows where the next one may start.
-/
namespace ShellCompletion.Perl

def meaningLetters (letters : Bytes) : Bytes := (utf8 "msixn").filter letters.contains

/-- The first match from a place on, but no empty one where the last match was empty. -/
def nextMatch (regex : Regex) (text : Array UInt8) (start : Nat) (barred : Bool) : Option Regex.Match :=
  match Regex.find? .first regex text start with
  | none => none
  | some (first, ending, groups) =>
    if barred && first = ending && first = start then
      if text.size ≤ start then none else Regex.find? .first regex text (start + 1)
    else some (first, ending, groups)

/-- The matches one after the other. `fuel` bounds them. -/
def matchesFrom (regex : Regex) (text : Array UInt8) : (fuel : Nat) → (start : Nat) → (barred : Bool) →
    List Regex.Match
  | 0, _, _ => []
  | fuel + 1, start, barred =>
    match nextMatch regex text start barred with
    | none => []
    | some found => found :: matchesFrom regex text fuel found.2.1 (found.1 == found.2.1)

namespace Running

def expressionOf (letters text : Bytes) : Running Regex.Perl.Expression := do
  let letters := meaningLetters letters
  let key := letters ++ 0 :: text
  match (← get).patterns[key]? with
  | some expression => return expression
  | none =>
    let flags := letters.foldl (fun (flags : Regex.Perl.Flags) letter => (flags.set letter true).getD flags) {}
    match Regex.Perl.read flags text with
    | .ok expression =>
      modify fun session => { session with patterns := session.patterns.insert key expression }
      return expression
    | .error message => fail (message ++ utf8 "; marked by <-- HERE in m/" ++ text ++ utf8 " <-- HERE /")

/-- Notes the last match. -/
def setFound (text : Bytes) (expression : Regex.Perl.Expression) (found : Regex.Match) : Running Unit :=
  modify ({ · with found := some { text, found, groups := expression.groups, names := expression.names } })

def groupOf (text : Bytes) (found : Regex.Match) (number : Nat) : Scalar :=
  match Regex.groupText? text found number with
  | some bytes => .text bytes
  | none => .nothing

/-- What a group of the last match matched. -/
def groupValue (number : Nat) : Running Scalar := do
  match (← get).found with
  | some found => return groupOf found.text found.found number
  | none => return .nothing

/-- What is before the last match, or after it. -/
def aroundValue (after : Bool) : Running Scalar := do
  match (← get).found with
  | some found =>
    return .text (if after then found.text.drop found.found.2.1 else found.text.take found.found.1)
  | none => return .nothing

def groupsOf (expression : Regex.Perl.Expression) (text : Bytes) (found : Regex.Match) : List Scalar :=
  (List.range expression.groups).map fun k => groupOf text found (k + 1)

/-- What the last group that took part in the last match matched. -/
def lastGroup : Running Scalar := do
  match (← get).found with
  | some found =>
    let values := (List.range found.groups).map fun k => groupOf found.text found.found (k + 1)
    return (values.reverse.find? Scalar.isDefined).getD .nothing
  | none => return .nothing

/-- The groups with names that took part in the last match. -/
def namedGroups : Running (List Scalar) := do
  match (← get).found with
  | some found =>
    return found.names.reverse.flatMap fun (name, number) =>
      match groupOf found.text found.found number with
      | .nothing => []
      | value => [.text name, value]
  | none => return []

/-- Where the last match and its groups start, or where they end. -/
def groupPlaces (ends : Bool) : Running (List Scalar) := do
  match (← get).found with
  | some found =>
    let (start, ending, groups) := found.found
    let of (place : Nat × Nat) : Scalar := Scalar.ofNat (if ends then place.2 else place.1)
    return of (start, ending) :: (List.range found.groups).map fun k =>
      match groups.lookup (k + 1) with
      | some place => of place
      | none => .nothing
  | none => return []

/-! ## Where matches may start -/

/-- Where the next match in a cell may start, and whether the last one there was empty. -/
def positionOf (address : Nat) : Running (Option (Nat × Bool)) := do
  return (← get).places[address]?.map fun place => (place / 2, place % 2 = 1)

def setPosition (address : Nat) (place : Option (Nat × Bool)) : Running Unit :=
  modify fun session => { session with places := match place with
    | some (place, isEmpty) => session.places.insert address (2 * place + if isEmpty then 1 else 0)
    | none => session.places.erase address }

/-- The expression without the mark that ties it to where the last match ended, and whether it had it. -/
def untied (text : Bytes) : Bytes × Bool :=
  if (utf8 "\\G").isPrefixOf text then (text.drop 2, true) else (text, false)

/-- The next match of an expression in a text, from a place on or exactly there. -/
def matchFrom (regex : Regex) (text : Bytes) (tied : Bool) (start : Nat) (barred : Bool) : Option Regex.Match :=
  if tied then
    (Regex.matchAt .first regex text.toArray start).map fun (ending, groups) => (start, ending, groups)
  else nextMatch regex text.toArray start barred

end Running

end ShellCompletion.Perl
