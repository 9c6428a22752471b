import ShellCompletion.Command.Perl.Places

/-!
# Matching, replacing and cutting

What the operators do that match texts with expressions, replace what is found, translate bytes and cut
texts into parts.
-/
namespace ShellCompletion.Perl

namespace Running

/-- The text of an expression to match with, which may have been read already. -/
def patternText (go : Evaluator) (pattern : Expr) : Running Bytes := do
  match pattern with
  | .constant (.text text) => return text
  | pattern => go.text pattern

/-- What is matched or changed, where the topic is meant if nothing is named. -/
def subjectOf (target : Option Expr) : Expr := target.getD Reading.topic

/-- The cell of a text that is matched over and over again; one that stands in the program has one as
    well. -/
def subjectPlace (go : Evaluator) (subject : Expr) : Running Nat := do
  match subject with
  | .constant value =>
    let text ← textOf value
    let address ← sharedPlace .scalar (0 :: text)
    setScalar address value
    return address
  | subject => go.place subject

/-- There is a match, or there is none; with a mark for that, the search goes on behind the last match. -/
def hasMatch (go : Evaluator) (target : Option Expr) (pattern : Expr) (flags : Flags) : Running Bool := do
  let subject := subjectOf target
  let goesOn := flags.has 'g'
  let address ← if goesOn then subjectPlace go subject else pure 0
  let value ← if goesOn then scalarAt address else go.value subject
  let text ← textOf value
  let (shown, tied) := untied (← patternText go pattern)
  let expression ← expressionOf flags.letters shown
  let (start, barred) ← if goesOn then do
      let position ← positionOf address
      pure (position.getD (0, false))
    else pure (0, false)
  match if text.length < start then none else matchFrom expression.regex text tied start barred with
  | some found =>
    setFound text expression found
    if goesOn then setPosition address (some (found.2.1, found.1 == found.2.1))
    return true
  | none =>
    if goesOn && !flags.has 'c' then setPosition address none
    return false

/-- What is found in a text where several values are wanted: what the groups matched, or what matched;
    with a mark for that, over and over again. -/
def matchedItems (go : Evaluator) (target : Option Expr) (pattern : Expr) (flags : Flags) :
    Running (List Item) := do
  let subject := subjectOf target
  if flags.has 'g' then
    let address ← go.place subject
    let text ← textOf (← scalarAt address)
    let (shown, _) := untied (← patternText go pattern)
    let expression ← expressionOf flags.letters shown
    let (start, barred) := (← positionOf address).getD (0, false)
    let all := matchesFrom expression.regex text.toArray (2 * text.length + 2) start barred
    match all.getLast? with
    | some found => setFound text expression found
    | none => pure ()
    if flags.has 'c' then
      match all.getLast? with
      | some found => setPosition address (some (found.2.1, found.1 == found.2.1))
      | none => pure ()
    else setPosition address none
    let values := all.flatMap fun found =>
      if expression.groups = 0 then [groupOf text found 0] else groupsOf expression text found
    return values.map .value
  else
    if ← hasMatch go target pattern flags then
      match (← get).found with
      | some found =>
        if found.groups = 0 then return [.value (.int 1)]
        return (List.range found.groups).map fun k => .value (groupOf found.text found.found (k + 1))
      | none => return []
    else return []

def replacedText (go : Evaluator) (expression : Regex.Perl.Expression) (text : Bytes) (replacement : Expr) :
    List Regex.Match → (place : Nat) → (rest : Bytes) → (done : List Bytes) → Running Bytes
  | [], _, rest, done => return (rest :: done).reverse.flatten
  | found :: others, place, rest, done => do
    setFound text expression found
    let new ← go.text replacement
    let before := rest.take (found.1 - place)
    replacedText go expression text replacement others found.2.1 (rest.drop (found.2.1 - place))
      (new :: before :: done)

/-- Replaces matches: how many there were, or the new text. -/
def substitute (go : Evaluator) (target : Option Expr) (pattern replacement : Expr) (flags : Flags) :
    Running Scalar := do
  let subject := subjectOf target
  let address ← if flags.has 'r' then pure 0 else go.place subject
  let old ← if flags.has 'r' then go.value subject else scalarAt address
  let text ← textOf old
  let (shown, tied) := untied (← patternText go pattern)
  let expression ← expressionOf flags.letters shown
  let all := if flags.has 'g' then matchesFrom expression.regex text.toArray (2 * text.length + 2) 0 false
    else (matchFrom expression.regex text tied 0 false).toList
  if all.isEmpty then return if flags.has 'r' then .text text else Scalar.ofBool false
  let new ← replacedText go expression text replacement all 0 text []
  if let some found := all.getLast? then setFound text expression found
  if flags.has 'r' then return .text new
  match subject with
  | .shared .scalar name =>
    if (signOf? name).isSome then assignTo go subject (.text new) else setScalar address (.text new)
  | .function .. | .lastIndex _ => assignTo go subject (.text new)
  | _ => setScalar address (.text new)
  setPosition address none
  return Scalar.ofNat all.length

/-- Translates the bytes of a text: how many were found, or the new text. -/
def translateIn (go : Evaluator) (target : Option Expr) (translation : Translation) : Running Scalar := do
  let subject := subjectOf target
  if translation.returns then
    return .text (translate translation (← go.text subject)).1
  let address ← go.place subject
  let old ← textOf (← scalarAt address)
  let (new, count) := translate translation old
  if new != old then setScalar address (.text new)
  return Scalar.ofNat count

/-- An expression to match with as a value. -/
def quotedPattern (go : Evaluator) (pattern : Expr) (flags : Flags) : Running Scalar := do
  let letters := meaningLetters flags.letters
  match pattern with
  | .constant (.text text) =>
    let _ ← expressionOf letters text
    return .pattern (utf8 "(?^" ++ letters ++ utf8 ":" ++ text ++ utf8 ")")
  | pattern =>
    let isPattern := match pattern with
      | .interpolated [_] => true
      | .interpolated _ => false
      | _ => true
    let value ← match pattern with
      | .interpolated [part] => go.value part
      | pattern => go.value pattern
    match value, isPattern && letters.isEmpty with
    | .pattern text, true => return .pattern text
    | value, _ =>
      let text ← textOf value
      let _ ← expressionOf letters text
      return .pattern (utf8 "(?^" ++ letters ++ utf8 ":" ++ text ++ utf8 ")")

/-- Cuts a text into parts. -/
def splitText (go : Evaluator) (arguments : List Expr) : Running (List Scalar) := do
  let pattern := arguments.headD (.constant (.text [32]))
  let text ← go.text ((arguments[1]?).getD Reading.topic)
  let limit ← match arguments[2]? with
    | some limit => do pure (← go.value limit).toInt
    | none => pure 0
  let value ← go.value pattern
  let isWords := match pattern, value with
    | .quotePattern .., _ => false
    | _, .text [32] => true
    | _, _ => false
  if isWords then
    return splitWords (text.length + 2) limit text
  else
    let shown ← textOf value
    let shown := if shown = utf8 "(?^:^)" || shown = utf8 "^" then utf8 "(?^m:^)" else shown
    let expression ← expressionOf [] shown
    return splitParts expression.regex expression.groups text limit

end Running

end ShellCompletion.Perl
