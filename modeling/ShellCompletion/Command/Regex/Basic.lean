import ShellCompletion.Bytes

/-!
# Regular expressions

A regular expression tells where in a text it matches, and what its groups match there. `reach` follows
it from all of some places at once and gives every place where a match from there may end; it knows
nothing of groups. `follow` tries one way after the other, the preferred ones first, and keeps the
groups. Of the matches that start first, either the longest one counts or the one that is found first.
-/
namespace ShellCompletion

inductive Regex where
  | empty
  | one (accepts : UInt8 → Bool)
  | both (first second : Regex)
  | either (first second : Regex)
  /-- Repetitions, of which more are preferred if it is `eager`, and else fewer. -/
  | loop (least : Nat) (most : Option Nat) (eager : Bool) (body : Regex)
  | group (number : Nat) (body : Regex)
  /-- What the group of that number matched, maybe in the other case. -/
  | again (number : Nat) (folds : Bool)
  /-- A place that is told by the text around it. -/
  | edge (holds : Array UInt8 → Nat → Bool)
  /-- Only the preferred way to match counts. -/
  | atomic (body : Regex)
  /-- There is a match from here on, or one that ends here, or there is none. -/
  | look (ahead wanted : Bool) (body : Regex)
  /-- The match starts only here. -/
  | restart

namespace Regex

/-! ## Places -/

def isWordByte (c : UInt8) : Bool := Bytes.isAlpha c || Bytes.isDigit c || c == '_'.toUInt8

def before? (text : Array UInt8) (place : Nat) : Option UInt8 :=
  if place = 0 then none else text[place - 1]?

def atStart : Regex := .edge fun _ place => place == 0

def atEnd : Regex := .edge fun text place => place == text.size

def atWord (starts ends : Bool) : Regex := .edge fun text place =>
  let a := (before? text place).any isWordByte
  let b := (text[place]?).any isWordByte
  (starts && !a && b) || (ends && a && !b)

def notAtWord : Regex := .edge fun text place =>
  (before? text place).any isWordByte == (text[place]?).any isWordByte

/-- A byte as it stands, maybe in the other case. -/
def literal (folds : Bool) (c : UInt8) : Regex :=
  if folds then
    let c := Bytes.lowerByte c
    .one fun d => Bytes.lowerByte d == c
  else .one (· == c)

def plain (folds : Bool) (text : Bytes) : Regex :=
  text.foldr (fun c regex => .both (literal folds c) regex) .empty

/-! ## All ends -/

/-- The places in either of two ordered lists. -/
def union (a b : List Nat) : List Nat :=
  if a.isEmpty then b else if b.isEmpty then a else (List.merge a b (· ≤ ·)).eraseReps

/-- The places in the first of two ordered lists and not in the second, after those that are told
    already, which are in reverse order. -/
def without (told : List Nat) : List Nat → List Nat → List Nat
  | [], _ => told.reverse
  | a, [] => told.reverseAux a
  | a :: as, b :: bs =>
    if a < b then without (a :: told) as (b :: bs)
    else if a = b then without told as (b :: bs)
    else without told (a :: as) bs

/-- The places that some more repetitions lead to. `fuel` bounds how many. -/
def closure (step : List Nat → List Nat) : (fuel : Nat) → (found border : List Nat) → List Nat
  | 0, found, _ => found
  | fuel + 1, found, border =>
    let next := without [] (step border) found
    if next.isEmpty then found else closure step fuel (union found next) next

/-- How many bytes from a place on a set accepts, at most `fuel`. -/
def runLength (text : Array UInt8) (accepts : UInt8 → Bool) : (fuel : Nat) → (place : Nat) → Nat
  | 0, _ => 0
  | fuel + 1, place =>
    match text[place]? with
    | some c => if accepts c then runLength text accepts fuel (place + 1) + 1 else 0
    | none => 0

/-- The places from `place` on that runs of accepted bytes lead to, from that one or from one of
    `places`, all in order. `told` are those before it, in reverse order; `fuel` bounds the steps. -/
def spread (text : Array UInt8) (accepts : UInt8 → Bool) : (fuel : Nat) → (told : List Nat) →
    (place : Nat) → (places : List Nat) → List Nat
  | 0, told, _, _ => told.reverse
  | fuel + 1, told, place, places =>
    let places := if places.head? = some place then places.tail else places
    if (text[place]?).any accepts then spread text accepts fuel (place :: told) (place + 1) places
    else match places with
      | [] => (place :: told).reverse
      | next :: places => spread text accepts fuel (place :: told) next places

/-- Takes a step so many times. -/
def iterate (step : List Nat → List Nat) : (count : Nat) → List Nat → List Nat
  | 0, places => places
  | count + 1, places => if places.isEmpty then [] else iterate step count (step places)

/-- The places where matches from some places may end, both in order. -/
def reach (text : Array UInt8) : Regex → List Nat → List Nat
  | .empty, places | .look .., places | .restart, places => places
  | .one accepts, places =>
    places.filterMap fun place => (text[place]?).bind fun c =>
      if accepts c then some (place + 1) else none
  | .both first second, places =>
    let middle := reach text first places
    if middle.isEmpty then [] else reach text second middle
  | .either first second, places => union (reach text first places) (reach text second places)
  | .loop least most _ body, places =>
    let more := match most with
      | some most => most - least
      | none => text.size + 1
    match body, places with
    | .one accepts, [place] =>
      let length := runLength text accepts (min (least + more) (text.size - place)) place
      if length < least then [] else (List.range (length + 1 - least)).map (· + place + least)
    | body, places =>
      let start := iterate (reach text body) least places
      match body, most, start with
      | .one accepts, none, place :: _ => spread text accepts (text.size + 1) [] place start
      | body, _, start => closure (reach text body) more start start
  | .group _ body, places => reach text body places
  | .again .., _ => []
  | .edge holds, places => places.filter (holds text)
  | .atomic body, places => reach text body places

/-- `reach` knows all that the expression asks for. -/
def isRegular : Regex → Bool
  | .empty | .one _ | .edge _ => true
  | .both first second | .either first second => isRegular first && isRegular second
  | .loop _ _ _ body | .group _ body => isRegular body
  | .again .. | .atomic _ | .look .. | .restart => false

/-! ## One way after the other -/

/-- The groups that have matched, with their starts and ends. -/
abbrev Groups := List (Nat × Nat × Nat)

/-- The number under which it is kept where a match starts, if that has been moved. -/
def startMark : Nat := 1000000

/-- The two texts are the same, maybe but for the case. -/
def sameText (folds : Bool) (text : Array UInt8) (start other length : Nat) : Bool :=
  (List.range length).all fun k =>
    let a := text[start + k]?
    let b := text[other + k]?
    if folds then a.map Bytes.lowerByte == b.map Bytes.lowerByte else a == b

/-- Goes on at the first of some places, in the order of preference, from which that leads to a
    match. -/
def firstOf {α : Type} (next : Nat → Option α) (eager : Bool) (least : Nat) : (more : Nat) →
    Option α
  | 0 => next least
  | more + 1 =>
    if eager then (next (least + more + 1)).orElse fun _ => firstOf next eager least more
    else (firstOf next eager least more).orElse fun _ => next (least + more + 1)

/-- Matches a text from a place on, and goes on with what follows. `fuel` bounds the steps one after
    the other. -/
def follow (text : Array UInt8) : (fuel : Nat) → Regex → (place : Nat) → Groups →
    (next : Nat → Groups → Option (Nat × Groups)) → Option (Nat × Groups)
  | 0, _, _, _, _ => none
  | fuel + 1, regex, place, groups, next =>
    match regex with
    | .empty => next place groups
    | .one accepts => match text[place]? with
      | some c => if accepts c then next (place + 1) groups else none
      | none => none
    | .both first second => follow text fuel first place groups fun place groups =>
        follow text fuel second place groups next
    | .either first second =>
      (follow text fuel first place groups next).orElse fun _ =>
        follow text fuel second place groups next
    | .loop least most eager (.one accepts) =>
      let limit := match most with
        | some most => min most (text.size - place)
        | none => text.size - place
      let length := runLength text accepts limit place
      if length < least then none
      else firstOf (fun length => next (place + length) groups) eager least (length - least)
    | .loop least most eager body =>
      let more (_ : Unit) : Option (Nat × Groups) :=
        if most = some 0 then none
        else follow text fuel body place groups fun after groups =>
          if after = place ∧ least = 0 then none
          else follow text fuel (.loop (least - 1) (most.map (· - 1)) eager body) after groups next
      if 0 < least then more ()
      else if eager then (more ()).orElse fun _ => next place groups
      else (next place groups).orElse more
    | .group number body => follow text fuel body place groups fun after groups =>
        next after ((number, place, after) :: groups.filter (·.1 != number))
    | .again number folds => match groups.lookup number with
      | none => none
      | some (start, ending) =>
        let length := ending - start
        if place + length ≤ text.size && sameText folds text start place length then
          next (place + length) groups
        else none
    | .edge holds => if holds text place then next place groups else none
    | .atomic body =>
      match follow text fuel body place groups fun place groups => some (place, groups) with
      | some (place, groups) => next place groups
      | none => none
    | .look ahead wanted body =>
      let found := if ahead then follow text fuel body place groups fun place groups => some (place, groups)
        else (List.range (place + 1)).reverse.findSome? fun start =>
          follow text fuel body start groups fun ending groups =>
            if ending = place then some (ending, groups) else none
      match found, wanted with
      | some (_, groups), true => next place groups
      | none, false => next place groups
      | _, _ => none
    | .restart => next place ((startMark, place, place) :: groups.filter (·.1 != startMark))

/-! ## Matches -/

/-- How many parts an expression has. -/
def size : Regex → Nat
  | .both first second | .either first second => size first + size second + 1
  | .loop _ _ _ body | .group _ body | .atomic body | .look _ _ body => size body + 1
  | _ => 1

/-- How many groups an expression has. -/
def groupCount : Regex → Nat
  | .both first second | .either first second => max (groupCount first) (groupCount second)
  | .group number body => max number (groupCount body)
  | .loop _ _ _ body | .atomic body | .look _ _ body => groupCount body
  | _ => 0

/-- More steps than a way through an expression takes. -/
def steps (regex : Regex) (text : Array UInt8) : Nat := (regex.size + 2) * (text.size + 2) + 1000

/-- Which of the matches from a place counts. -/
inductive Preference where
  | first
  | longest
deriving DecidableEq, Repr

/-- The longest of the matches from a place that is told by trying all of them. -/
def followAll (regex : Regex) (text : Array UInt8) (place : Nat) : Option (Nat × Groups) :=
  let ends := (List.range (text.size + 1 - place)).reverse.map (· + place)
  ends.findSome? fun wanted =>
    follow text (regex.steps text) regex place [] fun ending groups =>
      if ending = wanted then some (ending, groups) else none

def matchAt (preference : Preference) (regex : Regex) (text : Array UInt8) (place : Nat) :
    Option (Nat × Groups) :=
  match preference with
  | .first => follow text (regex.steps text) regex place [] fun ending groups => some (ending, groups)
  | .longest =>
    if regex.isRegular then
      match (reach text regex [place]).getLast? with
      | none => none
      | some longest =>
        (follow text (regex.steps text) regex place [] fun ending groups =>
          if ending = longest then some (ending, groups) else none).or (some (longest, []))
    else followAll regex text place

abbrev Match := Nat × Nat × Groups

/-- How many loops an expression has. -/
def loopCount : Regex → Nat
  | .both first second | .either first second => loopCount first + loopCount second
  | .loop _ _ _ body => loopCount body + 1
  | .group _ body | .atomic body | .look _ _ body => loopCount body
  | _ => 0

/-- The first match that starts at one of some places. That there is none is found out for all of them
    at once where that is cheaper than to try each. -/
def findAmong (preference : Preference) (regex : Regex) (text : Array UInt8) (starts : List Nat) :
    Option Match :=
  let asks := 1 < starts.length || (preference = .first && 1 < regex.loopCount)
  if asks && regex.isRegular && (reach text regex starts).isEmpty then none
  else starts.findSome? fun start =>
    (matchAt preference regex text start).map fun (ending, groups) =>
      match groups.lookup startMark with
      | some (moved, _) => (moved, ending, groups)
      | none => (start, ending, groups)

/-- The first match from a place on. The places are tried in blocks, each of them longer than the one
    before. `fuel` bounds how many there are. -/
def findFrom (preference : Preference) (regex : Regex) (text : Array UInt8) :
    (fuel : Nat) → (block place : Nat) → Option Match
  | 0, _, _ => none
  | fuel + 1, block, place =>
    if text.size < place then none
    else
      let starts := (List.range (min block (text.size + 1 - place))).map (· + place)
      (findAmong preference regex text starts).orElse fun _ =>
        findFrom preference regex text fuel (2 * block) (place + block)

/-- The first match from a place on. -/
def find? (preference : Preference) (regex : Regex) (text : Array UInt8) (place : Nat) :
    Option Match :=
  findFrom preference regex text (text.size + 1) 1 place

/-- There is a match somewhere in a text. -/
def accepts (regex : Regex) (text : Bytes) : Bool :=
  let text := text.toArray
  if regex.isRegular then !(reach text regex (List.range (text.size + 1))).isEmpty
  else (find? .first regex text 0).isSome

/-- The matches in a text one after the other. `place` is where the next one may start; no empty one
    is found at `last`, where the one before ended. -/
def findAll (preference : Preference) (regex : Regex) (text : Array UInt8) :
    (fuel : Nat) → (place : Nat) → (last : Option Nat) → List Match
  | 0, _, _ => []
  | fuel + 1, place, last =>
    match find? preference regex text place with
    | none => []
    | some (start, ending, groups) =>
      if start = ending ∧ last = some start then
        if text.size ≤ start then [] else findAll preference regex text fuel (start + 1) none
      else (start, ending, groups) :: findAll preference regex text fuel ending (some ending)

def occurrences (preference : Preference) (regex : Regex) (text : Bytes) : List Match :=
  findAll preference regex text.toArray (2 * text.length + 2) 0 none

def groupText? (text : Bytes) (found : Match) (number : Nat) : Option Bytes :=
  let (start, ending, groups) := found
  if number = 0 then some ((text.drop start).take (ending - start))
  else (groups.lookup number).map fun (start, ending) => (text.drop start).take (ending - start)

end Regex

end ShellCompletion
