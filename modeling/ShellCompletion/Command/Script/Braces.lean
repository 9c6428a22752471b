import ShellCompletion.Command.Script.Basic

/-!
# Braces

In the extended language, braces in a word stand for several words: one for each of the parts between
commas, or for each number or letter of a sequence. What stands around them is in each of the words.
-/
namespace ShellCompletion.Braces

/-- A byte without quotes, or a piece that nothing is made of here. -/
abbrev Item := UInt8 ⊕ Piece

def opening : UInt8 := 0x7b
def closing : UInt8 := 0x7d
def comma : UInt8 := ','.toUInt8

def ofWord (word : Word) : List Item :=
  word.flatMap fun (piece : Piece) => match piece with
    | .text bytes false => bytes.map Sum.inl
    | piece => [.inr piece]

def toWord : List Item → Word
  | [] => []
  | .inr piece :: rest => piece :: toWord rest
  | .inl c :: rest =>
    match toWord rest with
    | .text bytes false :: pieces => .text (c :: bytes) false :: pieces
    | pieces => .text [c] false :: pieces

/-- The parts between the commas up to the brace that closes, and what follows. -/
def parts : (depth : Nat) → (current : List Item) → (done : List (List Item)) → List Item →
    Option (List (List Item) × List Item)
  | _, _, _, [] => none
  | depth, current, done, .inr piece :: rest => parts depth (.inr piece :: current) done rest
  | depth, current, done, .inl c :: rest =>
    if c = opening then parts (depth + 1) (.inl c :: current) done rest
    else if c = closing then
      match depth with
      | 0 => some ((current.reverse :: done).reverse, rest)
      | depth + 1 => parts depth (.inl c :: current) done rest
    else if c = comma ∧ depth = 0 then parts depth [] (current.reverse :: done) rest
    else parts depth (.inl c :: current) done rest

def plain? (items : List Item) : Option Bytes :=
  items.mapM fun item => match item with
    | .inl c => some c
    | .inr _ => none

/-- The parts of a text between pairs of dots. -/
def betweenDots : (current : Bytes) → Bytes → List Bytes
  | current, [] => [current.reverse]
  | current, 46 :: 46 :: rest => current.reverse :: betweenDots [] rest
  | current, c :: rest => betweenDots (c :: current) rest

/-- The numbers from one to another one. -/
def steps (first last : Int) (size : Nat) : List Int :=
  let size := max size 1
  let count := (last - first).natAbs / size
  (List.range (min count 100000 + 1)).map fun index =>
    if first ≤ last then first + (index * size : Nat) else first - (index * size : Nat)

/-- The number in as many digits as the widest end has, if one of them starts with a zero. -/
def padded (width : Nat) (n : Int) : Bytes :=
  let digits := Bytes.decimal n.natAbs
  let sign : Bytes := if n < 0 then [45] else []
  sign ++ List.replicate (width - sign.length - digits.length) '0'.toUInt8 ++ digits

def sequence? (text : Bytes) : Option (List Bytes) := do
  let (first, last, size) ← match betweenDots [] text with
    | [first, last] => some (first, last, 1)
    | [first, last, size] => (Bytes.readInteger size).map fun n => (first, last, n.natAbs)
    | _ => none
  match Bytes.readInteger first, Bytes.readInteger last, first, last with
  | some a, some b, _, _ =>
    let hasZero (text : Bytes) : Bool :=
      let digits := text.dropWhile fun c => c == '-'.toUInt8 || c == '+'.toUInt8
      digits.head? == some '0'.toUInt8 && 1 < digits.length
    let width := if hasZero first || hasZero last then max first.length last.length else 0
    return (steps a b size).map (padded width)
  | none, none, [a], [b] =>
    if Bytes.isAlpha a && Bytes.isAlpha b then
      return (steps a.toNat b.toNat size).map fun n => [UInt8.ofNat n.toNat]
    else none
  | _, _, _, _ => none

/-- The words that items stand for. `fuel` bounds how many items and braces there are. -/
def expand : (fuel : Nat) → List Item → List (List Item)
  | 0, items => [items]
  | _, [] => [[]]
  | fuel + 1, item :: rest =>
    let others (_ : Unit) : List (List Item) := (expand fuel rest).map (item :: ·)
    match item with
    | .inl c =>
      if c ≠ opening then others ()
      else match parts 0 [] [] rest with
        | none => others ()
        | some (found, after) =>
          let alternatives : Option (List (List Item)) := match found with
            | [single] =>
              ((plain? single).bind sequence?).map fun texts => texts.map fun text => text.map Sum.inl
            | found => some (found.flatMap fun part => expand fuel part)
          match alternatives with
          | none => others ()
          | some alternatives =>
            let endings := expand fuel after
            alternatives.flatMap fun start => endings.map (start ++ ·)
    | .inr _ => others ()

def words (word : Word) : List Word :=
  let items := ofWord word
  if items.any fun item => match item with
      | .inl c => c == opening
      | .inr _ => false
  then (expand (2 * items.length + 2) items).map toWord
  else [word]

end ShellCompletion.Braces
