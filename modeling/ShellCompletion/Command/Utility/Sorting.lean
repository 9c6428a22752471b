import ShellCompletion.Command.Format
import ShellCompletion.Command.Utility.Basic
import ShellCompletion.Command.Version

/-!
# Utilities for lines in order

The standard programs that put lines in order, and those that bring together lines that are in order.
-/
namespace ShellCompletion.Utility

/-! ## Keys -/

/-- How two texts are compared. -/
structure Collation where
  /-- Blanks at the start of a key, or of its end, do not count. -/
  skipsStart : Bool := false
  skipsEnd : Bool := false
  reverse : Bool := false
  fold : Bool := false
  /-- Only blanks, letters and digits count. -/
  dictionary : Bool := false
  /-- Only bytes that can be printed count. -/
  printable : Bool := false
  /-- The letter of another order than that of bytes. -/
  kind : Option Char := none
deriving DecidableEq

namespace Collation

/-- The letters that say how texts are compared. -/
def letters : String := "bdfghiMnRrV"

def with_ (collation : Collation) (starts ends : Bool) (letter : Char) : Collation :=
  match letter with
  | 'b' => { collation with
      skipsStart := collation.skipsStart || starts, skipsEnd := collation.skipsEnd || ends }
  | 'r' => { collation with reverse := true }
  | 'f' => { collation with fold := true }
  | 'd' => { collation with dictionary := true }
  | 'i' => { collation with printable := true }
  | letter => { collation with kind := some letter }

/-- The number at the start of a text: its sign, its digits before the point, and those after it. -/
def number (text : Bytes) : Bool × Bytes × Bytes :=
  let text := text.dropWhile Bytes.isBlank
  let negative := text.head? == some '-'.toUInt8
  let text := if negative then text.drop 1 else text
  let whole := text.takeWhile Bytes.isDigit
  let rest := text.drop whole.length
  let fraction := if rest.head? == some '.'.toUInt8 then (rest.drop 1).takeWhile Bytes.isDigit else []
  (negative, whole, fraction)

/-- Compares the numbers at the starts of two texts. -/
def compareNumbers (a b : Bytes) : Ordering :=
  let (negativeA, wholeA, fractionA) := number a
  let (negativeB, wholeB, fractionB) := number b
  let places := max fractionA.length fractionB.length
  let scaled (negative : Bool) (whole fraction : Bytes) : Int :=
    let n := Bytes.digitsValue (whole ++ fraction ++
      List.replicate (places - fraction.length) '0'.toUInt8)
    if negative then -(n : Int) else n
  compareOfLessAndEq (scaled negativeA wholeA fractionA) (scaled negativeB wholeB fractionB)

/-- The rank of the unit after a number, with the sign of that; zero is in no unit. -/
def unitRank (text : Bytes) : Int :=
  let (negative, whole, fraction) := number text
  let rest := text.dropWhile Bytes.isBlank
  let rest := if negative then rest.drop 1 else rest
  let rest := rest.drop whole.length
  let rest := if rest.head? == some '.'.toUInt8 then rest.drop (fraction.length + 1) else rest
  let isZero := (whole ++ fraction).all (· == '0'.toUInt8)
  let rank : Int := match rest.head? with
    | none => 0
    | some c =>
      if c = 'k'.toUInt8 then 1
      else match (utf8 "KMGTPEZYRQ").idxOf? c with
        | some index => (index : Int) + 1
        | none => 0
  if isZero then 0 else if negative then -rank else rank

/-- The number of a month by the first three letters of its name; zero for other texts. -/
def month (text : Bytes) : Nat :=
  let start := Bytes.upper ((text.dropWhile Bytes.isBlank).take 3)
  match ["JAN", "FEB", "MAR", "APR", "MAY", "JUN", "JUL", "AUG", "SEP", "OCT", "NOV", "DEC"].findIdx?
      (utf8 · == start) with
  | some index => index + 1
  | none => 0

/-- The number that a text spells, maybe with an exponent of ten: none sorts first. -/
def general? (text : Bytes) : Option (Int × Int) :=
  let text := text.dropWhile Bytes.isSpace
  let (negative, whole, fraction) := number (if text.head? == some '+'.toUInt8 then text.drop 1 else text)
  let signed := text.head?.any fun c => c == '-'.toUInt8 || c == '+'.toUInt8
  let rest := (if signed then text.drop 1 else text).drop whole.length
  let rest := if rest.head? == some '.'.toUInt8 then rest.drop (fraction.length + 1) else rest
  if whole.isEmpty && fraction.isEmpty then none
  else
    let exponent : Int := match rest with
      | c :: rest =>
        if Bytes.lowerByte c = 'e'.toUInt8 then
          let minus := rest.head? == some '-'.toUInt8
          let digits := (if minus || rest.head? == some '+'.toUInt8 then rest.drop 1 else rest).takeWhile
            Bytes.isDigit
          if minus then -(Bytes.digitsValue digits : Int) else Bytes.digitsValue digits
        else 0
      | [] => 0
    let n : Int := Bytes.digitsValue (whole ++ fraction)
    some (if negative then -n else n, exponent - fraction.length)

/-- Compares the numbers that two texts spell. -/
def compareGeneral (a b : Bytes) : Ordering :=
  match general? a, general? b with
  | none, none => .eq
  | none, some _ => .lt
  | some _, none => .gt
  | some (m, e), some (n, f) =>
    let least := min e f
    let scale (n e : Int) : Int := n * (Nat.pow 10 (min 5000 (e - least).toNat) : Nat)
    compareOfLessAndEq (scale m e) (scale n f)

def compareBytes (a b : Bytes) : Ordering :=
  if a = b then .eq else if Bytes.le a b then .lt else .gt

def counted (collation : Collation) (text : Bytes) : Bytes :=
  let text := if collation.dictionary then
      text.filter fun c => Bytes.isBlank c || Bytes.isAlpha c || Bytes.isDigit c
    else if collation.printable then text.filter fun c => 32 ≤ c && c < 127
    else text
  if collation.fold then Bytes.upper text else text

/-- Compares two texts. -/
def compare (collation : Collation) (a b : Bytes) : Ordering :=
  let order := match collation.kind with
    | some 'n' => compareNumbers a b
    | some 'g' => compareGeneral a b
    | some 'h' => (compareOfLessAndEq (unitRank a) (unitRank b)).then (compareNumbers a b)
    | some 'M' => compareOfLessAndEq (month a) (month b)
    | some 'V' => Version.compare (collation.counted a) (collation.counted b)
    | _ => compareBytes (collation.counted a) (collation.counted b)
  if collation.reverse then order.swap else order

end Collation

/-- A part of a line by which lines are sorted: so many fields and bytes from the start of the line, up
    to so many fields and bytes. -/
structure SortKey where
  firstField : Nat := 0
  firstByte : Nat := 0
  /-- The key ends with the line if there is none. -/
  last : Option (Nat × Nat) := none
  collation : Collation := {}

def readKeySide (what : String) (text : Bytes) : Except Bytes (Nat × Option Nat × Bytes) :=
  let digits := text.takeWhile Bytes.isDigit
  let rest := text.drop digits.length
  if digits.isEmpty then
    .error (utf8 "invalid number " ++ utf8 what ++ utf8 ": invalid count at start of " ++ quotedName text)
  else match rest with
    | 46 :: more =>
      let bytes := more.takeWhile Bytes.isDigit
      if bytes.isEmpty then
        .error (utf8 "invalid number after '.': invalid count at start of " ++ quotedName more)
      else .ok (Bytes.digitsValue digits, some (Bytes.digitsValue bytes), more.drop bytes.length)
    | rest => .ok (Bytes.digitsValue digits, none, rest)

def readKey (text : Bytes) : Except Bytes SortKey := do
  let fault {α : Type} (what : String) : Except Bytes α :=
    .error (utf8 what ++ utf8 ": invalid field specification " ++ quotedName text)
  let isLetter (c : UInt8) : Bool := (utf8 Collation.letters).contains c
  let apply (starts ends : Bool) (letters : Bytes) (collation : Collation) : Collation :=
    letters.foldl (fun collation c => collation.with_ starts ends (Char.ofNat c.toNat)) collation
  let (field, byte, rest) ← readKeySide "at field start" text
  if field = 0 then fault "field number is zero"
  if byte = some 0 then fault "character offset is zero"
  let letters := rest.takeWhile isLetter
  let key : SortKey :=
    { firstField := field - 1, firstByte := byte.getD 1 - 1, collation := apply true false letters {} }
  match rest.drop letters.length with
  | [] => return key
  | 44 :: more =>
    let (field, byte, rest) ← readKeySide "after ','" more
    if field = 0 then fault "field number is zero"
    let letters := rest.takeWhile isLetter
    if letters.length < rest.length then fault "stray character in field spec"
    return { key with
      last := some (if byte.getD 0 = 0 then (field, 0) else (field - 1, byte.getD 0))
      collation := apply false true letters key.collation }
  | _ => fault "stray character in field spec"

/-- What follows so many fields at the start of a line. -/
def afterFields (separator : Option UInt8) : (count : Nat) → Bytes → Bytes
  | 0, line => line
  | count + 1, line => match separator with
    | some c => afterFields separator count ((line.dropWhile (· != c)).drop 1)
    | none =>
      afterFields separator count ((line.dropWhile Bytes.isBlank).dropWhile (!Bytes.isBlank ·))

namespace SortKey

def part (key : SortKey) (separator : Option UInt8) (line : Bytes) : Bytes :=
  let start := afterFields separator key.firstField line
  let start := if key.collation.skipsStart then start.dropWhile Bytes.isBlank else start
  let start := start.drop key.firstByte
  match key.last with
  | none => start
  | some (fields, bytes) =>
    let rest := afterFields separator fields line
    let left := if bytes = 0 then
        /- The separator after the last field is not part of the key. -/
        match separator with
        | some _ => if isCut fields line then rest.length + 1 else rest.length
        | none => rest.length
      else
        let rest := if key.collation.skipsEnd then rest.dropWhile Bytes.isBlank else rest
        (rest.drop bytes).length
    start.take (start.length - left)
where
  /-- A separator ends that field. -/
  isCut (fields : Nat) (line : Bytes) : Bool :=
    match separator with
    | some c => fields ≤ line.count c
    | none => false

def compare (key : SortKey) (separator : Option UInt8) (a b : Bytes) : Ordering :=
  key.collation.compare (key.part separator a) (key.part separator b)

end SortKey

/-! ## Sorting -/

def sortTable : OptionTable :=
  { flags := "bcCdfghiMmnRrsuVz", valued := "kotST"
    long := [("ignore-leading-blanks", 'b'), ("dictionary-order", 'd'), ("ignore-case", 'f'),
      ("general-numeric-sort", 'g'), ("human-numeric-sort", 'h'), ("ignore-nonprinting", 'i'),
      ("month-sort", 'M'), ("merge", 'm'), ("numeric-sort", 'n'), ("random-sort", 'R'),
      ("reverse", 'r'), ("stable", 's'), ("unique", 'u'), ("version-sort", 'V'),
      ("zero-terminated", 'z'), ("key", 'k'), ("output", 'o'), ("field-separator", 't'),
      ("buffer-size", 'S'), ("temporary-directory", 'T')]
    longOnly := [("check", .optional), ("sort", .required), ("parallel", .required),
      ("batch-size", .required), ("compress-program", .required), ("random-source", .required),
      ("files0-from", .required), ("debug", .none)] }

/-- The orders by the names that an option may give. -/
def sortKinds : List (String × Char) :=
  [("general-numeric", 'g'), ("human-numeric", 'h'), ("month", 'M'), ("numeric", 'n'), ("random", 'R'),
   ("version", 'V')]

def partsOf (ending : UInt8) (text : Bytes) : List Bytes :=
  let parts := Bytes.fields ending text
  if parts.getLast? = some [] then parts.dropLast else parts

/-- The byte that separates fields, or why there is none. -/
def readSeparator (text : Bytes) : Except Bytes UInt8 :=
  match text with
  | [] => .error (utf8 "empty tab")
  | [c] => .ok c
  | [92, 48] => .ok 0
  | text => .error (utf8 "multi-character tab " ++ quotedName text)

def sort : Utility := fun call =>
  call.withOptions sortTable 2 fun given => do
    let setup : Except Bytes (List SortKey × Option UInt8) := do
      let separator ← match given.value? 't' with
        | none => pure none
        | some text => do pure (some (← readSeparator text))
      return (← (given.values 'k').mapM readKey, separator)
    match setup with
    | .error text =>
      call.complain text
      return 2
    | .ok (keys, separator) =>
      let (found, fine) ← call.contentsOf given.operands fun name cause =>
        call.complain (utf8 (if cause = .isDirectory then "read failed: " else "cannot read: ") ++
          shownName name ++ utf8 ": " ++ utf8 cause.message)
      if !fine then return 2
      let kind := (given.named? "sort").bind fun name => sortKinds.findSome? fun (word, letter) =>
        if (utf8 word) = name then some letter else none
      let letters := given.options.filterMap fun (letter, _) =>
        if (utf8 Collation.letters).contains letter then some (Char.ofNat letter.toNat) else none
      let plain : Collation := (letters ++ kind.toList).foldl (·.with_ true true ·) {}
      let keys := keys.map fun key => if key.collation = {} then { key with collation := plain } else key
      let keys := if keys.isEmpty then [({ collation := plain } : SortKey)] else keys
      let byKeys (a b : Bytes) : Ordering :=
        keys.foldl (fun order key => order.then (key.compare separator a b)) .eq
      let isFree := given.has 'u' || given.has 's'
      let order (a b : Bytes) : Ordering :=
        (byKeys a b).then (if isFree then .eq
          else ({ reverse := plain.reverse } : Collation).compare a b)
      let ending : UInt8 := if given.has 'z' then 0 else 10
      let lines := found.flatMap (partsOf ending)
      let quiet := given.has 'C' || (given.named? "check").any fun way =>
        way = utf8 "quiet" ∨ way = utf8 "silent"
      if quiet || given.has 'c' || given.hasNamed "check" then
        let disorder := (lines.zip (lines.drop 1)).findIdx? fun (a, b) =>
          order a b == .gt || (given.has 'u' && order a b == .eq)
        match disorder with
        | none => return 0
        | some index =>
          if !quiet then
            call.complain (given.operands.headD (utf8 "-") ++ utf8 ":" ++ Bytes.decimal (index + 2) ++
              utf8 ": disorder: " ++ lines.getD (index + 1) [])
          return 1
      else
        let sorted := lines.mergeSort fun a b => order a b != .gt
        let sorted := if given.has 'u' then
            (sorted.foldl (fun (kept : List Bytes) line =>
              if kept.head?.any fun last => byKeys last line == .eq then kept else line :: kept) []).reverse
          else sorted
        let output := sorted.flatMap (· ++ [ending])
        match given.value? 'o' with
        | none => call.print output
        | some name =>
          match ← call.store name output with
          | .ok () => return 0
          | .error cause =>
            call.complain (utf8 "open failed: " ++ shownName name ++ utf8 ": " ++ utf8 cause.message)
            return 2

/-! ## Repeated lines -/

def uniqTable : OptionTable :=
  { flags := "cduizD", valued := "fsw"
    long := [("count", 'c'), ("repeated", 'd'), ("unique", 'u'), ("ignore-case", 'i'),
      ("skip-fields", 'f'), ("skip-chars", 's'), ("check-chars", 'w'), ("zero-terminated", 'z')]
    longOnly := [("all-repeated", .optional), ("group", .optional)] }

def uniq : Utility := fun call =>
  call.withOptions uniqTable 1 fun given => do
    match given.operands with
    | _ :: _ :: extra :: _ => call.misuse (utf8 "extra operand " ++ quotedName extra) 1
    | names =>
      match ← call.contentOf (names.headD (utf8 "-")) with
      | .error cause =>
        call.complainOf (names.headD (utf8 "-")) cause
        return 1
      | .ok text =>
        let ending : UInt8 := if given.has 'z' then 0 else 10
        let key (line : Bytes) : Bytes :=
          let line := afterFields none ((given.number? 'f').getD 0) line
          let line := line.drop ((given.number? 's').getD 0)
          let line := match given.number? 'w' with
            | some width => line.take width
            | none => line
          if given.has 'i' then Bytes.upper line else line
        let groups := (partsOf ending text).splitBy fun a b => key a == key b
        let way := given.named? "all-repeated"
        let shows (lines : List Bytes) : Bytes := lines.flatMap (· ++ [ending])
        let output := if given.has 'D' || way.isSome then
            let repeated := groups.filter fun group => 1 < group.length
            let separated := (repeated.map shows).intersperse [ending]
            if way = some (utf8 "separate") then separated.flatten
            else if way = some (utf8 "prepend") then repeated.flatMap fun group => ending :: shows group
            else repeated.flatMap shows
          else match given.named? "group" with
            | some way =>
              let parts := ((groups.map shows).intersperse [ending]).flatten
              let before := if way = utf8 "prepend" ∨ way = utf8 "both" then [ending] else []
              let after := if way = utf8 "append" ∨ way = utf8 "both" then [ending] else []
              if groups.isEmpty then [] else before ++ parts ++ after
            | none =>
              let groups := groups.filter fun group =>
                (!given.has 'd' || 1 < group.length) && (!given.has 'u' || group.length == 1)
              groups.flatMap fun group =>
                (if given.has 'c' then
                  Format.pad { width := 7 } [] (Bytes.decimal group.length) false ++ [32] else []) ++
                  shows (group.take 1)
        match names with
        | [_, target] =>
          match ← call.store target output with
          | .ok () => return 0
          | .error cause =>
            call.complainOf target cause
            return 1
        | _ => call.print output

/-! ## Two files in order -/

/-- The contents of two files, or why one cannot be read. -/
def twoFiles (call : Call) (names : List Bytes) (run : Bytes → Bytes → Act Nat) : Act Nat := do
  match names with
  | [] => call.misuse (utf8 "missing operand") 1
  | [name] => call.misuse (utf8 "missing operand after " ++ quotedName name) 1
  | [first, second] =>
    match ← call.contentOf first with
    | .error cause =>
      call.complainOf first cause
      return 1
    | .ok a =>
      match ← call.contentOf second with
      | .error cause =>
        call.complainOf second cause
        return 1
      | .ok b => run a b
  | _ :: _ :: extra :: _ => call.misuse (utf8 "extra operand " ++ quotedName extra) 1

/-- Lines with the column in which they stand: of the first file, of the second one, or of both. -/
def mergeLines : (fuel : Nat) → List Bytes → List Bytes → List (Nat × Bytes)
  | 0, _, _ => []
  | _, [], second => second.map ((2, ·))
  | _, first, [] => first.map ((1, ·))
  | fuel + 1, a :: first, b :: second =>
    if a = b then (3, a) :: mergeLines fuel first second
    else if Bytes.le a b then (1, a) :: mergeLines fuel first (b :: second)
    else (2, b) :: mergeLines fuel (a :: first) second

def isSorted (lines : List Bytes) : Bool :=
  (lines.zip (lines.drop 1)).all fun (a, b) => Bytes.le a b

def commTable : OptionTable :=
  { flags := "123z", long := [("zero-terminated", 'z')]
    longOnly := [("check-order", .none), ("nocheck-order", .none), ("output-delimiter", .required),
      ("total", .none)] }

def comm : Utility := fun call =>
  call.withOptions commTable 1 fun given =>
    twoFiles call given.operands fun a b => do
      let ending : UInt8 := if given.has 'z' then 0 else 10
      let (first, second) := (partsOf ending a, partsOf ending b)
      let separator := (given.named? "output-delimiter").getD [9]
      let separator := if separator.isEmpty then [0] else separator
      let hides (column : Nat) : Bool := given.has (Char.ofNat (48 + column))
      let lead (column : Nat) : Bytes :=
        ((List.range column).filter fun k => 0 < k && !hides k).flatMap fun _ => separator
      let merged := mergeLines (first.length + second.length + 1) first second
      let output := merged.flatMap fun (column, line) =>
        if hides column then [] else lead column ++ line ++ [ending]
      let count (column : Nat) : Bytes := Bytes.decimal (merged.countP (·.1 == column))
      let total := if given.hasNamed "total" then
          Bytes.join separator [count 1, count 2, count 3, utf8 "total"] ++ [ending]
        else []
      let isMatched := merged.all (·.1 == 3)
      let checked := !given.hasNamed "nocheck-order" && (!isMatched || given.hasNamed "check-order")
      let disorder := if !checked then [] else
        (if isSorted first then [] else [utf8 "1"]) ++ (if isSorted second then [] else [utf8 "2"])
      let status ← call.print (output ++ total)
      for file in disorder do
        call.complain (utf8 "file " ++ file ++ utf8 " is not in sorted order")
      if disorder.isEmpty then return status
      call.complain (utf8 "input is not in sorted order")
      return 1

/-! ## Joining -/

/-- How lines are joined. -/
structure Joining where
  separator : Option UInt8 := none
  fold : Bool := false
  /-- The fields by which lines are joined. -/
  firstField : Nat := 0
  secondField : Nat := 0
  /-- What stands for fields that are missing. -/
  empty : Bytes := []
  /-- The fields that are shown: of the first file, of the second one, or the one by which lines are
      joined. -/
  shown : Option (List (Nat × Nat)) := none
  /-- The numbers of fields that the first lines have, where those fix what is shown. -/
  auto : Option (Nat × Nat) := none

namespace Joining

def fields (joining : Joining) (line : Bytes) : List Bytes :=
  match joining.separator with
  | some c => Bytes.fields c line
  | none => (Bytes.fields 32 (line.map fun c => if c = 9 then 32 else c)).filter (!·.isEmpty)

def key (joining : Joining) (field : Nat) (line : List Bytes) : Bytes :=
  let text := line.getD field []
  if joining.fold then Bytes.upper text else text

/-- The text of two lines that are joined, of which one may be missing. -/
def text (joining : Joining) (first second : Option (List Bytes)) : Bytes :=
  let mark : Bytes := [joining.separator.getD 32]
  let field (line : Option (List Bytes)) (index : Nat) : Bytes :=
    match line.bind (·[index]?) with
    | some text => if text.isEmpty then joining.empty else text
    | none => joining.empty
  let key := match first with
    | some _ => field first joining.firstField
    | none => field second joining.secondField
  let others (line : Option (List Bytes)) (index : Nat) (count : Option Nat) : List Bytes :=
    match count, line with
    | some count, line => ((List.range count).filter (· != index)).map (field line)
    | none, some line => ((List.range line.length).filter (· != index)).map (field (some line))
    | none, none => []
  let cells := match joining.shown with
    | some shown => shown.map fun (file, index) =>
      if file = 0 then key else field (if file = 1 then first else second) index
    | none => key :: others first joining.firstField (joining.auto.map (·.1 - 0)) ++
        others second joining.secondField (joining.auto.map (·.2))
  Bytes.join mark cells

end Joining

def readShown (text : Bytes) : Option (List (Nat × Nat)) :=
  let parts := (Bytes.fields 32 (text.map fun c => if c = 44 ∨ c = 9 then 32 else c)).filter (!·.isEmpty)
  parts.mapM fun part =>
    if part = utf8 "0" then some (0, 0)
    else match part with
      | file :: 46 :: digits =>
        if (file = 49 ∨ file = 50) ∧ Bytes.allDigits digits ∧ Bytes.digitsValue digits ≠ 0 then
          some (file.toNat - 48, Bytes.digitsValue digits - 1)
        else none
      | _ => none

/-- Groups of lines that are joined: those of both files with the same key, or of one file alone. -/
def joinGroups (a b : List (Bytes × List Bytes)) : (fuel : Nat) →
    List (List (List Bytes) × List (List Bytes))
  | 0 => []
  | fuel + 1 =>
    match a, b with
    | [], [] => []
    | (_, line) :: rest, [] => ([line], []) :: joinGroups rest [] fuel
    | [], (_, line) :: rest => ([], [line]) :: joinGroups [] rest fuel
    | (key, line) :: restA, (other, line') :: restB =>
      if key = other then
        let sameA := (a.takeWhile (·.1 == key)).map Prod.snd
        let sameB := (b.takeWhile (·.1 == key)).map Prod.snd
        (sameA, sameB) :: joinGroups (a.drop sameA.length) (b.drop sameB.length) fuel
      else if Bytes.le key other then ([line], []) :: joinGroups restA b fuel
      else ([], [line']) :: joinGroups a restB fuel

def joinTable : OptionTable :=
  { flags := "iz", valued := "a12jeotv", long := [("ignore-case", 'i'), ("zero-terminated", 'z')]
    longOnly := [("check-order", .none), ("nocheck-order", .none), ("header", .none)] }

def join : Utility := fun call =>
  call.withOptions joinTable 1 fun given => do
    let field (letter : Char) : Nat :=
      (((given.number? letter).or (given.number? 'j')).getD 1) - 1
    let separator := (given.value? 't').map fun text => if text = utf8 "\\0" then 0 else text.headD 10
    let isAuto := given.value? 'o' == some (utf8 "auto")
    let shown := (given.values 'o').foldl (fun found text =>
      if text = utf8 "auto" then found else some (found.getD [] ++ (readShown text).getD [])) none
    match (given.values 'o').find? fun text => text ≠ utf8 "auto" && (readShown text).isNone with
    | some text =>
      call.complain (utf8 "invalid field specifier: " ++ quotedName text)
      return 1
    | none =>
      twoFiles call given.operands fun a b => do
        let ending : UInt8 := if given.has 'z' then 0 else 10
        let joining : Joining :=
          { separator, fold := given.has 'i', firstField := field '1', secondField := field '2'
            empty := (given.value? 'e').getD [], shown }
        let (first, second) := (partsOf ending a, partsOf ending b)
        let read (field : Nat) (lines : List Bytes) : List (Bytes × List Bytes) :=
          lines.map fun line => (joining.key field (joining.fields line), joining.fields line)
        let (linesA, linesB) := (read joining.firstField first, read joining.secondField second)
        let width (lines : List (Bytes × List Bytes)) : Nat :=
          ((lines.head?).map (·.2.length)).getD 0
        let joining := if isAuto then { joining with auto := some (width linesA, width linesB) }
          else joining
        let hasHeader := given.hasNamed "header"
        let header := if hasHeader then
            match linesA.head?, linesB.head? with
            | none, none => []
            | a, b => joining.text (a.map Prod.snd) (b.map Prod.snd) ++ [ending]
          else []
        let (linesA, linesB) := if hasHeader then (linesA.drop 1, linesB.drop 1) else (linesA, linesB)
        let groups := joinGroups linesA linesB (linesA.length + linesB.length + 1)
        let asked (file : UInt8) : Bool :=
          (given.values 'a' ++ given.values 'v').any (·.head? == some file)
        let pairs := !given.has 'v'
        let output := groups.flatMap fun (sameA, sameB) =>
          if sameB.isEmpty then
            if asked 49 then sameA.flatMap fun line => joining.text (some line) none ++ [ending] else []
          else if sameA.isEmpty then
            if asked 50 then sameB.flatMap fun line => joining.text none (some line) ++ [ending] else []
          else if pairs then
            sameA.flatMap fun a => sameB.flatMap fun b => joining.text (some a) (some b) ++ [ending]
          else []
        let unpaired := groups.any fun (sameA, sameB) => sameA.isEmpty || sameB.isEmpty
        let checked := !given.hasNamed "nocheck-order" && (unpaired || given.hasNamed "check-order")
        let disorder (name : Bytes) (lines : List (Bytes × List Bytes)) (texts : List Bytes) :
            List Bytes :=
          if !checked then []
          else match (lines.zip (lines.drop 1)).findIdx? fun (a, b) => !Bytes.le a.1 b.1 with
            | some index =>
              let number := index + 1 + if hasHeader then 1 else 0
              [name ++ utf8 ":" ++ Bytes.decimal (number + 1) ++ utf8 ": is not sorted: " ++
                texts.getD number []]
            | none => []
        let faults := disorder (given.operands.getD 0 []) linesA first ++
          disorder (given.operands.getD 1 []) linesB second
        let status ← call.print (header ++ output)
        for fault in faults do call.complain fault
        if faults.isEmpty then return status
        call.complain (utf8 "input is not in sorted order")
        return 1

/-! ## Order of things that depend on one another -/

/-- Takes away the things that nothing left depends on, in turn. Each edge says that its first thing
    comes before its second. -/
def orderThings : (fuel : Nat) → (things : List Bytes) → (edges : List (Bytes × Bytes)) →
    List Bytes × List Bytes
  | 0, things, _ => ([], things)
  | fuel + 1, things, edges =>
    let free := things.filter fun thing => !edges.any (·.2 == thing)
    match free with
    | [] => ([], things)
    | free =>
      let (sorted, stuck) := orderThings fuel (things.filter (!free.contains ·))
        (edges.filter fun edge => !free.contains edge.1)
      (free ++ sorted, stuck)

def tsort : Utility := fun call =>
  call.withOptions {} 1 fun given => do
    match ← call.contentOf (given.operands.headD (utf8 "-")) with
    | .error cause =>
      call.complainOf (given.operands.headD (utf8 "-")) cause
      return 1
    | .ok text =>
      let words := (Bytes.fields 32 (text.map fun c => if Bytes.isBlank c then 32 else c)).filter
        (!·.isEmpty)
      if words.length % 2 = 1 then
        call.complain (given.operands.headD (utf8 "-") ++ utf8 ": input contains an odd number of tokens")
        return 1
      else
        let rec pairs : List Bytes → List (Bytes × Bytes)
          | a :: b :: rest => (a, b) :: pairs rest
          | _ => []
        let edges := (pairs words).filter fun (a, b) => a != b
        let things := words.eraseDups.mergeSort Bytes.le
        let (sorted, stuck) := orderThings (things.length + 1) things edges.eraseDups
        if stuck.isEmpty then call.print (textOfLines sorted)
        else
          call.complain (given.operands.headD (utf8 "-") ++ utf8 ": input contains a loop:")
          for thing in stuck do call.complain thing
          call.print (textOfLines (sorted ++ stuck)) 1

/-- The utilities of this kind by name. -/
def sorting : List (String × Utility) :=
  [("comm", comm), ("join", join), ("sort", sort), ("tsort", tsort), ("uniq", uniq)]

end ShellCompletion.Utility
