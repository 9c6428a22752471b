import ShellCompletion.Command.Regex.Posix
import ShellCompletion.Command.Utility.Files
import ShellCompletion.Command.Utility.Text

/-!
# Utilities that cut files

The standard programs that make several files of one, or a file shorter or longer, and that put lines
into another order.
-/
namespace ShellCompletion.Utility

/-! ## Equal pieces -/

namespace Splitting

/-- How the names of the pieces end. -/
structure Naming where
  alphabet : Bytes := (List.range 26).map fun k => UInt8.ofNat (97 + k)
  /-- How long the ends are; without a fixed length they get longer as there are more. -/
  length : Nat := 2
  fixed : Bool := false
  /-- The number of the first piece. -/
  first : Nat := 0

/-- A number in the digits of an alphabet, so many of them. -/
def Naming.digits (naming : Naming) : (length n : Nat) → Bytes
  | 0, _ => []
  | length + 1, n =>
    let base := naming.alphabet.length
    naming.digits length (n / base) ++ (naming.alphabet.drop (n % base)).take 1

/-- The end of a name where ends get longer: behind as many of the last letter as it has been used up.
    `fuel` bounds that. -/
def Naming.growing (naming : Naming) : (fuel length n : Nat) → Bytes
  | 0, _, _ => []
  | fuel + 1, length, n =>
    let base := naming.alphabet.length
    let count := (base - 1) * Nat.pow base (length - 1)
    if n < count then naming.digits length n
    else naming.alphabet.drop (base - 1) ++ naming.growing fuel (length + 1) (n - count)

/-- The end of the name of a piece, unless there are too many of them. -/
def Naming.name? (naming : Naming) (n : Nat) : Option Bytes :=
  if naming.fixed then
    let n := n + naming.first
    if Nat.pow naming.alphabet.length naming.length ≤ n then none else some (naming.digits naming.length n)
  else some (naming.growing (n + 1) naming.length n)

/-- How a text is cut. -/
inductive Cut where
  | lines (count : Nat)
  | bytes (count : Nat)
  /-- Whole lines as long as they fit. -/
  | fitting (size : Nat)
  /-- So many pieces of bytes, of lines, or of lines in turn. -/
  | pieces (kind : Option UInt8) (count : Nat)

/-- Whole lines up to a size; a longer one is cut. `fuel` bounds the pieces. -/
def fittingPieces (size : Nat) : (fuel : Nat) → Bytes → List Bytes
  | 0, _ => []
  | fuel + 1, text =>
    if text.isEmpty then []
    else
      let start := text.take size
      let whole := if text.length ≤ size then text
        else (start.reverse.dropWhile (· != 10)).reverse
      let piece := if whole.isEmpty then start else whole
      piece :: fittingPieces size fuel (text.drop piece.length)

/-- Lists of so many elements. `fuel` bounds them. -/
def blocks {α : Type} (size : Nat) : (fuel : Nat) → List α → List (List α)
  | 0, _ => []
  | fuel + 1, items => if items.isEmpty then [] else items.take size :: blocks size fuel (items.drop size)

def linesEndedBy (ending : UInt8) (text : Bytes) : List Bytes :=
  let parts := Bytes.fields ending text
  parts.dropLast.map (· ++ [ending]) ++ parts.getLast?.toList.filter (!·.isEmpty)

/-- Where a piece of bytes starts. -/
def startOf (size count index : Nat) : Nat := index * (size / count) + min index (size % count)

def Cut.apply (cut : Cut) (ending : UInt8) (text : Bytes) : List Bytes :=
  match cut with
  | .lines count => (blocks count (text.length + 1) (linesEndedBy ending text)).map List.flatten
  | .bytes count => blocks count (text.length + 1) text
  | .fitting size => fittingPieces size (text.length + 1) text
  | .pieces none count =>
    (List.range count).map fun k =>
      let start := startOf text.length count k
      (text.drop start).take (startOf text.length count (k + 1) - start)
  | .pieces (some 108) count =>
    let placed := (linesEndedBy ending text).foldl (fun (found, place) line =>
      ((place, line) :: found, place + line.length)) (([] : List (Nat × Bytes)), 0)
    let placed := placed.1.reverse
    (List.range count).map fun k =>
      let (low, high) := (startOf text.length count k, startOf text.length count (k + 1))
      (placed.filter fun entry => decide (low ≤ entry.1 ∧ entry.1 < high)).flatMap Prod.snd
  | .pieces (some _) count =>
    let lines := (linesEndedBy ending text).zipIdx
    (List.range count).map fun k => (lines.filter fun entry => entry.2 % count == k).flatMap Prod.fst

/-- Reads how many pieces are wanted, of which kind, and which of them if not all. -/
def readPieces (text : Bytes) : Option (Option UInt8 × Nat × Option Nat) :=
  let kind := match text with
    | c :: 47 :: _ => if c = 'l'.toUInt8 || c = 'r'.toUInt8 then some c else none
    | _ => none
  let number (digits : Bytes) : Option Nat :=
    if Bytes.allDigits digits && Bytes.digitsValue digits != 0 then some (Bytes.digitsValue digits) else none
  match (Bytes.fields 47 (if kind.isSome then text.drop 2 else text)).map number with
  | [some count] => some (kind, count, none)
  | [some index, some count] => if index ≤ count then some (kind, count, some (index - 1)) else none
  | _ => none

/-- The least length of names for so many pieces. `fuel` bounds it. -/
def lengthFor (base : Nat) : (fuel count : Nat) → Nat
  | 0, _ => 1
  | fuel + 1, count => if count ≤ base then 1 else lengthFor base fuel ((count + base - 1) / base) + 1

end Splitting

/-- Makes several files of one. -/
def split : Utility := fun call =>
  let table : OptionTable :=
    { flags := "deux0123456789", valued := "abClnt"
      long := [("suffix-length", 'a'), ("bytes", 'b'), ("line-bytes", 'C'), ("elide-empty-files", 'e'),
        ("lines", 'l'), ("number", 'n'), ("separator", 't'), ("unbuffered", 'u')]
      longOnly := [("additional-suffix", .required), ("numeric-suffixes", .optional),
        ("hex-suffixes", .optional), ("verbose", .none)] }
  call.withOptions table 1 fun given => do
    let refuse (text : Bytes) : Act Nat := do
      call.complain text
      return 1
    let digits := (given.options.filter fun option => Bytes.isDigit option.1).map Prod.fst
    let kinds := (if digits.isEmpty then [] else [('l'.toUInt8, digits)]) ++
      given.options.filter fun option => (utf8 "bCln").contains option.1
    let size? (text : Bytes) : Option Nat :=
      match readExtent true text with
      | some extent => if extent.count = 0 || extent.sign.isSome then none else some extent.count
      | none => none
    let cut : Except Bytes (Splitting.Cut × Option Nat) := match kinds with
      | [] => .ok (.lines 1000, none)
      | (letter, text) :: _ =>
        let sized (what : String) (make : Nat → Splitting.Cut) : Except Bytes (Splitting.Cut × Option Nat) :=
          match size? text with
          | some n => .ok (make n, none)
          | none => .error (utf8 "invalid number of " ++ utf8 what ++ utf8 ": " ++ quotedName text)
        if letter = 'l'.toUInt8 then sized "lines" .lines
        else if letter = 'b'.toUInt8 then sized "bytes" .bytes
        else if letter = 'C'.toUInt8 then sized "bytes" .fitting
        else match Splitting.readPieces text with
          | some (kind, count, index) => .ok (.pieces kind count, index)
          | none => .error (utf8 "invalid number of chunks: " ++ quotedName text)
    let isHex := given.has 'x' || given.hasNamed "hex-suffixes"
    let isNumeric := given.has 'd' || given.hasNamed "numeric-suffixes"
    let from_ := ((given.named? "numeric-suffixes").or (given.named? "hex-suffixes")).getD []
    let alphabet := if isHex then utf8 "0123456789abcdef" else if isNumeric then utf8 "0123456789"
      else ({} : Splitting.Naming).alphabet
    let first := if isHex then Bytes.valueIn 16 from_ else Bytes.digitsValue from_
    let needed := match cut with
      | .ok (.pieces _ count, _) => max 2 (Splitting.lengthFor alphabet.length 64 (count + first))
      | _ => 2
    let counted := match cut with
      | .ok (.pieces .., _) => true
      | _ => false
    let length := (given.number? 'a').filter (· != 0)
    let naming : Splitting.Naming :=
      { alphabet, first, length := length.getD needed, fixed := length.isSome || counted || !from_.isEmpty }
    let separator := (given.value? 't').getD [10]
    if 1 < kinds.length then return ← call.misuse (utf8 "cannot split in more than one way") 1
    match cut, given.operands with
    | .error fault, _ => refuse fault
    | .ok _, _ :: _ :: other :: _ => call.misuse (utf8 "extra operand " ++ quotedName other) 1
    | .ok (cut, index), operands =>
      if given.has 'a' && (given.number? 'a').isNone then
        return ← refuse (utf8 "invalid suffix length: " ++ quotedName ((given.value? 'a').getD []))
      let ending ← match separator with
        | [c] => pure c
        | text =>
          if text = utf8 "\\0" then pure 0
          else return ← refuse (if text.isEmpty then utf8 "empty record separator"
            else utf8 "multi-character separator " ++ quotedName text)
      let source := operands.headD (utf8 "-")
      let start := (operands.drop 1).headD (utf8 "x")
      match ← call.contentOf source with
      | .error cause =>
        let start := if cause == .isDirectory then shownName source ++ utf8 ": read error: "
          else utf8 "cannot open " ++ quotedName source ++ utf8 " for reading: "
        refuse (start ++ utf8 cause.message)
      | .ok text =>
        let pieces := cut.apply ending text
        match index with
        | some index => call.print (pieces.getD index [])
        | none =>
          let pieces := if given.has 'e' then pieces.filter (!·.isEmpty) else pieces
          for (piece, index) in pieces.zipIdx do
            let some name := naming.name? index | return ← refuse (utf8 "output file suffixes exhausted")
            let path := start ++ name ++ (given.named? "additional-suffix").getD []
            if given.hasNamed "verbose" then
              let _ ← call.put (utf8 "creating file " ++ quotedName path ++ [10])
            match ← call.store path piece with
            | .ok () => pure ()
            | .error cause => return ← refuse (shownName path ++ utf8 ": " ++ utf8 cause.message)
          return 0

/-! ## Pieces by their content -/

namespace Sections

/-- Where a piece ends: before a line, or by a line that an expression matches. -/
inductive Border where
  | line (number : Nat)
  | text (word : Bytes) (regex : Regex) (offset : Int) (skips : Bool)

/-- A border and how often it is looked for again; none is as often as possible. -/
abbrev Mark := Border × Option Nat

/-- Reads the words that say where pieces end. A repetition may come first if it `follows` another one. -/
def readMarks : (follows : Bool) → List Bytes → Except Bytes (List Mark)
  | _, [] => .ok []
  | follows, word :: rest => do
    let isRepetition (word : Bytes) : Bool := word.head? = some 0x7b && word.getLast? = some 0x7d
    let marks ← readMarks (!isRepetition word) rest
    let invalid : Except Bytes (List Mark) := .error (quotedName word ++ utf8 ": invalid pattern")
    let repeated ← match rest with
      | next :: _ =>
        if !isRepetition next then Except.ok (some 0)
        else if next = utf8 "\x7b*\x7d" then .ok none
        else
          let digits := (next.drop 1).dropLast
          if Bytes.allDigits digits then .ok (some (Bytes.digitsValue digits))
          else .error (quotedName next ++ utf8 ": integer expected between '\x7b' and '\x7d'")
      | [] => .ok (some 0)
    match word with
    | [] => invalid
    | c :: more =>
      if c = '/'.toUInt8 || c = '%'.toUInt8 then
        let behind := more.reverse.dropWhile (· != c)
        if behind.isEmpty then
          .error (word ++ utf8 ": closing delimiter '" ++ [c] ++ utf8 "' missing")
        else
          let pattern := (behind.drop 1).reverse
          let offset := more.drop (pattern.length + 1)
          match Regex.read {} pattern with
          | .error cause =>
            .error (quotedName word ++ utf8 ": invalid regular expression: " ++ utf8 cause.message)
          | .ok regex =>
            if offset.isEmpty then return (.text word regex 0 (c = '%'.toUInt8), repeated) :: marks
            match Bytes.readInteger offset with
            | some offset => return (.text word regex offset (c = '%'.toUInt8), repeated) :: marks
            | none => .error (quotedName word ++ utf8 ": integer expected after delimiter")
      else if follows && isRepetition word then return marks
      else if Bytes.allDigits word then
        if Bytes.digitsValue word = 0 then .error (word ++ utf8 ": line number must be greater than zero")
        else return (.line (Bytes.digitsValue word), repeated) :: marks
      else invalid

/-- What has been cut off, and what is left of the lines. -/
structure Cutting where
  pieces : List Bytes := []
  lines : List Bytes
  /-- The number of the first of the lines that are left. -/
  first : Nat := 1
  /-- The number of the line that was looked at last. -/
  seen : Nat := 0

/-- Goes on behind so many lines. -/
def Cutting.advance (cutting : Cutting) (count : Nat) : Cutting :=
  let first := cutting.first + count
  { cutting with
    lines := cutting.lines.drop count, first
    seen := if count = 0 then cutting.seen else max cutting.seen (first - 1) }

/-- Cuts off so many lines as a piece. -/
def Cutting.take (cutting : Cutting) (count : Nat) (kept : Bool) : Cutting :=
  let piece := (cutting.lines.take count).flatten
  let cutting := cutting.advance count
  if kept then { cutting with pieces := piece :: cutting.pieces } else cutting

/-- All of the lines as the last piece. -/
def Cutting.finish (cutting : Cutting) : Cutting := cutting.take cutting.lines.length true

/-- How it goes on behind a border: with what is left, to the end, or not at all. -/
inductive Progress where
  | further (cutting : Cutting)
  | done (cutting : Cutting)
  | fault (text : Bytes) (cutting : Cutting)

def cutOnce (suppresses : Bool) (border : Border) (endless : Bool) (round : Nat) (cutting : Cutting) : Progress :=
  let again := if round = 0 then [] else utf8 " on repetition " ++ Bytes.decimal round
  match border with
  | .line number =>
    let outside := quotedName (Bytes.decimal number) ++ utf8 ": line number out of range" ++ again
    let count := number * (round + 1) - cutting.first
    if cutting.lines.length < count then .fault outside cutting.finish
    else
      let cutting := cutting.take count true
      if cutting.lines.isEmpty then .fault outside cutting
      else .further (if suppresses then cutting.advance 1 else cutting)
  | .text word regex offset skips =>
    let start := cutting.seen + 1 - cutting.first
    let bare (line : Bytes) : Bytes := if line.getLast? = some 10 then line.dropLast else line
    match (cutting.lines.drop start).findIdx? fun line => Regex.accepts regex (bare line) with
    | none =>
      if endless then .done (if skips then cutting else cutting.finish)
      else .fault (quotedName word ++ utf8 ": match not found" ++ again)
        (if skips then cutting else cutting.finish)
    | some index =>
      let place : Int := (start + index : Nat) + offset
      let seen := cutting.first + start + index
      if place < 0 || (cutting.lines.length : Int) < place then
        .fault (quotedName word ++ utf8 ": line number out of range")
          (if skips then cutting else if place < 0 then { cutting with pieces := [] :: cutting.pieces }
            else cutting.finish)
      else
        let next := cutting.take place.toNat (!skips)
        let next := { next with seen := if 0 < offset then next.first else seen }
        .further (if suppresses then next.advance 1 else next)

/-- Cuts at a border again and again. `fuel` bounds how often. -/
def cutAgain (suppresses : Bool) (mark : Mark) : (fuel round : Nat) → Cutting → Progress
  | 0, _, cutting => .further cutting
  | fuel + 1, round, cutting =>
    if mark.2.any (· < round) then .further cutting
    else match cutOnce suppresses mark.1 mark.2.isNone round cutting with
      | .further next => cutAgain suppresses mark fuel (round + 1) next
      | ending => ending

def cutAll (suppresses : Bool) : List Mark → Cutting → Progress
  | [], cutting => .done cutting.finish
  | mark :: marks, cutting =>
    let fuel := match mark.2 with
      | some count => min (count + 2) (cutting.lines.length + 2)
      | none => cutting.lines.length + 2
    match cutAgain suppresses mark fuel 0 cutting with
    | .further next => cutAll suppresses marks next
    | ending => ending

/-- A number of a line that is smaller than one before, and that one. -/
def misplaced? : (last : Nat) → List Mark → Option (Nat × Nat)
  | _, [] => none
  | last, (.line number, _) :: marks =>
    if number < last then some (number, last) else misplaced? number marks
  | last, _ :: marks => misplaced? last marks

/-- The numbers of lines that are the same as the one before. -/
def doubled (marks : List Mark) : List Nat :=
  let numbers := marks.filterMap fun mark => match mark.1 with
    | .line number => some number
    | .text .. => none
  (numbers.zip (numbers.drop 1)).filterMap fun (a, b) => if a = b then some a else none

end Sections

/-- Makes several files of one, which is cut at lines that are told by their numbers or by what they
    hold. -/
def csplit : Utility := fun call =>
  let table : OptionTable :=
    { flags := "kqsz", valued := "bfn"
      long := [("suffix-format", 'b'), ("prefix", 'f'), ("keep-files", 'k'), ("digits", 'n'), ("quiet", 'q'),
        ("silent", 's'), ("elide-empty-files", 'z')]
      longOnly := [("suppress-matched", .none)] }
  call.withOptions table 1 fun given => do
    let refuse (text : Bytes) : Act Nat := do
      call.complain text
      return 1
    match given.operands with
    | [] => call.misuse (utf8 "missing operand") 1
    | [only] => call.misuse (utf8 "missing operand after " ++ quotedName only) 1
    | source :: words =>
      match Sections.readMarks false words with
      | .error fault => refuse fault
      | .ok marks =>
        if let some (number, last) := Sections.misplaced? 0 marks then
          return ← refuse (utf8 "line number " ++ quotedName (Bytes.decimal number) ++
            utf8 " is smaller than preceding line number, " ++ Bytes.decimal last)
        for number in Sections.doubled marks do
          call.complain (utf8 "warning: line number " ++ quotedName (Bytes.decimal number) ++
            utf8 " is the same as preceding line number")
        match ← call.contentOf source with
        | .error cause =>
          refuse (utf8 "cannot open " ++ quotedName source ++ utf8 " for reading: " ++ utf8 cause.message)
        | .ok text =>
          let (cutting, fault) := match Sections.cutAll (given.hasNamed "suppress-matched") marks
              { lines := linesWithEnds text } with
            | .further cutting | .done cutting => (cutting, none)
            | .fault text cutting => (cutting, some text)
          let pieces := cutting.pieces.reverse
          let pieces := if given.has 'z' then pieces.filter (!·.isEmpty) else pieces
          let start := (given.value? 'f').getD (utf8 "xx")
          let nameOf (index : Nat) : Bytes :=
            let digits := Bytes.decimal index
            start ++ match given.value? 'b' with
              | some format => (Format.print Format.utility format [digits]).text
              | none => List.replicate (((given.number? 'n').getD 2) - digits.length) 48 ++ digits
          for (piece, index) in pieces.zipIdx do
            match ← call.store (nameOf index) piece with
            | .ok () =>
              if fault.isSome && !given.has 'k' then
                let machine ← Act.look id
                if let .ok place := machine.files.locate call.directory (nameOf index) then removePlace place
            | .error cause => return ← refuse (shownName (nameOf index) ++ utf8 ": " ++ utf8 cause.message)
          if let some text := fault then call.complain text
          let sizes := if given.has 's' || given.has 'q' then []
            else pieces.map fun piece => Bytes.decimal piece.length
          call.print (textOfLines sizes) (if fault.isSome then 1 else 0)

/-! ## Sizes -/

/-- The size that a file gets, from the size that it has and a text that may start with a sign; none if
    that makes no sense. -/
def newSize (size : Nat) (text : Bytes) : Option (Except Bytes Nat) :=
  let sign := (text.head?).filter fun c => (utf8 "+-<>/%").contains c
  let rest := text.drop sign.toList.length
  match readExtent true rest with
  | none => none
  | some extent =>
    let n := extent.count
    let is (c : Char) : Bool := sign == some c.toUInt8
    if extent.sign.isSome then none
    else if (is '/' || is '%') && n = 0 then some (.error (utf8 "division by zero"))
    else some (.ok (if is '+' then size + n else if is '-' then size - n
      else if is '<' then min size n else if is '>' then max size n
      else if is '/' then size / n * n else if is '%' then (size + n - 1) / n * n else n))

/-- Gives files the size that is wanted. -/
def truncate : Utility := fun call =>
  let table : OptionTable :=
    { flags := "co", valued := "rs"
      long := [("no-create", 'c'), ("io-blocks", 'o'), ("reference", 'r'), ("size", 's')] }
  call.withOptions table 1 fun given => do
    let refuse (text : Bytes) : Act Nat := do
      call.complain text
      return 1
    let asked := given.value? 's'
    if asked.isNone && !given.has 'r' then
      return ← call.misuse (utf8 "you must specify either '--size' or '--reference'") 1
    match asked.bind fun text => match newSize 0 text with
        | none => some (utf8 "Invalid number: " ++ quotedName text)
        | some (.error fault) => some fault
        | some (.ok _) => none with
    | some fault => refuse fault
    | none =>
      if given.operands.isEmpty then return ← call.misuse (utf8 "missing file operand") 1
      let like ← match given.value? 'r' with
        | none => pure none
        | some name => match ← call.contentOf name with
          | .ok text => pure (some text.length)
          | .error cause => return ← refuse (utf8 "cannot stat " ++ quotedName name ++ utf8 ": " ++ utf8 cause.message)
      let mut status := 0
      for name in given.operands do
        let machine ← Act.look id
        let old := match (machine.files.locate call.directory name).toOption.bind machine.tree.node? with
          | some (.file content _) => some content
          | _ => none
        if old.isNone && given.has 'c' && !machine.files.exists? call.directory name then continue
        let content := old.getD []
        let size := match asked, like with
          | some text, like => match newSize (like.getD content.length) text with
            | some (.ok size) => size
            | _ => 0
          | none, like => like.getD 0
        let new := content.take size ++ List.replicate (size - content.length) 0
        match ← call.store name new with
        | .ok () => pure ()
        | .error cause =>
          call.complain (utf8 "cannot open " ++ quotedName name ++ utf8 " for writing: " ++ utf8 cause.message)
          status := 1
      return status

/-! ## Order -/

/-- Puts lines into an order that nobody can tell; it happens to be the one that they have. -/
def shuf : Utility := fun call =>
  let table : OptionTable :=
    { flags := "erz", valued := "ino"
      long := [("echo", 'e'), ("input-range", 'i'), ("head-count", 'n'), ("output", 'o'), ("repeat", 'r'),
        ("zero-terminated", 'z')]
      longOnly := [("random-source", .required)] }
  call.withOptions table 1 fun given => do
    let refuse (text : Bytes) : Act Nat := do
      call.complain text
      return 1
    let ending : UInt8 := if given.has 'z' then 0 else 10
    let range? (text : Bytes) : Option (Nat × Nat) :=
      match Bytes.fields '-'.toUInt8 text with
      | [low, high] =>
        if Bytes.allDigits low && Bytes.allDigits high then some (Bytes.digitsValue low, Bytes.digitsValue high)
        else none
      | _ => none
    let limits := (given.values 'n').map fun text => (text, if Bytes.allDigits text then some (Bytes.digitsValue text) else none)
    if let some (text, _) := limits.find? (·.2.isNone) then
      return ← refuse (utf8 "invalid line count: " ++ quotedName text)
    let limit := (limits.filterMap Prod.snd).foldl (fun least n => some (min n (least.getD n))) (none : Option Nat)
    if let some text := given.value? 'i' then
      let isFine := (range? text).any fun (low, high) => decide (low ≤ high + 1)
      if !isFine then return ← refuse (utf8 "invalid input range: " ++ quotedName text)
      if given.has 'e' then return ← call.misuse (utf8 "cannot combine -e and -i options") 1
    let extra := if given.has 'e' then none
      else (given.operands.drop (if given.has 'i' then 0 else 1)).head?
    if let some word := extra then return ← call.misuse (utf8 "extra operand " ++ quotedName word) 1
    let lines ← match given.value? 'i' with
      | some text =>
        let (low, high) := (range? text).getD (1, 0)
        pure (Except.ok ((List.range (high + 1 - low)).map fun k => Bytes.decimal (low + k)))
      | none =>
        if given.has 'e' then pure (.ok given.operands)
        else do
          let name := given.operands.headD (utf8 "-")
          match ← call.contentOf name with
          | .ok text =>
            let parts := Bytes.fields ending text
            pure (.ok (if parts.getLast? = some [] then parts.dropLast else parts))
          | .error cause => pure (.error (shownName name ++ utf8 ": " ++ utf8 cause.message))
    match lines with
    | .error fault => refuse fault
    | .ok lines =>
      let chosen := if given.has 'r' && !lines.isEmpty then
          match limit with
          | some n => (List.range n).map fun k => lines.getD (k % lines.length) []
          | none => lines
        else match limit with
          | some n => lines.take n
          | none => lines
      if given.has 'r' && lines.isEmpty && limit != some 0 then
        return ← refuse (utf8 "no lines to repeat")
      let text := chosen.flatMap (· ++ [ending])
      match given.value? 'o' with
      | none =>
        if given.has 'r' && limit.isNone then repeatText call text Act.maxText else call.print text
      | some path => match ← call.store path text with
        | .ok () => return 0
        | .error cause => refuse (shownName path ++ utf8 ": " ++ utf8 cause.message)

/-- The utilities of this kind by name. -/
def cutting : List (String × Utility) :=
  [("csplit", csplit), ("shuf", shuf), ("split", split), ("truncate", truncate)]

end ShellCompletion.Utility
