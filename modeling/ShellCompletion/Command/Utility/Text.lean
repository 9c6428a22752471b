import ShellCompletion.Command.Format
import ShellCompletion.Command.Pattern
import ShellCompletion.Command.Utility.Basic

/-!
# Utilities for texts

The standard programs that print texts, and those that make a text of the lines or bytes of another
one.
-/
namespace ShellCompletion.Utility

/-! ## Printing -/

def echo : Utility := fun call => call.print (Format.plainEcho call.arguments)

def printf : Utility := fun call => do
  let words := if call.arguments.head? = some (utf8 "--") then call.arguments.drop 1
    else call.arguments
  match words with
  | [] => call.misuse (utf8 "missing operand") 1
  | format :: arguments =>
    let printed := Format.print Format.utility format arguments
    let mut fine := true
    let mut place := 0
    for (next, fault) in printed.faults do
      fine := (← call.put ((printed.text.drop place).take (next - place))) && fine
      call.complain fault
      place := next
    fine := (← call.put (printed.text.drop place)) && fine
    match printed.invalid with
    | none => return if fine && printed.faults.isEmpty then 0 else 1
    | some spelled =>
      call.complain (spelled ++ utf8 ": invalid conversion specification")
      return 1

/-- Writes a text again and again. -/
def repeatText (call : Call) (text : Bytes) : (fuel : Nat) → Act Nat
  | 0 => Act.hang
  | fuel + 1 => do
    if ← call.put text then repeatText call text fuel else return 1

def yes : Utility := fun call =>
  call.withOptions {} 1 fun given =>
    let words := if given.operands.isEmpty then [utf8 "y"] else given.operands
    let line := Bytes.join (utf8 " ") words ++ [10]
    repeatText call (List.replicate (8192 / line.length + 1) line).flatten Act.maxText

/-- A number with digits after the point: that many units of the last digit. -/
structure Decimal where
  units : Int
  places : Nat

/-- Reads a number with digits after the point and an exponent of ten. -/
def readDecimal (text : Bytes) : Option Decimal :=
  let negative := text.head? == some '-'.toUInt8
  let text := if negative || text.head? == some '+'.toUInt8 then text.drop 1 else text
  let mantissa := text.takeWhile fun c => Bytes.lowerByte c != 'e'.toUInt8
  let exponent := Bytes.readInteger (text.drop (mantissa.length + 1))
  let whole := Bytes.before '.'.toUInt8 mantissa
  let fraction := (mantissa.drop whole.length).drop 1
  if !Bytes.allDigits (whole ++ fraction) || (mantissa.length < text.length && exponent.isNone) then none
  else
    let exponent := max (-400) (min 400 (exponent.getD 0))
    let places : Int := (fraction.length : Int) - exponent
    let units := Bytes.digitsValue (whole ++ fraction) * Nat.pow 10 (-places).toNat
    some ⟨if negative then -(units : Int) else units, places.toNat⟩

/-- The number in units of a finer digit. -/
def Decimal.scaled (number : Decimal) (places : Nat) : Int :=
  number.units * (Nat.pow 10 (places - number.places) : Nat)

def Decimal.text (number : Decimal) : Bytes :=
  (if number.units < 0 then utf8 "-" else []) ++
    Format.fixedDigits number.places number.units.natAbs (Nat.pow 10 number.places)

/-- Counts from a number up or down to another one. -/
def seq : Utility := fun call => do
  let isNumber (word : Bytes) : Bool :=
    word.head? == some '-'.toUInt8 && (word.drop 1).head?.any fun c => Bytes.isDigit c || c == '.'.toUInt8
  let before := call.arguments.takeWhile (!isNumber ·)
  let table : OptionTable :=
    { flags := "w", valued := "sf", anywhere := false
      long := [("equal-width", 'w'), ("separator", 's'), ("format", 'f')] }
  ({ call with arguments := before } : Call).withOptions table 1 fun given => do
    let words := given.operands ++ call.arguments.drop before.length
    match words.find? fun word => (readDecimal word).isNone with
    | some word => call.misuse (utf8 "invalid floating point argument: '" ++ word ++ utf8 "'") 1
    | none =>
      match words.filterMap readDecimal with
      | [] => call.misuse (utf8 "missing operand") 1
      | _ :: _ :: _ :: _ :: _ => call.misuse (utf8 "extra operand " ++ quotedName (words.getD 3 [])) 1
      | numbers =>
        let one : Decimal := ⟨1, 0⟩
        let first := if numbers.length = 1 then one else numbers.headD one
        let step := if numbers.length = 3 then numbers.getD 1 one else one
        let last := numbers.getLast?.getD one
        let places := max first.places step.places
        let fine := max places last.places
        let (low, stride, high) := (first.scaled fine, step.scaled fine, last.scaled fine)
        if stride = 0 then
          call.misuse (utf8 "invalid Zero increment value: " ++ quotedName (words.getD 1 [])) 1
        else
          let count := if (0 < stride ∧ high < low) ∨ (stride < 0 ∧ low < high) then 0
            else (Int.tdiv (high - low) stride).toNat + 1
          let value (index : Nat) : Decimal :=
            ⟨first.scaled places + (index : Int) * step.scaled places, places⟩
          let width := ([value 0, value (count - 1)].map fun number => number.text.length).foldl max 0
          let spelled (number : Decimal) : Bytes := match given.value? 'f' with
            | some format => (Format.print Format.utility format [number.text]).text
            | none =>
              let digits := number.text
              if !given.has 'w' then digits
              else
                let sign := digits.takeWhile (· == '-'.toUInt8)
                Format.pad { zeros := true, width } sign (digits.drop sign.length) true
          let separator := (given.value? 's').getD [10]
          let rec write : (fuel index : Nat) → Act Nat
            | 0, _ => return 0
            | fuel + 1, index => do
              if count ≤ index then return 0
              let block := (List.range (min 1000 (count - index))).map fun k =>
                spelled (value (index + k)) ++ if index + k + 1 = count then [10] else separator
              if ← call.put block.flatten then write fuel (index + 1000) else return 1
          write (count / 1000 + 1) 0

/-! ## Copying -/

/-- How lines are shown while they are copied. -/
structure Copying where
  /-- The number of the next line. -/
  number : Nat := 1
  /-- The next byte starts a line. -/
  starts : Bool := true
  /-- How many lines before it are empty. -/
  empty : Nat := 0

/-- A byte that cannot be seen, made visible. -/
def visible (c : UInt8) : Bytes :=
  let low (c : UInt8) : Bytes :=
    if c < 32 then [94, c + 64] else if c = 127 then [94, 63] else [c]
  if c < 128 then low c else utf8 "M-" ++ low (c - 128)

/-- A number in front of a line. -/
def numbered (number : Nat) : Bytes :=
  Format.pad { width := 6 } [] (Bytes.decimal number) false ++ [9]

/-- Copies a byte as some options say. -/
def copyByte (given : Given) (state : Copying) (c : UInt8) : Copying × Bytes :=
  let all := given.has 'A'
  let ends := all || given.has 'E' || given.has 'e'
  let shows := all || given.has 'v' || given.has 'e' || given.has 't'
  let tabs := all || given.has 'T' || given.has 't'
  let isEmpty := state.starts && c == 10
  if isEmpty && given.has 's' && 0 < state.empty then (state, [])
  else
    let counts := state.starts && (given.has 'n' || given.has 'b') && !(isEmpty && given.has 'b')
    let start := if counts then numbered state.number else []
    let shown := if c = 10 then (if ends then [36, 10] else [10])
      else if c = 9 then (if tabs then [94, 73] else [9])
      else if shows then visible c
      else [c]
    ({ number := if counts then state.number + 1 else state.number
       starts := c == 10, empty := if isEmpty then state.empty + 1 else 0 }, start ++ shown)

/-- Copies what is read at a descriptor to the output. -/
def copyFrom (call : Call) (given : Given) (descriptor : Nat) :
    (fuel : Nat) → Copying → Act (Except FileCause (Copying × Bool))
  | 0, _ => Act.hang
  | fuel + 1, state => do
    match ← Act.read descriptor Act.portion with
    | .error cause => return .error cause
    | .ok [] => return .ok (state, true)
    | .ok bytes =>
      let (state, output) := if given.options.all (·.1 == 'u'.toUInt8) then (state, bytes)
        else
          let (state, parts) := bytes.foldl (fun (state, parts) c =>
            let (state, part) := copyByte given state c
            (state, part :: parts)) (state, [])
          (state, parts.reverse.flatten)
      if ← call.put output then copyFrom call given descriptor fuel state else return .ok (state, false)

def cat : Utility := fun call => do
  let table : OptionTable :=
    { flags := "AbeEnstTuv"
      long := [("show-all", 'A'), ("number-nonblank", 'b'), ("show-ends", 'E'), ("number", 'n'),
        ("squeeze-blank", 's'), ("show-tabs", 'T'), ("show-nonprinting", 'v')] }
  call.withOptions table 1 fun given => do
    let mut status := 0
    let mut state : Copying := {}
    for name in if given.operands.isEmpty then [utf8 "-"] else given.operands do
      match ← call.withInput name fun descriptor =>
          copyFrom call given descriptor Act.maxText state with
      | .ok (next, fine) =>
        if !fine then return 1
        state := next
      | .error cause =>
        call.complainOf name cause
        if name = utf8 "-" ∧ cause = .badDescriptor then
          call.complain (utf8 "closing standard input: Bad file descriptor")
        status := 1
    return status

def tee : Utility := fun call =>
  call.withOptions { flags := "ai", long := [("append", 'a'), ("ignore-interrupts", 'i')] } 1
    fun given => do
      let mut targets : List Nat := []
      let mut status := 0
      for name in given.operands do
        let descriptor ← Act.freeDescriptor 3
        match ← Act.openAt descriptor call.directory name
            (if given.has 'a' then .append else .write) with
        | .ok () => targets := targets ++ [descriptor]
        | .error cause =>
          call.complainOf name cause
          status := 1
      let rec copy (targets : List Nat) : (fuel : Nat) → Act Unit
        | 0 => Act.hang
        | fuel + 1 => do
          match ← Act.read 0 Act.portion with
          | .ok (c :: bytes) =>
            let _ ← call.put (c :: bytes)
            for target in targets do let _ ← Act.write target (c :: bytes)
            copy targets fuel
          | _ => return
      copy targets Act.maxText
      return status

/-! ## Parts -/

/-- Which part of a text is wanted. -/
structure Extent where
  /-- It is counted in bytes rather than lines. -/
  bytes : Bool
  count : Nat
  /-- The sign that was given with the count. -/
  sign : Option UInt8

/-- The multiple of a count that a letter after it asks for. -/
def multiple? (suffix : Bytes) : Option Nat :=
  if suffix.isEmpty then some 1
  else if suffix = utf8 "b" then some 512
  else if suffix = utf8 "K" ∨ suffix = utf8 "k" ∨ suffix = utf8 "KiB" then some 1024
  else if suffix = utf8 "kB" ∨ suffix = utf8 "KB" then some 1000
  else if suffix = utf8 "M" ∨ suffix = utf8 "MiB" then some (1024 * 1024)
  else if suffix = utf8 "MB" then some (1000 * 1000)
  else none

def readExtent (bytes : Bool) (text : Bytes) : Option Extent :=
  let sign := (text.head?).filter fun c => c == '-'.toUInt8 || c == '+'.toUInt8
  let text := text.drop sign.toList.length
  let digits := text.takeWhile Bytes.isDigit
  match multiple? (text.drop digits.length) with
  | some factor => if digits.isEmpty then none else some ⟨bytes, factor * Bytes.digitsValue digits, sign⟩
  | none => none

/-- Reads the part that a call asks for: the last one of the options that say so, or ten lines. -/
def extentOf (given : Given) : Except Bytes Extent :=
  match (given.options.filter fun option => (utf8 "nc").contains option.1).getLast? with
  | none => .ok ⟨false, 10, none⟩
  | some (letter, text) =>
    let bytes := letter == 'c'.toUInt8
    match readExtent bytes text with
    | some extent => .ok extent
    | none =>
      .error (utf8 "invalid number of " ++ utf8 (if bytes then "bytes" else "lines") ++ utf8 ": '" ++
        text ++ utf8 "'")

/-- The arguments with a first one such as `-3` spelled as an option. -/
def withoutBareCount (arguments : List Bytes) : List Bytes :=
  match arguments with
  | (45 :: digits) :: rest => if Bytes.allDigits digits then utf8 "-n" :: digits :: rest else arguments
  | _ => arguments

def partTable : OptionTable :=
  { flags := "qvfz", valued := "nc"
    long := [("lines", 'n'), ("bytes", 'c'), ("quiet", 'q'), ("silent", 'q'), ("verbose", 'v'),
      ("follow", 'f')] }

/-- Shows parts of files, each after its name if there are several. -/
def showParts (call : Call) (given : Given) (show_ : Nat → Act (Except FileCause Bool)) : Act Nat := do
  let names := if given.operands.isEmpty then [utf8 "-"] else given.operands
  let titled := given.has 'v' || (1 < names.length && !given.has 'q')
  let mut status := 0
  let mut isFirst := true
  for name in names do
    let isStart := isFirst
    let title (_ : Unit) : Act Bool :=
      if titled then
        call.put ((if isStart then [] else [10]) ++ utf8 "==> " ++
          (if name = utf8 "-" then utf8 "standard input" else name) ++ utf8 " <==\n")
      else return true
    let opened ← call.withInput name fun descriptor => do
      if ← title () then
        match ← show_ descriptor with
        | .ok fine => return .ok (some fine)
        | .error cause =>
          let shown := if name = utf8 "-" then utf8 "standard input" else name
          call.complain (utf8 "error reading " ++ quotedName shown ++ utf8 ": " ++ utf8 cause.message)
          if name = utf8 "-" ∧ cause = .badDescriptor then call.complainOf name cause
          return .ok none
      else return .ok (some false)
    match opened with
    | .ok (some fine) => if !fine then return 1
    | .ok none => status := 1
    | .error cause =>
      call.complain (utf8 "cannot open " ++ quotedName name ++ utf8 " for reading: " ++
        utf8 cause.message)
      status := 1
    isFirst := isFirst && !opened.toOption.isSome
  return status

/-- How much is read at once where not all is wanted. -/
def smallPortion : Nat := 8192

def showFirst (call : Call) (bytes : Bool) (descriptor : Nat) :
    (fuel left : Nat) → Act (Except FileCause Bool)
  | _, 0 => return .ok true
  | 0, _ => Act.hang
  | fuel + 1, left => do
    match ← Act.read descriptor (if bytes then min left smallPortion else smallPortion) with
    | .error cause => return .error cause
    | .ok [] => return .ok true
    | .ok text =>
      let wanted := if bytes then text else ((linesWithEnds text).take left).flatten
      Act.giveBack descriptor (text.length - wanted.length)
      let used := if bytes then text.length else wanted.count 10
      if ← call.put wanted then showFirst call bytes descriptor fuel (left - used)
      else return .ok false

def splitLast (bytes : Bool) (count : Nat) (text : Bytes) : Bytes × Bytes :=
  if bytes then (text.take (text.length - count), text.drop (text.length - count))
  else
    let lines := linesWithEnds text
    ((lines.take (lines.length - count)).flatten, (lines.drop (lines.length - count)).flatten)

def head : Utility := fun call =>
  ({ call with arguments := withoutBareCount call.arguments } : Call).withOptions partTable 1
    fun given => do
      match extentOf given with
      | .error text =>
        call.complain text
        return 1
      | .ok extent =>
        showParts call given fun descriptor => do
          if extent.sign = some '-'.toUInt8 then
            match ← Act.readAll descriptor with
            | .error cause => return .error cause
            | .ok text => return .ok (← call.put (splitLast extent.bytes extent.count text).1)
          else showFirst call extent.bytes descriptor Act.maxText extent.count

def tail : Utility := fun call =>
  ({ call with arguments := withoutBareCount call.arguments } : Call).withOptions partTable 1
    fun given => do
      match extentOf given with
      | .error text =>
        call.complain text
        return 1
      | .ok extent =>
        let status ← showParts call given fun descriptor => do
          match ← Act.readAll descriptor with
          | .error cause => return .error cause
          | .ok text =>
            let skipped := extent.count - 1
            let wanted := if extent.sign = some '+'.toUInt8 then
                if extent.bytes then text.drop skipped
                else ((linesWithEnds text).drop skipped).flatten
              else (splitLast extent.bytes extent.count text).2
            return .ok (← call.put wanted)
        if given.has 'f' then Act.hang else return status

/-- The numbers that a list of ranges such as `1,3-` holds, as a test. -/
def readRanges (text : Bytes) : Option (Nat → Bool) :=
  let range (part : Bytes) : Option (Nat → Bool) :=
    let low := Bytes.before '-'.toUInt8 part
    let number (digits : Bytes) : Option Nat :=
      if Bytes.allDigits digits && digits.any (· != '0'.toUInt8) then some (Bytes.digitsValue digits)
      else none
    if low.length = part.length then (number low).map fun n => (· == n)
    else
      let high := part.drop (low.length + 1)
      if low.isEmpty && high.isEmpty then none
      else if low.isEmpty then (number high).map fun b => fun n => decide (n ≤ b)
      else if high.isEmpty then (number low).map fun a => fun n => decide (a ≤ n)
      else match number low, number high with
        | some a, some b => if b < a then none else some fun n => decide (a ≤ n ∧ n ≤ b)
        | _, _ => none
  let parts := Bytes.fields ','.toUInt8 (text.map fun c => if c = 32 then ','.toUInt8 else c)
  (parts.mapM range).map fun tests => fun n => tests.any fun test => test n

def cut : Utility := fun call =>
  let table : OptionTable :=
    { flags := "snC", valued := "bcfdo"
      long := [("bytes", 'b'), ("characters", 'c'), ("fields", 'f'), ("delimiter", 'd'),
        ("only-delimited", 's'), ("complement", 'C'), ("output-delimiter", 'o')] }
  call.withOptions table 1 fun given => do
    match given.options.filter fun option => (utf8 "bcf").contains option.1 with
    | [] => call.misuse (utf8 "you must specify a list of bytes, characters, or fields") 1
    | _ :: _ :: _ => call.misuse (utf8 "only one list may be specified") 1
    | [(letter, text)] =>
      let byFields := letter == 'f'.toUInt8
      let delimiter := (given.value? 'd').getD [9]
      if !byFields && given.has 'd' then
        call.misuse (utf8 "an input delimiter may be specified only when operating on fields") 1
      else if delimiter.length ≠ 1 then
        call.misuse (utf8 "the delimiter must be a single character") 1
      else match readRanges text with
        | none =>
          call.misuse (utf8 (if byFields then "invalid field value " else "invalid byte or character position ")
            ++ quotedName text) 1
        | some isListed =>
          let isWanted (n : Nat) : Bool := isListed n != given.has 'C'
          let select {α : Type} (items : List α) : List α :=
            (items.zipIdx.filter fun item => isWanted (item.2 + 1)).map Prod.fst
          let separator := (given.value? 'o').getD delimiter
          let line (_ : Unit) (line : Bytes) : Unit × Bytes × Bool :=
            if !byFields then ((), select line ++ [10], false)
            else if !line.contains (delimiter.headD 9) then
              ((), if given.has 's' then [] else line ++ [10], false)
            else
              let fields := Bytes.fields (delimiter.headD 9) line
              ((), Bytes.join separator (select fields) ++ [10], false)
          let mut status := 0
          for name in if given.operands.isEmpty then [utf8 "-"] else given.operands do
            match ← call.withInput name fun descriptor =>
                passLines call descriptor line Act.maxText [] () with
            | .ok () => pure ()
            | .error cause =>
              call.complainOf name cause
              status := 1
          return status

/-! ## Counting -/

/-- The size of a regular file; none of something else that is there. -/
def sizeOf? (call : Call) (name : Bytes) : Act (Option (Option Nat)) := Act.look fun machine =>
  if name = utf8 "-" then
    (machine.channel? 0).map fun channel => match channel.2.endpoint with
      | .file place => some (machine.contentAt place).length
      | _ => none
  else match machine.files.find? call.directory name with
    | .ok (.file content _) => some (some content.length)
    | .ok _ => some none
    | .error _ => none

def wordCount (text : Bytes) : Nat :=
  (text.foldl (fun (count, inside) c =>
    let inside' := !Bytes.isSpace c
    (if inside' && !inside then count + 1 else count, inside')) (0, false)).1

def wc : Utility := fun call =>
  let table : OptionTable :=
    { flags := "clmwL"
      long := [("bytes", 'c'), ("chars", 'm'), ("lines", 'l'), ("words", 'w'),
        ("max-line-length", 'L')] }
  call.withOptions table 1 fun given => do
    let names := given.operands
    let shows (letter : Char) : Bool :=
      given.has letter || (given.options.isEmpty && (utf8 "lwc").contains letter.toUInt8)
    let counts (text : Bytes) : List (Char × Nat) :=
      [('l', text.count 10), ('w', wordCount text), ('m', text.length), ('c', text.length),
       ('L', ((linesOf text).map List.length).foldl max 0)]
    let columns := (counts []).filter fun (column : Char × Nat) => shows column.1
    let sizes ← (if names.isEmpty then [utf8 "-"] else names).mapM (sizeOf? call)
    let total := (sizes.filterMap fun size => size.bind id).foldl (· + ·) 0
    let least := if sizes.any (· == some none) then 7 else 1
    let width := if columns.length = 1 ∧ names.length ≤ 1 then 1
      else max least (Bytes.decimal total).length
    let row (values : List Nat) (name : Bytes) : Bytes :=
      let cells := values.map fun n => Format.pad { width } [] (Bytes.decimal n) false
      Bytes.join [32] (cells ++ if name.isEmpty then [] else [name]) ++ [10]
    let mut status := 0
    let mut sums := columns.map fun _ => 0
    for name in if names.isEmpty then [[]] else names do
      let content ← call.contentOf (if names.isEmpty then utf8 "-" else name)
      if let .error cause := content then
        call.complainOf (if names.isEmpty then utf8 "-" else name) cause
        status := 1
      let isShown := match content with
        | .ok _ => true
        | .error cause => cause == FileCause.isDirectory
      if isShown then
        let values := ((counts (content.toOption.getD [])).filter fun (column : Char × Nat) =>
          shows column.1).map Prod.snd
        sums := (sums.zip values).map fun (a, b) => a + b
        let _ ← call.put (row values name)
    if 1 < names.length then let _ ← call.put (row sums (utf8 "total"))
    return status

/-! ## Lines changed -/

def tac : Utility := fun call =>
  call.withOptions {} 1 fun given => do
    let (found, fine) ← call.contentsOf given.operands fun name cause =>
      if cause = .isDirectory then
        call.complain (shownName name ++ utf8 ": read error: " ++ utf8 cause.message)
      else
        call.complain (utf8 "failed to open " ++ quotedName name ++ utf8 " for reading: " ++
          utf8 cause.message)
    call.print (found.flatMap fun text => (linesWithEnds text).reverse.flatten) (if fine then 0 else 1)

/-- The lines of files, each changed. -/
def mapLines (call : Call) (names : List Bytes) (complain : Bytes → FileCause → Act Unit)
    (change : Bytes → Bytes) : Act Nat := do
  let (found, fine) ← call.contentsOf names complain
  let changed (line : Bytes) : Bytes :=
    if line.getLast? = some 10 then change line.dropLast ++ [10] else change line
  call.print (found.flatMap fun text => (linesWithEnds text).flatMap changed) (if fine then 0 else 1)

def rev : Utility := fun call =>
  call.withOptions {} 1 fun given =>
    mapLines call given.operands
      (fun name cause =>
        call.complain (utf8 "cannot open " ++ name ++ utf8 ": " ++ utf8 cause.message))
      List.reverse

def nl : Utility := fun call =>
  let table : OptionTable := { valued := "bnsvw" }
  call.withOptions table 1 fun given => do
    let (found, fine) ← call.contentsOf given.operands call.complainOf
    let width := Bytes.digitsValue ((given.value? 'w').getD (utf8 "6"))
    let separator := (given.value? 's').getD [9]
    let start := Bytes.digitsValue ((given.value? 'v').getD (utf8 "1"))
    let shape := (given.value? 'n').getD (utf8 "rn")
    let counts (line : Bytes) : Bool :=
      match (given.value? 'b').bind List.head? with
      | some c => if c = 'a'.toUInt8 then true else if c = 'n'.toUInt8 then false else !line.isEmpty
      | none => !line.isEmpty
    let (_, output) := (found.flatMap linesOf).foldl (fun (number, output) line =>
      if counts line then
        let digits := Format.pad { left := shape == utf8 "ln", zeros := shape == utf8 "rz", width } []
          (Bytes.decimal number) true
        (number + 1, (digits ++ separator ++ line ++ [10]) :: output)
      else (number, (List.replicate (width + separator.length) 32 ++ line ++ [10]) :: output))
      (start, [])
    call.print output.reverse.flatten (if fine then 0 else 1)

def paste : Utility := fun call =>
  call.withOptions { flags := "s", valued := "d", long := [("serial", 's'), ("delimiters", 'd')] } 1
    fun given => do
      let delimiters := (Format.unescape { afterZero := true } 1000 ((given.value? 'd').getD [9])).1
      let delimiter (index : Nat) : Bytes :=
        if delimiters.isEmpty then [] else (delimiters[index % delimiters.length]?).toList
      let names := if given.operands.isEmpty then [utf8 "-"] else given.operands
      let files := names.filter (· != utf8 "-")
      let (found, fine) ← if files.isEmpty then pure ([], true)
        else call.contentsOf files call.complainOf
      let fromInput := names.count (utf8 "-")
      let input ← if fromInput = 0 then pure [] else do pure (linesOf ((← Act.readAll 0).toOption.getD []))
      if !fine then return 1
      let (_, _, columns) := names.foldl (fun (dashes, files, columns) name =>
        if name = utf8 "-" then
          let own := (input.zipIdx.filter fun line => line.2 % fromInput == dashes).map Prod.fst
          (dashes + 1, files, columns ++ [own])
        else (dashes, files.drop 1, columns ++ [linesOf (files.headD [])])) (0, found, [])
      let joined (cells : List Bytes) : Bytes :=
        (cells.zipIdx.flatMap fun (cell, index) =>
          (if index = 0 then [] else delimiter (index - 1)) ++ cell) ++ [10]
      if given.has 's' then call.print (columns.flatMap joined)
      else
        let height := (columns.map List.length).foldl max 0
        call.print ((List.range height).flatMap fun row =>
          joined (columns.map fun column => column.getD row []))

/-! ## Bytes -/

/-- How bytes are dumped. -/
structure Dump where
  /-- How many bytes make one cell, and how wide it is. -/
  size : Nat
  width : Nat
  cell : Bytes → Bytes

def zeroDigits (base width n : Nat) : Bytes :=
  Format.pad { zeros := true, width } [] ((Nat.toDigits base n).map Char.toUInt8) true

/-- The number of bytes of which the first one counts least. -/
def littleValue (bytes : Bytes) : Nat := bytes.foldr (fun c n => c.toNat + 256 * n) 0

/-- The way of dumping that a text such as `x1` names. -/
def readDump (text : Bytes) : Option Dump :=
  let letter := text.headD 0
  let sizeText := text.drop 1
  let size := if sizeText.isEmpty then 4 else Bytes.digitsValue sizeText
  let named (c : UInt8) : Bytes :=
    match [(0, "\\0"), (7, "\\a"), (8, "\\b"), (9, "\\t"), (10, "\\n"), (11, "\\v"), (12, "\\f"),
        (13, "\\r")].lookup c.toNat with
    | some name => utf8 name
    | none => if 32 ≤ c ∧ c < 127 then [c] else zeroDigits 8 3 c.toNat
  if letter = 'c'.toUInt8 then some ⟨1, 4, fun bytes => bytes.flatMap named⟩
  else if letter = 'x'.toUInt8 then
    some ⟨size, 2 * size + 1, fun bytes => zeroDigits 16 (2 * size) (littleValue bytes)⟩
  else if letter = 'o'.toUInt8 then
    let width := (8 * size + 2) / 3
    some ⟨size, width + 1, fun bytes => zeroDigits 8 width (littleValue bytes)⟩
  else if letter = 'u'.toUInt8 ∨ letter = 'd'.toUInt8 then
    let digits := (Bytes.decimal (Nat.pow 256 size - 1)).length
    some ⟨size, digits + 1, fun bytes => Bytes.decimal (littleValue bytes)⟩
  else none

def dumpLines (dump : Dump) (address : Nat → Bytes) : (fuel offset : Nat) → (last : Option Bytes) →
    (starred : Bool) → Bytes → List Bytes
  | 0, _, _, _, _ => []
  | fuel + 1, offset, last, starred, bytes =>
    if bytes.isEmpty then [address offset]
    else
      let block := bytes.take 16
      let next := dumpLines dump address fuel (offset + block.length) (some block)
      if last = some block ∧ block.length = 16 then
        (if starred then [] else [utf8 "*"]) ++ next true (bytes.drop 16)
      else
        let padded := block ++ List.replicate ((dump.size - block.length % dump.size) % dump.size) 0
        let cells := (List.range (padded.length / dump.size)).map fun k =>
          Format.pad { width := dump.width } [] (dump.cell ((padded.drop (k * dump.size)).take dump.size))
            false
        (address offset ++ cells.flatten) :: next false (bytes.drop 16)

def od : Utility := fun call =>
  call.withOptions { flags := "bcxov", valued := "ANtj" } 1 fun given => do
    let (found, fine) ← call.contentsOf given.operands call.complainOf
    let bytes := found.flatten.drop (((given.value? 'j').map Bytes.digitsValue).getD 0)
    let bytes := match given.value? 'N' with
      | some count => bytes.take (Bytes.digitsValue count)
      | none => bytes
    let kind := if given.has 'c' then utf8 "c" else if given.has 'b' then utf8 "o1"
      else if given.has 'x' then utf8 "x2" else (given.value? 't').getD (utf8 "o2")
    let radix := ((given.value? 'A').getD (utf8 "o")).headD 0
    let address (n : Nat) : Bytes :=
      if radix = 'n'.toUInt8 then []
      else if radix = 'd'.toUInt8 then zeroDigits 10 7 n
      else if radix = 'x'.toUInt8 then zeroDigits 16 6 n
      else zeroDigits 8 7 n
    match readDump kind with
    | none =>
      call.complain (utf8 "invalid type string " ++ quotedName kind)
      return 1
    | some dump =>
      let lines := dumpLines dump address (bytes.length + 1) 0 none false bytes
      let lines := if radix = 'n'.toUInt8 then lines.dropLast else lines
      call.print (textOfLines lines) (if fine then 0 else 1)

/-- The utilities of this kind by name. -/
def textual : List (String × Utility) :=
  [("cat", cat), ("cut", cut), ("echo", echo), ("head", head), ("nl", nl), ("od", od),
   ("paste", paste), ("printf", printf), ("rev", rev), ("seq", seq), ("tac", tac),
   ("tail", tail), ("tee", tee), ("wc", wc), ("yes", yes)]

end ShellCompletion.Utility
