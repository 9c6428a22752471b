import ShellCompletion.Command.Pattern
import ShellCompletion.Command.Utility.Text

/-!
# Replacing bytes

The standard programs that put bytes in the place of others: those of one set in the place of those of
another one, and blanks in the place of tabs.
-/
namespace ShellCompletion.Utility

/-! ## Sets of bytes -/

/-- A part of a set. -/
inductive SetPart where
  | bytes (bytes : Bytes)
  | range (low high : UInt8)
  | named (name : Bytes)
  /-- A byte so often, or as often as is needed. -/
  | repeated (byte : UInt8) (count : Option Nat)

def classBytes? (name : Bytes) : Option Bytes :=
  (Pattern.classes.find? (utf8 ·.1 = name)).map fun entry =>
    ((List.range 128).map UInt8.ofNat).filter entry.2

/-- A byte that may be spelled by an escape, and what follows. -/
def setByte (c : UInt8) (rest : Bytes) : UInt8 × Bytes :=
  if c ≠ 92 then (c, rest)
  else match Format.readEscape { afterZero := false, ends := false } rest with
    | .bytes [92, d] rest => (d, rest)
    | .bytes (d :: _) rest => (d, rest)
    | _ => (c, rest)

/-- What a part in brackets spells, after the opening bracket, and what follows. -/
def bracketPart? (rest : Bytes) : Option (SetPart × Bytes) :=
  match rest with
  | 58 :: rest =>
    let name := Bytes.before ':'.toUInt8 rest
    match rest.drop name.length with
    | 58 :: 93 :: more => some (.named name, more)
    | _ => none
  | 61 :: c :: 61 :: 93 :: more => some (.bytes [c], more)
  | c :: rest =>
    let (byte, rest) := setByte c rest
    match rest with
    | 42 :: rest =>
      let digits := rest.takeWhile Bytes.isDigit
      match rest.drop digits.length with
      | 93 :: more =>
        let base := if digits.head? = some '0'.toUInt8 then 8 else 10
        let count := Bytes.valueIn base digits
        some (.repeated byte (if count = 0 then none else some count), more)
      | _ => none
    | _ => none
  | [] => none

def setParts : (fuel : Nat) → Bytes → List SetPart
  | 0, _ => []
  | _, [] => []
  | fuel + 1, c :: rest =>
    match if c == '['.toUInt8 then bracketPart? rest else none with
    | some (part, rest) => part :: setParts fuel rest
    | none =>
      let (byte, rest) := setByte c rest
      match rest with
      | 45 :: high :: more =>
        let (high, more) := setByte high more
        .range byte high :: setParts fuel more
      | rest => .bytes [byte] :: setParts fuel rest

def shownSetByte (c : UInt8) : Bytes :=
  if 32 ≤ c ∧ c < 127 then [c]
  else match [(7, 'a'), (8, 'b'), (12, 'f'), (10, 'n'), (13, 'r'), (9, 't'), (11, 'v')].lookup c with
    | some letter => [92, letter.toUInt8]
    | none => 92 :: (Nat.toDigits 8 (512 + c.toNat)).tail.map Char.toUInt8

def SetPart.fault? : SetPart → Option Bytes
  | .range low high =>
    if low ≤ high then none
    else some (utf8 "range-endpoints of '" ++ shownSetByte low ++ utf8 "-" ++ shownSetByte high ++
      utf8 "' are in reverse collating sequence order")
  | .named name =>
    if (classBytes? name).isSome then none else some (utf8 "invalid character class " ++ quotedName name)
  | _ => none

def SetPart.list : SetPart → Bytes
  | .bytes text => text
  | .range low high => (List.range (high.toNat - low.toNat + 1)).map fun k => UInt8.ofNat (low.toNat + k)
  | .named name => (classBytes? name).getD []
  | .repeated byte count => List.replicate (count.getD 0) byte

/-- The bytes of a set. What is repeated as often as needed fills it up to a length. -/
def setBytes (parts : List SetPart) (length : Nat) : Bytes :=
  let fixed := ((parts.map SetPart.list).map List.length).foldl (· + ·) 0
  parts.flatMap fun part => match part with
    | .repeated byte none => List.replicate (length - fixed) byte
    | part => part.list

def SetPart.case? : SetPart → Option Bool
  | .named name =>
    if name = utf8 "upper" then some true else if name = utf8 "lower" then some false else none
  | _ => none

def tr : Utility := fun call =>
  let table : OptionTable :=
    { flags := "cCdst", anywhere := false
      long := [("complement", 'c'), ("delete", 'd'), ("squeeze-repeats", 's'),
        ("truncate-set1", 't')] }
  call.withOptions table 1 fun given => do
    let (deletes, squeezes) := (given.has 'd', given.has 's')
    let sets := given.operands.map fun text => setParts (text.length + 1) text
    let fail (text : Bytes) : Act Nat := do
      call.complain text
      return 1
    match given.operands, sets with
    | [], _ => call.misuse (utf8 "missing operand") 1
    | [name], [first] =>
      if deletes == squeezes then
        call.complain (utf8 "missing operand after " ++ quotedName name)
        let _ ← Act.write 2 (utf8 (if deletes then
          "Two strings must be given when both deleting and squeezing repeats.\n"
          else "Two strings must be given when translating.\n"))
        call.misuse [] 1
      else match first.findSome? SetPart.fault? with
        | some text => fail text
        | none => filterBytes call given deletes squeezes (setBytes first 0) none
    | [_, name], [first, second] =>
      if deletes && !squeezes then
        call.complain (utf8 "extra operand " ++ quotedName name)
        let _ ← Act.write 2
          (utf8 "Only one string may be given when deleting without squeezing repeats.\n")
        call.misuse [] 1
      else match (first ++ second).findSome? SetPart.fault? with
        | some text => fail text
        | none =>
          let isOpen (part : SetPart) : Bool := match part with
            | .repeated _ none => true
            | _ => false
          let isRepeated (part : SetPart) : Bool := match part with
            | .repeated .. => true
            | _ => false
          let isOther (part : SetPart) : Bool := match part with
            | .named _ => part.case?.isNone
            | _ => false
          if first.any isRepeated then
            fail (utf8 "the [c*] repeat construct may not appear in string1")
          else if 1 < second.countP isOpen then
            fail (utf8 "only one [c*] repeat construct may appear in string2")
          else if !deletes && second.any isOther then
            fail (utf8 "when translating, the only character classes that may appear in\nstring2 are 'upper' and 'lower'")
          else
            let every := (List.range 256).map UInt8.ofNat
            let plain := setBytes first 0
            let length := if given.has 'c' || given.has 'C' then (every.filter (!plain.contains ·)).length
              else plain.length
            let target := setBytes second length
            if !deletes && target.isEmpty && !given.has 't' then
              fail (utf8 "when not truncating set1, string2 must be non-empty")
            else filterBytes call given deletes squeezes plain (some target)
    | words, _ => call.misuse (utf8 "extra operand " ++ quotedName (words.getD 2 [])) 1
where
  /-- Passes the input on byte by byte. -/
  filterBytes (call : Call) (given : Given) (deletes squeezes : Bool) (first : Bytes)
      (second : Option Bytes) : Act Nat := do
    let every := (List.range 256).map UInt8.ofNat
    let first := if given.has 'c' || given.has 'C' then every.filter (!first.contains ·) else first
    let translated (c : UInt8) : UInt8 := match deletes, second with
      | false, some second =>
        let index := first.length - 1 - (first.reverse.idxOf c)
        if !first.contains c then c
        else if given.has 't' && second.length ≤ index then c
        else second[index]?.getD (second.getLast?.getD c)
      | _, _ => c
    let table := (every.map fun c =>
      (deletes && first.contains c, translated c)).toArray
    let squeezed := match second with
      | some second => second
      | none => first
    let rec pass : (fuel : Nat) → Option UInt8 → Act Nat
      | 0, _ => Act.hang
      | fuel + 1, last => do
        match ← Act.read 0 Act.portion with
        | .ok (c :: bytes) =>
          let (last, output) := (c :: bytes).foldl (fun (last, output) c =>
            let (isDeleted, c) := table[c.toNat]?.getD (false, c)
            if isDeleted then (last, output)
            else if squeezes && last == some c && squeezed.contains c then (last, output)
            else (some c, c :: output)) (last, [])
          if ← call.put output.reverse then pass fuel last else return 1
        | .ok [] => return 0
        | .error cause =>
          call.complain (utf8 "read error: " ++ utf8 cause.message)
          return 1
    pass Act.maxText none

/-! ## Tabs -/

/-- The columns at which tabs end. -/
structure TabStops where
  /-- Columns that are listed, and after those every so many columns. -/
  listed : List Nat
  every : Nat

namespace TabStops

/-- Reads a list of columns. -/
def read (text : Bytes) : Option TabStops := do
  let parts := (Bytes.fields 32 (text.map fun c => if c = 44 ∨ c = 9 then 32 else c)).filter (!·.isEmpty)
  let numbers ← parts.mapM fun part =>
    let digits := if part.head? = some '/'.toUInt8 ∨ part.head? = some '+'.toUInt8 then part.drop 1
      else part
    if Bytes.allDigits digits then some (part.headD 0, Bytes.digitsValue digits) else none
  match numbers with
  | [] => return ⟨[], 8⟩
  | [(_, n)] => if n = 0 then none else return ⟨[], n⟩
  | numbers =>
    let last := numbers.getLast?
    match last with
    | some (47, n) => return ⟨(numbers.dropLast).map Prod.snd, n⟩
    | _ => return ⟨numbers.map Prod.snd, 0⟩

def next (stops : TabStops) (column : Nat) : Option Nat :=
  match stops.listed.find? (column < ·) with
  | some stop => some stop
  | none => if stops.every = 0 then none else some ((column / stops.every + 1) * stops.every)

end TabStops

def expandLine (stops : TabStops) (leading : Bool) (line : Bytes) : Bytes :=
  (line.foldl (fun (column, inside, output) c =>
    if c = 9 ∧ !(leading && inside) then
      let next := (stops.next column).getD (column + 1)
      (next, inside, List.replicate (next - column) 32 :: output)
    else if c = 8 then (column - 1, true, [c] :: output)
    else (column + 1, inside || (c != 32 && c != 9), [c] :: output))
    (0, false, ([] : List Bytes))).2.2.reverse.flatten

/-- A line with tabs in the place of its blanks, where two of them or more come to a stop. `leading` says
    that only those before other bytes are replaced. `blanks` are those that have not been put out. -/
def unexpandLine (stops : TabStops) (leading : Bool) : (column : Nat) → (inside : Bool) →
    (blanks : Bytes) → Bytes → Bytes
  | _, _, blanks, [] => blanks
  | column, inside, blanks, c :: rest =>
    let closed := leading && inside
    if c = 32 ∧ !closed then
      let column := column + 1
      let isStop := stops.next (column - 1) == some column
      if isStop && (!blanks.isEmpty || stops.every == 1) then
        9 :: unexpandLine stops leading column inside [] rest
      else if isStop then 32 :: unexpandLine stops leading column inside [] rest
      else unexpandLine stops leading column inside (blanks ++ [32]) rest
    else if c = 9 ∧ !closed then
      9 :: unexpandLine stops leading ((stops.next column).getD (column + 1)) inside [] rest
    else blanks ++ c :: unexpandLine stops leading (column + 1) true [] rest

def withTabs (change : TabStops → Given → Bytes → Bytes) : Utility := fun call => do
  /- A number as an option lists columns. -/
  let arguments := call.arguments.map fun word => match word with
    | 45 :: c :: rest => if Bytes.isDigit c then utf8 "-t" ++ c :: rest else word
    | word => word
  let table : OptionTable := { flags := "ia", valued := "t"
                               long := [("initial", 'i'), ("all", 'a'), ("tabs", 't')]
                               longOnly := [("first-only", .none)] }
  ({ call with arguments } : Call).withOptions table 1 fun given => do
    let text := Bytes.join [44] (given.values 't')
    match TabStops.read text with
    | none =>
      call.complain (utf8 "tab size contains invalid character(s): " ++ quotedName text)
      return 1
    | some stops =>
      mapLines call given.operands call.complainOf (change stops given)

def expand : Utility := withTabs fun stops given => expandLine stops (given.has 'i')

def unexpand : Utility := withTabs fun stops given =>
  let all := (given.has 'a' || given.has 't') && !given.hasNamed "first-only"
  unexpandLine stops (!all) 0 false []

/-- The utilities of this kind by name. -/
def translating : List (String × Utility) :=
  [("expand", expand), ("tr", tr), ("unexpand", unexpand)]

end ShellCompletion.Utility
