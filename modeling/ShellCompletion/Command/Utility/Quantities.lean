import ShellCompletion.Command.Format
import ShellCompletion.Command.Utility.Text

/-!
# Utilities for numbers

The standard programs that take numbers apart, and that spell them in other units.
-/
namespace ShellCompletion.Utility

/-! ## Prime factors -/

namespace Factoring

/-- A power of a number up to multiples of a modulus. `fuel` bounds the digits of the exponent. -/
def powerIn (modulus : Nat) : (fuel base exponent : Nat) → Nat
  | 0, _, _ => 1 % modulus
  | fuel + 1, base, exponent =>
    if exponent = 0 then 1 % modulus
    else
      let half := powerIn modulus fuel (base * base % modulus) (exponent / 2)
      if exponent % 2 = 1 then base * half % modulus else half

/-- The numbers that are asked whether another one is a prime. -/
def witnesses : List Nat := [2, 3, 5, 7, 11, 13, 17, 19, 23, 29, 31, 37, 41]

/-- The odd part of a number, and how often two divides it. `fuel` bounds that. -/
def oddPart : (fuel n : Nat) → Nat × Nat
  | 0, n => (n, 0)
  | fuel + 1, n =>
    if n % 2 = 0 ∧ n ≠ 0 then
      let (odd, twos) := oddPart fuel (n / 2)
      (odd, twos + 1)
    else (n, 0)

/-- One of the squares of a number one after the other is the wanted one. `fuel` bounds them. -/
def squaresReach (modulus wanted : Nat) : (fuel n : Nat) → Bool
  | 0, _ => false
  | fuel + 1, n => n == wanted || squaresReach modulus wanted fuel (n * n % modulus)

/-- No witness shows that a number is a product. -/
def isPrime (n : Nat) : Bool :=
  if n < 2 then false
  else if witnesses.any fun p => n % p == 0 then witnesses.contains n
  else
    let size := n.log2 + 1
    let (odd, twos) := oddPart size (n - 1)
    witnesses.all fun base =>
      let start := powerIn n size base odd
      start == 1 || squaresReach n (n - 1) twos start

/-- A number without its divisors from one on up to a limit, and these. `fuel` bounds the steps. -/
def smallDivisors (limit : Nat) : (fuel n divisor : Nat) → List Nat × Nat
  | 0, n, _ => ([], n)
  | fuel + 1, n, divisor =>
    if limit < divisor || n < divisor * divisor then ([], n)
    else if n % divisor = 0 then
      let (found, rest) := smallDivisors limit fuel (n / divisor) divisor
      (divisor :: found, rest)
    else smallDivisors limit fuel n (divisor + 1)

/-- A divisor that two walks at different speeds meet at. `fuel` bounds their steps. -/
def meeting (n step : Nat) : (fuel slow fast : Nat) → Option Nat
  | 0, _, _ => none
  | fuel + 1, slow, fast =>
    let next (x : Nat) : Nat := (x * x + step) % n
    let (slow, fast) := (next slow, next (next fast))
    let common := Nat.gcd (max slow fast - min slow fast) n
    if common = n then none
    else if common = 1 then meeting n step fuel slow fast
    else some common

/-- Takes a number without small divisors apart. `fuel` bounds how often. -/
def parts : (fuel n : Nat) → List Nat
  | 0, n => [n]
  | fuel + 1, n =>
    if n < 2 then []
    else if isPrime n then [n]
    else match (List.range 20).findSome? fun k => meeting n (k + 1) 2000000 2 2 with
      | some divisor => parts fuel divisor ++ parts fuel (n / divisor)
      | none => [n]

def primeFactors (n : Nat) : List Nat :=
  if n < 2 then []
  else
    let (small, rest) := smallDivisors 2000 (2000 + n.log2) n 2
    small ++ (parts (n.log2 + 1) rest).mergeSort fun a b => decide (a ≤ b)

/-- Equal neighbours with how many of them there are. -/
def grouped : List Nat → List (Nat × Nat)
  | [] => []
  | n :: rest => match grouped rest with
    | (m, count) :: more => if n = m then (n, count + 1) :: more else (n, 1) :: (m, count) :: more
    | [] => [(n, 1)]

end Factoring

/-- Prints the prime factors of numbers. -/
def factor : Utility := fun call =>
  call.withOptions { flags := "h", long := [("exponents", 'h')] } 1 fun given => do
    let words ← if !given.operands.isEmpty then pure (Except.ok given.operands)
      else do
        let text ← Act.readAll 0
        pure (text.map fun text =>
          ((text.splitBy fun a b => Bytes.isSpace a == Bytes.isSpace b).filter
            fun word => !word.head?.any Bytes.isSpace))
    match words with
    | .error cause =>
      call.complainOf (utf8 "-") cause
      return 1
    | .ok words =>
      let mut status := 0
      let mut lines : List Bytes := []
      for word in words do
        let digits := word.dropWhile (· == 32)
        let digits := if digits.head? = some '+'.toUInt8 then digits.drop 1 else digits
        if Bytes.allDigits digits then
          let n := Bytes.digitsValue digits
          let factors := Factoring.primeFactors n
          let shown := if given.has 'h' then
              (Factoring.grouped factors).map fun (p, count) =>
                Bytes.decimal p ++ if count = 1 then [] else '^'.toUInt8 :: Bytes.decimal count
            else factors.map Bytes.decimal
          lines := (Bytes.decimal n ++ utf8 ":" ++ shown.flatMap (32 :: ·)) :: lines
        else
          call.complain (quotedName word ++ utf8 " is not a valid positive integer")
          status := 1
      call.print (textOfLines lines.reverse) status

/-! ## Units -/

namespace Scaling

/-- How numbers are spelled: with all of their digits, or with a letter for a power of a base. -/
inductive Scale where
  | none
  | either
  | thousands
  /-- With an `i` after the letter, or without. -/
  | binary (marked : Bool)
deriving DecidableEq, Repr

def Scale.base : Scale → Nat
  | .binary _ => 1024
  | _ => 1000

/-- Where a number that stands between two others goes. -/
inductive Rounding where
  | up
  | down
  | fromZero
  | towardsZero
  | nearest
deriving DecidableEq, Repr

/-- A number: so many of the parts that one is divided into. -/
structure Quantity where
  count : Int
  parts : Nat := 1

namespace Quantity

def times (q : Quantity) (factor divisor : Nat) : Quantity := ⟨q.count * factor, q.parts * divisor⟩

/-- It is at least so far away from zero. -/
def reaches (q : Quantity) (n : Nat) : Bool := n * q.parts ≤ q.count.natAbs

def rounded (q : Quantity) (rounding : Rounding) : Int :=
  let parts : Int := q.parts
  let down := Int.fdiv q.count parts
  let up := -(Int.fdiv (-q.count) parts)
  let isNegative := q.count < 0
  match rounding with
  | .up => up
  | .down => down
  | .fromZero => if isNegative then down else up
  | .towardsZero => if isNegative then up else down
  | .nearest =>
    let size := Int.fdiv (2 * (q.count.natAbs : Int) + parts) (2 * parts)
    if isNegative then -size else size

/-- The number with so many digits after the point. -/
def text (q : Quantity) (places : Nat) : Bytes :=
  (if q.count < 0 then utf8 "-" else []) ++ Format.fixedDigits places q.count.natAbs q.parts

end Quantity

/-- What a number is made into, and how. -/
structure Plan where
  source : Scale := .none
  goal : Scale := .none
  sourceUnit : Nat := 1
  goalUnit : Nat := 1
  rounding : Rounding := .fromZero
  suffix : Bytes := []
  /-- What stands before and behind a number. -/
  before : Bytes := []
  after : Bytes := []
  /-- How long numbers are made, and whether they stand at the left then. -/
  width : Nat := 0
  left : Bool := false
  /-- How long they are made with zeros. -/
  zeros : Nat := 0
  /-- How many digits there are after the point. -/
  places : Option Nat := none
  /-- The byte between fields; none for blanks. -/
  delimiter : Option UInt8 := none
  wanted : Nat → Bool := (· == 1)

/-- The letters of the powers, from the first one on. -/
def powerLetters : Bytes := utf8 "KMGTPEZYRQ"

/-- How many digits can be spelled without a letter, and at all. -/
def maxPlain : Nat := 18
def maxDigits : Nat := 33

/-- What is wrong with a number, or the number and how many digits it has after the point. -/
def readQuantity (scale : Scale) (text : Bytes) : Except Bytes (Quantity × Nat) := do
  let invalid : Except Bytes (Quantity × Nat) := .error (utf8 "invalid number: " ++ quotedName text)
  let isNegative := text.head? = some '-'.toUInt8
  let body := if isNegative then text.drop 1 else text
  let whole := body.takeWhile Bytes.isDigit
  let behind := body.drop whole.length
  let fraction := match behind with
    | 46 :: digits => some (digits.takeWhile Bytes.isDigit)
    | _ => none
  if (whole.isEmpty && fraction.isNone) || fraction == some [] then invalid
  else if maxDigits < (whole.dropWhile (· == 48)).length then
    .error (utf8 "value too large to be converted: " ++ quotedName text)
  else
    let digits := fraction.getD []
    let count := Bytes.digitsValue (whole ++ digits)
    let number : Quantity := ⟨if isNegative then -(count : Int) else count, Nat.pow 10 digits.length⟩
    let rest := behind.drop (if fraction.isSome then digits.length + 1 else 0)
    let unmarked : Except Bytes (Quantity × Nat) :=
      .error (utf8 "missing 'i' suffix in input: " ++ quotedName text ++ utf8 " (e.g Ki/Mi/Gi)")
    if rest.isEmpty then if scale == .binary true then unmarked else return (number, digits.length)
    else
    match rest.dropWhile fun c => c == 32 || c == 9 with
    | [] => .error (utf8 "invalid suffix in input: " ++ quotedName text)
    | letter :: more =>
      match powerLetters.findIdx? (· == letter) with
      | none => .error (utf8 "invalid suffix in input: " ++ quotedName text)
      | some power =>
        let isMarked := more.head? = some 'i'.toUInt8
        let done (base : Nat) (more : Bytes) : Except Bytes (Quantity × Nat) :=
          if more.isEmpty then return (number.times (Nat.pow base (power + 1)) 1, 0)
          else .error (utf8 "invalid suffix in input " ++ quotedName text ++ utf8 ": " ++ quotedName more)
        match scale with
        | .none => .error (utf8 "rejecting suffix in input: " ++ quotedName text ++
            utf8 " (consider using --from)")
        | .either => if isMarked then done 1024 (more.drop 1) else done 1000 more
        | .binary true =>
          if isMarked then done 1024 (more.drop 1) else unmarked
        | scale => done scale.base more

/-- The power of a base that a number can be divided by. `fuel` bounds it. -/
def powerOf (base : Nat) : (fuel : Nat) → Quantity → Nat × Quantity
  | 0, q => (0, q)
  | fuel + 1, q =>
    if q.reaches base then
      let (power, rest) := powerOf base fuel (q.times 1 base)
      (power + 1, rest)
    else (0, q)

/-- A number in the digits and with the letter that are wanted. -/
def spelled (plan : Plan) (q : Quantity) (digits : Nat) : Bytes :=
  let filled (text : Bytes) : Bytes :=
    let sign := text.takeWhile (· == '-'.toUInt8)
    sign ++ List.replicate (plan.zeros - text.length) 48 ++ text.drop sign.length
  match plan.goal with
  | .none =>
    let unit := Nat.pow 10 digits
    filled (({ count := (q.times unit 1).rounded plan.rounding, parts := unit } : Quantity).text digits)
  | scale =>
    let base := scale.base
    let (power, rest) := powerOf base 20 q
    let finer := match plan.places with
      | some places => min (power * 3) places
      | none => if rest.reaches 10 then 0 else 1
    let unit := Nat.pow 10 finer
    let near : Quantity := ⟨(rest.times unit 1).rounded plan.rounding, unit⟩
    let (near, power) := if near.reaches base then (near.times 1 base, power + 1) else (near, power)
    let isShort := near.count != 0 && !near.reaches 10 && 0 < power
    let letter := if power = 0 then [] else (powerLetters.drop (power - 1)).take 1
    let mark := if scale == .binary true && 0 < power then utf8 "i" else []
    filled (near.text (plan.places.getD (if isShort then 1 else 0))) ++ letter ++ mark

/-- A field of a line as it is printed; or what is wrong with it. -/
def converted (plan : Plan) (number : Nat) (field : Bytes) : Except Bytes Bytes := do
  let text := if plan.suffix.length < field.length && plan.suffix.reverse.isPrefixOf field.reverse then
      field.take (field.length - plan.suffix.length)
    else field
  let bare := text.dropWhile fun c => c == 32 || c == 9
  let width := if plan.width = 0 && plan.delimiter.isNone then
      (if bare.length < text.length || 1 < number then text.length else 0)
    else plan.width
  let (q, digits) ← readQuantity plan.source bare
  let q := q.times plan.sourceUnit plan.goalUnit
  let digits := plan.places.getD digits
  let size := (powerOf 10 400 q).1
  let shown := (Format.print Format.utility (utf8 "%g") [q.text 0]).text
  if plan.goal == .none && maxPlain < size then
    .error (utf8 "value too large to be printed: '" ++ shown ++ utf8 "' (consider using --to)")
  else if plan.goal == .none && maxPlain < size + digits then
    .error (utf8 "value/precision too large to be printed: '" ++ shown ++ utf8 "/" ++ Bytes.decimal digits ++
      utf8 "' (consider using --to)")
  else if maxDigits ≤ size then
    .error (utf8 "value too large to be printed: '" ++ shown ++ utf8 "' (cannot handle values > 999Q)")
  else
    let text := spelled plan q digits ++ plan.suffix
    let filler := List.replicate (width - text.length) 32
    return plan.before ++ (if plan.left then text ++ filler else filler ++ text) ++ plan.after

/-- The fields of a line, which stand between blanks and have those before them. `fuel` bounds them. -/
def blankFields : (fuel : Nat) → Bytes → List Bytes
  | 0, line => [line]
  | fuel + 1, line =>
    let isGap (c : UInt8) : Bool := c == 32 || c == 9 || c == 10
    let blanks := line.takeWhile isGap
    let word := (line.drop blanks.length).takeWhile (!isGap ·)
    match line.drop (blanks.length + word.length) with
    | [] => [blanks ++ word]
    | _ :: rest => (blanks ++ word) :: blankFields fuel rest

/-- A line with the wanted fields converted, and what is wrong with some of them. -/
def convertedLine (plan : Plan) (line : Bytes) : List (Except (Bytes × Bytes) Bytes) :=
  let fields := match plan.delimiter with
    | some delimiter => Bytes.fields delimiter line
    | none => blankFields line.length line
  fields.zipIdx.map fun (field, index) =>
    if plan.wanted (index + 1) then
      match converted plan (index + 1) field with
      | .ok text => .ok text
      | .error fault => .error (fault, field)
    else .ok field

/-- Reads how numbers are laid out. -/
def readLayout (format : Bytes) (plan : Plan) : Except Bytes Plan := do
  let pieceEnd : (fuel : Nat) → Bytes → Bytes × Bytes := fun fuel text =>
    (List.range fuel).foldl (fun (found, rest) _ => match rest with
      | 37 :: 37 :: more => (found ++ [37], more)
      | 37 :: _ | [] => (found, rest)
      | c :: more => (found ++ [c], more)) ([], text)
  let (before, rest) := pieceEnd format.length format
  if rest.isEmpty then .error (utf8 "format " ++ quotedName format ++ utf8 " has no % directive")
  else
    let flags := (rest.drop 1).takeWhile fun c => (utf8 " '0").contains c
    let rest := (rest.drop 1).drop flags.length
    let left := rest.head? = some '-'.toUInt8
    let rest := if left then rest.drop 1 else rest
    let width := rest.takeWhile Bytes.isDigit
    let rest := rest.drop width.length
    let (places, rest) ← match rest with
      | 46 :: more =>
        let digits := more.takeWhile Bytes.isDigit
        if more.head?.any fun c => c == '-'.toUInt8 || c == '+'.toUInt8 || Bytes.isSpace c then
          .error (utf8 "invalid precision in format " ++ quotedName format)
        else .ok (some (Bytes.digitsValue digits), more.drop digits.length)
      | rest => .ok (none, rest)
    match rest with
    | 102 :: rest =>
      let (after, rest) := pieceEnd rest.length rest
      if !rest.isEmpty then .error (utf8 "format " ++ quotedName format ++ utf8 " has too many % directives")
      else
        if flags.contains 39 && plan.goal != .none then
          .error (utf8 "grouping cannot be combined with --to")
        let size := Bytes.digitsValue width
        let zeros := flags.contains 48 && !left
        return { plan with
          before, after, places
          left := if size = 0 then plan.left else left
          width := if size = 0 || zeros then plan.width else size
          zeros := if zeros then size else 0 }
    | [] =>
      if left && width.isEmpty then
        .error (utf8 "invalid format " ++ quotedName format ++ utf8 ", directive must be %[0]['][-][N][.][N]f")
      else .error (utf8 "format " ++ quotedName format ++ utf8 " ends in %")
    | _ => .error (utf8 "invalid format " ++ quotedName format ++
        utf8 ", directive must be %[0]['][-][N][.][N]f")

def readUnit (text : Bytes) : Option Nat :=
  let digits := text.takeWhile Bytes.isDigit
  let count := if digits.isEmpty then 1 else Bytes.digitsValue digits
  match text.drop digits.length with
  | [] => if digits.isEmpty || count = 0 then none else some count
  | letter :: more => (powerLetters.findIdx? (· == letter)).bind fun power =>
    if more.isEmpty then some (count * Nat.pow 1000 (power + 1))
    else if more = utf8 "i" then some (count * Nat.pow 1024 (power + 1))
    else none

def scales : List (String × Scale) :=
  [("none", .none), ("si", .thousands), ("iec", .binary false), ("iec-i", .binary true)]

def roundings : List (String × Rounding) :=
  [("up", .up), ("down", .down), ("from-zero", .fromZero), ("towards-zero", .towardsZero), ("nearest", .nearest)]

end Scaling

/-- What a word stands for that is one of some, or what is wrong with it. A word may be cut short. -/
def oneOf {α : Type} (option : String) (choices : List (String × α)) (word : Bytes) : Except Bytes α :=
  match choices.find? (utf8 ·.1 == word), choices.filter fun choice => word.isPrefixOf (utf8 choice.1) with
  | some choice, _ => .ok choice.2
  | none, [choice] => .ok choice.2
  | none, others =>
    .error ((if others.isEmpty || word.isEmpty then utf8 "invalid argument " else utf8 "ambiguous argument ") ++
      quotedName word ++ utf8 " for '" ++ utf8 option ++ utf8 "'\nValid arguments are:" ++
      choices.flatMap fun choice => utf8 "\n  - '" ++ utf8 choice.1 ++ utf8 "'")

/-- Reads the plan that options ask for; what is wrong comes with whether more is said about it. -/
def readPlan (given : Given) : Except (Bytes × Bool) Scaling.Plan := do
  let choice {α : Type} (name : String) (choices : List (String × α)) (usual : α) : Except (Bytes × Bool) α :=
    match given.named? name with
    | some word => match oneOf ("--" ++ name) choices word with
      | .ok value => .ok value
      | .error fault => .error (fault, true)
    | none => .ok usual
  let unit (name : String) : Except (Bytes × Bool) Nat := match given.named? name with
    | some word => match Scaling.readUnit word with
      | some n => .ok n
      | none => .error (utf8 "invalid unit size: " ++ quotedName word, false)
    | none => .ok 1
  let source ← choice "from" (("auto", Scaling.Scale.either) :: Scaling.scales) .none
  let goal ← choice "to" Scaling.scales .none
  let sourceUnit ← unit "from-unit"
  let goalUnit ← unit "to-unit"
  let rounding ← choice "round" Scaling.roundings .fromZero
  let (width, left) ← match given.named? "padding" with
    | none => Except.ok (0, false)
    | some word =>
      let n := (Bytes.readInteger word).getD 0
      if n = 0 then .error (utf8 "invalid padding value " ++ quotedName word, false)
      else .ok (n.natAbs, decide (n < 0))
  let delimiter ← match given.value? 'd' with
    | none => Except.ok none
    | some [] => .ok (some 0)
    | some [c] => .ok (some c)
    | some _ => .error (utf8 "the delimiter must be a single character", false)
  let wanted ← match given.named? "field" with
    | none => Except.ok (fun n => n == 1)
    | some word =>
      if word = utf8 "-" then .ok fun _ => true
      else match readRanges word with
        | some wanted => .ok wanted
        | none =>
          if (Bytes.fields 44 word).any fun part => Bytes.allDigits part && Bytes.digitsValue part = 0 then
            .error (utf8 "fields are numbered from 1", true)
          else .error (utf8 "invalid field value " ++ quotedName word, true)
  let plan : Scaling.Plan :=
    { source, goal, sourceUnit, goalUnit, rounding, suffix := (given.named? "suffix").getD []
      width, left, delimiter, wanted }
  if given.hasNamed "grouping" && given.hasNamed "format" then
    .error (utf8 "--grouping cannot be combined with --format", false)
  else if given.hasNamed "grouping" && goal != .none then
    .error (utf8 "grouping cannot be combined with --to", false)
  else match given.named? "format" with
    | some format => match Scaling.readLayout format plan with
      | .ok plan => .ok plan
      | .error fault => .error (fault, false)
    | none => .ok plan

/-- Spells the numbers of lines in other units. -/
def numfmt : Utility := fun call =>
  let table : OptionTable :=
    { flags := "z", valued := "d", long := [("delimiter", 'd'), ("zero-terminated", 'z')]
      longOnly := [("debug", .none), ("field", .required), ("format", .required), ("from", .required),
        ("from-unit", .required), ("grouping", .none), ("header", .optional), ("invalid", .required),
        ("padding", .required), ("round", .required), ("suffix", .required), ("to", .required),
        ("to-unit", .required)] }
  call.withOptions table 1 fun given => do
    let meetings := ["abort", "fail", "warn", "ignore"].map fun name => (name, name)
    let refuse (fault : Bytes) (hinted : Bool) : Act Nat := do
      if hinted then call.misuse fault 1
      else
        call.complain fault
        return 1
    match readPlan given, oneOf "--invalid" meetings ((given.named? "invalid").getD (utf8 "abort")) with
    | .error (fault, hinted), _ => refuse fault hinted
    | .ok _, .error fault => refuse fault true
    | .ok plan, .ok meeting =>
      let header := (given.named? "header").getD []
      if !header.isEmpty && (!Bytes.allDigits header || Bytes.digitsValue header = 0) then
        return ← refuse (utf8 "invalid header value " ++ quotedName header) false
      let ending : UInt8 := if given.has 'z' then 0 else 10
      let skipped := if !given.hasNamed "header" then 0 else if header.isEmpty then 1 else Bytes.digitsValue header
      let lines ← if !given.operands.isEmpty then pure (Except.ok (given.operands.map ((·, true))))
        else do
          let text ← Act.readAll 0
          pure (text.map fun text =>
            let parts := Bytes.fields ending text
            parts.dropLast.map ((·, true)) ++ (parts.getLast?.toList.filter (!·.isEmpty)).map ((·, false)))
      match lines with
      | .error cause =>
        call.complain (utf8 "error reading input: " ++ utf8 cause.message)
        return 1
      | .ok lines =>
        let skipped := if given.operands.isEmpty then skipped else 0
        let joint := [plan.delimiter.getD 32]
        let mut status := 0
        for (line, isWhole) in lines.take skipped do
          let _ ← call.put (line ++ if isWhole then [ending] else [])
        for (line, isWhole) in lines.drop skipped do
          let mut shown : List Bytes := []
          for field in Scaling.convertedLine plan line do
            match field with
            | .ok text => shown := text :: shown
            | .error (fault, text) =>
              if meeting == "abort" then
                let _ ← call.put (shown.reverse.flatMap (· ++ joint))
                call.complain fault
                return 2
              if meeting != "ignore" then call.complain fault
              if meeting == "fail" then status := 2
              shown := text :: shown
          if !(← call.put (Bytes.join joint shown.reverse ++ if isWhole then [ending] else [])) then status := 1
        return status

/-- The utilities of this kind by name. -/
def counting : List (String × Utility) := [("factor", factor), ("numfmt", numfmt)]

end ShellCompletion.Utility
