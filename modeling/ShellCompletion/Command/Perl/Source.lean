import ShellCompletion.Command.Perl.Basic

/-!
# The text of Perl programs

What is left of the text of a program while it is read, with what has been learned of its names; and the
parts that stand between delimiters. A document stands behind the line that asks for it, and is taken out
of the text as soon as it is asked for.
-/
namespace ShellCompletion.Perl

/-- What a name of a variable stands for. -/
inductive Binding where
  | slot (number : Nat)
  | shared (name : Bytes)
deriving DecidableEq

/-- What is left of a program. -/
structure Source where
  rest : Bytes
  line : Nat := 1
  /-- The lines of documents that have been taken out behind the line. -/
  owed : Nat := 0
  file : Bytes
  package : Bytes := utf8 "main"
  /-- The names of variables with their signs, the inmost first, and those that the statement adds. -/
  names : List (Bytes × Binding) := []
  added : List (Bytes × Binding) := []
  nextSlot : Nat := 1
  /-- The functions of modules that have been asked for. -/
  imported : List (Bytes × Function × Arity) := []
  constants : List (Bytes × Scalar) := []
  /-- The functions of the program, those of them that take no arguments, and those that take a block. -/
  functions : List Bytes := []
  nullary : List Bytes := []
  blocked : List Bytes := []
  strict : Bool := false
  /-- How strict each part of the program wants to be. -/
  wishes : List Bool := []
  /-- Lines may be printed by a command of their own. -/
  hasSay : Bool := false
  ranges : Nat := 0
  data : Option Bytes := none

abbrev Reading := StateT Source (Except Fault)

namespace Reading

def fail {α : Type} (message : Bytes) : Reading α := do throw ⟨(← get).line, message⟩

@[noinline] def rest : Reading Bytes := do return (← get).rest

/-- The next byte. -/
@[noinline] def peek : Reading (Option UInt8) := do return (← get).rest.head?

/-- Takes bytes from the front, and counts the lines among them. -/
@[noinline] def take (count : Nat) : Reading Bytes := fun source =>
  let bytes := source.rest.take count
  let lines := bytes.count 10
  let source := if lines = 0 then source
    else { source with line := source.line + lines + source.owed, owed := 0 }
  .ok (bytes, { source with rest := source.rest.drop count })

@[noinline] def takeWhile (isWanted : UInt8 → Bool) : Reading Bytes := do
  take ((← rest).takeWhile isWanted).length

/-! ## Names -/

def isNameStart (c : UInt8) : Bool := Bytes.isAlpha c || c == '_'.toUInt8 || 128 ≤ c

def isNameByte (c : UInt8) : Bool := isNameStart c || Bytes.isDigit c

/-- How long the name at the start of a text is; its parts may be joined by pairs of colons. -/
def nameLength : (fuel : Nat) → Bytes → Nat
  | 0, _ => 0
  | fuel + 1, s =>
    let word := s.takeWhile isNameByte
    match s.drop word.length with
    | 58 :: 58 :: rest =>
      if rest.head?.any isNameStart then word.length + 2 + nameLength fuel rest
      else if word.isEmpty then 0 else word.length
    | _ => word.length

/-- The name at the start of a text, which starts with no digit. -/
def nameAt (s : Bytes) : Bytes :=
  if s.head?.any (fun c => isNameStart c || c == ':'.toUInt8) then s.take (nameLength s.length s) else []

/-! ## Blanks -/

/-- The lines of a text about the program, which end with a mark. -/
def skipRemarks : (fuel : Nat) → Reading Unit
  | 0 => pure ()
  | fuel + 1 => do
    let line ← takeWhile (· != 10)
    let _ ← take 1
    if !(utf8 "=cut").isPrefixOf line && !(← rest).isEmpty then skipRemarks fuel

/-- Skips blanks and remarks. `fuel` bounds them. -/
def skipBlanks : (fuel : Nat) → Reading Unit
  | 0 => pure ()
  | fuel + 1 => do
    match ← rest with
    | 10 :: 61 :: c :: _ =>
      let _ ← take 1
      if Bytes.isAlpha c then skipRemarks ((← rest).length + 1)
      skipBlanks fuel
    | c :: _ =>
      if c = '#'.toUInt8 then
        let _ ← takeWhile (· != 10)
        skipBlanks fuel
      else if Bytes.isSpace c then
        let _ ← take 1
        skipBlanks fuel
    | [] => pure ()

@[noinline] def skip : Reading Unit := do skipBlanks ((← rest).length + 1)

/-- The text goes on so, after blanks. -/
@[noinline] def sees (text : String) : Reading Bool := do
  skip
  return (utf8 text).isPrefixOf (← rest)

/-- Takes a sign if the text goes on so. -/
@[noinline] def accept (sign : String) : Reading Bool := do
  if ← sees sign then
    let _ ← take (utf8 sign).length
    return true
  else return false

/-- What is said about a place that makes no sense. -/
def senseless {α : Type} : Reading α := do
  let near := (← rest).take 40
  let shown := near.takeWhile (· != 10)
  if near.isEmpty then fail (utf8 "syntax error at " ++ (← get).file ++ utf8 " line " ++
    Bytes.decimal (max 1 ((← get).line - 1)) ++ utf8 ", at EOF")
  else fail (utf8 "syntax error at " ++ (← get).file ++ utf8 " line " ++ Bytes.decimal (← get).line ++
    utf8 ", near \"" ++ shown ++ utf8 "\"")

@[noinline] def expect (sign : String) : Reading Unit := do
  if !(← accept sign) then senseless

/-- The word that comes next, after blanks; it stays where it is. -/
@[noinline] def word : Reading Bytes := do
  skip
  return nameAt (← rest)

/-- Takes a word if it comes next. -/
@[noinline] def acceptWord (wanted : String) : Reading Bool := do
  if (← word) == utf8 wanted then
    let _ ← take (utf8 wanted).length
    return true
  else return false

/-! ## Delimiters -/

/-- The byte that closes what a byte opens. -/
def closing (c : UInt8) : UInt8 :=
  if c = '('.toUInt8 then ')'.toUInt8
  else if c = '['.toUInt8 then ']'.toUInt8
  else if c = 0x7b then 0x7d
  else if c = '<'.toUInt8 then '>'.toUInt8
  else c

/-- How long the text up to a closing byte is; what is opened and closed within it belongs to it. A
    backslash takes the meaning of a byte away. -/
def delimitedLength (opening ending : UInt8) : (depth length : Nat) → Bytes → Option Nat
  | _, _, [] => none
  | depth, length, 92 :: _ :: rest => delimitedLength opening ending depth (length + 2) rest
  | depth, length, c :: rest =>
    if c = ending then
      match depth with
      | 0 => some length
      | depth + 1 => delimitedLength opening ending depth (length + 1) rest
    else if c = opening then delimitedLength opening ending (depth + 1) (length + 1) rest
    else delimitedLength opening ending depth (length + 1) rest

/-- Takes the text between delimiters, of which the first one comes next. -/
@[noinline] def delimited : Reading Bytes := do
  match ← rest with
  | [] => senseless
  | opening :: after =>
    let ending := closing opening
    match delimitedLength opening ending 0 0 after with
    | none =>
      fail (utf8 "Can't find string terminator " ++
        (if ending = 34 then utf8 "'\"'" else utf8 "\"" ++ [ending] ++ utf8 "\"") ++
        utf8 " anywhere before EOF at " ++ (← get).file ++ utf8 " line " ++ Bytes.decimal (← get).line ++
        utf8 ".")
    | some length =>
      let _ ← take 1
      let text ← take length
      let _ ← take 1
      return text

/-- The text between plain quotes: a backslash stands for itself, unless another one or the delimiter
    follows. -/
def plainText (opening : UInt8) : Bytes → Bytes
  | [] => []
  | [c] => [c]
  | c :: d :: rest =>
    if c = 92 && (d = 92 || d = opening || d = closing opening) then d :: plainText opening rest
    else c :: plainText opening (d :: rest)

def wordsOf (text : Bytes) : List Bytes :=
  let cut := text.map fun c => if Bytes.isSpace c then 32 else c
  (Bytes.fields 32 cut).filter (!·.isEmpty)

/-! ## Escapes -/

/-- The byte or the bytes that an escape stands for, whose letter comes first, and how long it is. -/
def escapeAt (s : Bytes) : Bytes × Nat :=
  match s with
  | [] => ([92], 0)
  | c :: rest =>
    let is (letter : Char) : Bool := c == letter.toUInt8
    let code (n : Nat) : Bytes := if n < 256 then [UInt8.ofNat n] else wideText n
    if is 'n' then ([10], 1)
    else if is 't' then ([9], 1)
    else if is 'r' then ([13], 1)
    else if is 'a' then ([7], 1)
    else if is 'e' then ([27], 1)
    else if is 'f' then ([12], 1)
    else if is 'b' then ([8], 1)
    else if is 'x' then
      match rest with
      | 0x7b :: after =>
        let digits := after.takeWhile (· != 0x7d)
        (code (Bytes.valueIn 16 (digits.filter Bytes.isHex)), digits.length + 3)
      | rest =>
        let digits := (rest.take 2).takeWhile Bytes.isHex
        (code (Bytes.valueIn 16 digits), digits.length + 1)
    else if is 'N' && (utf8 "\x7bU+").isPrefixOf rest then
      let digits := (rest.drop 3).takeWhile (· != 0x7d)
      (code (Bytes.valueIn 16 digits), digits.length + 5)
    else if is 'o' && rest.head? == some 0x7b then
      let digits := (rest.drop 1).takeWhile (· != 0x7d)
      (code (Bytes.valueIn 8 digits), digits.length + 3)
    else if is 'c' then
      match rest with
      | d :: _ => ([(Bytes.upperByte d) ^^^ 64], 2)
      | [] => ([], 1)
    else if Bytes.isOctal c then
      let digits := (s.take 3).takeWhile Bytes.isOctal
      (code (Bytes.valueIn 8 digits), digits.length)
    else ([c], 1)

/-- The bytes of a list for translation, with escapes and ranges written out. `fuel` bounds them. -/
def translated : (fuel : Nat) → Bytes → List (UInt8 × Bool)
  | 0, _ => []
  | _, [] => []
  | fuel + 1, 92 :: rest =>
    let (bytes, length) := escapeAt rest
    bytes.map ((·, true)) ++ translated fuel (rest.drop length)
  | fuel + 1, c :: rest => (c, false) :: translated fuel rest

def writtenOut : (fuel : Nat) → List (UInt8 × Bool) → Bytes
  | 0, _ => []
  | fuel + 1, (a, _) :: (45, false) :: (b, _) :: rest =>
    (List.range (b.toNat + 1 - a.toNat)).map (fun k => a + UInt8.ofNat k) ++ writtenOut fuel rest
  | fuel + 1, (a, _) :: rest => a :: writtenOut fuel rest
  | _, [] => []

def translationOf (text : Bytes) : Bytes :=
  writtenOut (text.length + 1) (translated (text.length + 1) text)

/-! ## Documents -/

def documentLines (delimiter : Bytes) (indented : Bool) : (fuel : Nat) → Bytes →
    Option (List Bytes × Bytes)
  | 0, _ => none
  | fuel + 1, s =>
    let line := s.takeWhile (· != 10)
    let shown := if indented then line.dropWhile fun c => c == 32 || c == 9 else line
    let rest := s.drop (line.length + 1)
    if shown = delimiter then some ([], rest)
    else if s.isEmpty then none
    else (documentLines delimiter indented fuel rest).map fun (lines, rest) => (line :: lines, rest)

/-- The lines without the blanks that all of them start with. -/
def unindented (lines : List Bytes) : List Bytes :=
  let isGap (c : UInt8) : Bool := c == 32 || c == 9
  let depths := (lines.filter fun line => !line.all isGap).map fun line => (line.takeWhile isGap).length
  let depth := (depths.min?).getD 0
  lines.map fun line => line.drop (min depth (line.takeWhile isGap).length)

/-- Takes a document out of the text behind the line. -/
@[noinline] def document (delimiter : Bytes) (indented : Bool) : Reading Bytes := do
  let source ← get
  let line := source.rest.takeWhile (· != 10)
  let behind := source.rest.drop (line.length + 1)
  match documentLines delimiter indented (behind.length + 2) behind with
  | none =>
    fail (utf8 "Can't find string terminator \"" ++ delimiter ++ utf8 "\" anywhere before EOF at " ++
      source.file ++ utf8 " line " ++ Bytes.decimal source.line ++ utf8 ".")
  | some (lines, rest) =>
    set { source with rest := line ++ 10 :: rest, owed := source.owed + lines.length + 1 }
    let lines := if indented then unindented lines else lines
    return lines.flatMap (· ++ [10])

/-! ## Variables -/

/-- The statement is over: the variables that it adds can be seen. -/
@[noinline] def introduce : Reading Unit := modify fun source =>
  { source with names := source.added ++ source.names, added := [] }

/-- A new variable of the block. -/
@[noinline] def declare (name : Bytes) : Reading Nat := do
  let source ← get
  set { source with
    nextSlot := source.nextSlot + 1, added := (name, .slot source.nextSlot) :: source.added }
  return source.nextSlot

/-- Reads a part of the program whose variables, package and manner end with it. -/
def inBlock {α : Type} (part : Reading α) : Reading α := do
  introduce
  let before ← get
  let result ← part
  modify fun source => { source with
    names := before.names, added := [], package := before.package, strict := before.strict }
  return result

/-- Names that are known in all packages. -/
def everywhere : List Bytes :=
  ["ENV", "ARGV", "INC", "STDIN", "STDOUT", "STDERR", "ARGVOUT", "SIG", "_", "0"].map utf8

def qualified (package name : Bytes) : Bytes :=
  if (utf8 "::").isPrefixOf name then utf8 "main" ++ name
  else if (List.range name.length).any fun k => (utf8 "::").isPrefixOf (name.drop k) then name
  else if everywhere.contains name || !name.head?.any isNameStart then utf8 "main::" ++ name
  else package ++ utf8 "::" ++ name

/-- The sign of a kind of variable. -/
def signOf : Sigil → UInt8
  | .scalar => '$'.toUInt8
  | .array => '@'.toUInt8
  | .table => '%'.toUInt8
  | .code => '&'.toUInt8
  | .handle => '*'.toUInt8

@[noinline] def variableOf (sigil : Sigil) (name : Bytes) : Reading Expr := do
  let source ← get
  let signed := signOf sigil :: name
  if sigil = .array && name = utf8 "_" then return .arguments
  match source.names.lookup signed with
  | some (.slot number) => return .lexical sigil number
  | some (.shared name) => return .shared sigil name
  | none =>
    if sigil = .scalar && name.head?.any Bytes.isDigit && name != utf8 "0" then
      return .capture (Bytes.digitsValue name)
    if sigil = .scalar && name = utf8 "&" then return .capture 0
    if sigil = .scalar && (name = [96] || name = [39]) then return .around (name = [39])
    let isFree := everywhere.contains name || !name.head?.any isNameStart || name.contains ':'.toUInt8 ||
      (sigil = .scalar && (name = utf8 "a" || name = utf8 "b")) || sigil = .code || sigil = .handle
    if source.strict && !isFree then
      fail (utf8 "Global symbol \"" ++ signed ++
        utf8 "\" requires explicit package name (did you forget to declare \"my " ++ signed ++
        utf8 "\"?) at " ++ source.file ++ utf8 " line " ++ Bytes.decimal source.line ++ utf8 ".")
    return .shared sigil (qualified source.package name)

end Reading

end ShellCompletion.Perl
