import ShellCompletion.Command.Perl.Source

/-!
# Reading Perl programs

A program is read byte by byte: what a byte means depends on whether a value or an operator may come next.
Operators bind by their ranks. A name stands for a function, a text or a file, as the text around it and
the functions that are known so far tell.
-/
namespace ShellCompletion.Perl

namespace Reading

/-! ## Operators -/

/-- An operator between two values. -/
inductive Joint where
  | operator (operator : Operator)
  | compare (texts : Bool) (comparison : Comparison)
  | connect (connective : Connective)
  | bind (wanted : Bool)

/-- The operators that are signs, each with its rank; longer ones come first. -/
def signs : List (String × Nat × Joint) :=
  [("<=>", 11, .compare false .order), ("=~", 17, .bind true), ("!~", 17, .bind false),
   ("**", 19, .operator .power), ("||", 7, .connect .either), ("//", 7, .connect .otherwise),
   ("&&", 8, .connect .both), ("==", 11, .compare false .equal), ("!=", 11, .compare false .notEqual),
   ("<<", 14, .operator .shiftLeft), (">>", 14, .operator .shiftRight),
   ("<=", 12, .compare false .lessOrEqual), (">=", 12, .compare false .greaterOrEqual),
   ("<", 12, .compare false .less), (">", 12, .compare false .greater),
   ("|", 9, .operator .bitOr), ("^", 9, .operator .bitXor), ("&", 10, .operator .bitAnd),
   ("+", 15, .operator .plus), ("-", 15, .operator .minus), (".", 15, .operator .joined),
   ("*", 16, .operator .times), ("/", 16, .operator .divided), ("%", 16, .operator .modulo)]

def wordSigns : List (String × Nat × Joint) :=
  [("lt", 12, .compare true .less), ("gt", 12, .compare true .greater),
   ("le", 12, .compare true .lessOrEqual), ("ge", 12, .compare true .greaterOrEqual),
   ("eq", 11, .compare true .equal), ("ne", 11, .compare true .notEqual), ("cmp", 11, .compare true .order)]

/-- The signs that may stand before a sign of equality to change a value. -/
def updating : List (String × (Operator ⊕ Connective)) :=
  [("**", .inl .power), ("||", .inr .either), ("//", .inr .otherwise), ("&&", .inr .both),
   ("<<", .inl .shiftLeft), (">>", .inl .shiftRight), ("+", .inl .plus), ("-", .inl .minus),
   ("*", .inl .times), ("/", .inl .divided), (".", .inl .joined), ("%", .inl .modulo),
   ("x", .inl .repeated), ("&", .inl .bitAnd), ("|", .inl .bitOr), ("^", .inl .bitXor)]

/-- The operator that comes next, with its rank and its length. -/
def joint? : Reading (Option (Joint × Nat × Nat)) := do
  skip
  let s ← rest
  match s with
  | [] => return none
  | c :: after =>
    if Bytes.isAlpha c then
      let name := nameAt s
      if c = 'x'.toUInt8 && (name.drop 1).all Bytes.isDigit && after.head? != some '='.toUInt8 then
        return some (.operator .repeated, 16, 1)
      return (wordSigns.find? fun entry => utf8 entry.1 == name).map fun (sign, rank, joint) =>
        (joint, rank, sign.length)
    else
      match signs.find? fun entry => (utf8 entry.1).isPrefixOf s with
      | none => return none
      | some (sign, rank, joint) =>
        let behind := (s.drop sign.length).head?
        let isUpdate := behind == some '='.toUInt8 && updating.any (·.1 == sign)
        let isRange := sign == "." && behind == some '.'.toUInt8
        return if isUpdate || isRange then none else some (joint, rank, sign.length)

/-- The words that stand behind a value, so that no value starts with them. -/
def behindValues : List String :=
  ["x", "eq", "ne", "lt", "gt", "le", "ge", "cmp", "and", "or", "xor", "if", "unless", "while", "until",
   "for", "foreach", "isa"]

def startsValue : Reading Bool := do
  skip
  let s ← rest
  match s with
  | [] => return false
  | c :: after =>
    if isNameStart c then
      let name := nameAt s
      if behindValues.any (utf8 · == name) then
        return (utf8 "=>").isPrefixOf ((s.drop name.length).dropWhile Bytes.isSpace)
      else return true
    else if Bytes.isDigit c then return true
    else if (utf8 "$@\\\"'!~([").contains c || c = 96 || c = 0x7b then return true
    else if c = '-'.toUInt8 || c = '+'.toUInt8 then
      return after.head? != some '='.toUInt8 && after.head? != some '>'.toUInt8
    else if c = '/'.toUInt8 then return after.head? != some '/'.toUInt8
    else if c = '<'.toUInt8 then
      return after.head? != some '='.toUInt8 && after.head? != some 32
    else if c = '%'.toUInt8 || c = '&'.toUInt8 || c = '*'.toUInt8 then
      return after.head?.any fun d => isNameStart d || d == '$'.toUInt8 || d == 0x7b || d == '+'.toUInt8
    else if c = '.'.toUInt8 then return after.head?.any Bytes.isDigit
    else return false

/-- Several values can be put into this. -/
def takesList : Expr → Bool
  | .list _ | .arguments | .slice .. | .entries .. => true
  | .lexical sigil _ | .shared sigil _ | .follow sigil _ => sigil = .array || sigil = .table
  | .declare slots isList => isList || slots.any fun slot => slot.1 != .scalar
  | .persistent sigil _ _ => sigil != .scalar
  | .localize target => takesList target
  | _ => false

/-- A single value can be put into this. -/
def isPlace : Expr → Bool
  | .lexical .. | .shared .. | .element .. | .entry .. | .follow .. | .lastIndex _ | .declare .. | .list _ => true
  | _ => false

def topic : Expr := .shared .scalar (utf8 "main::_")

/-- The condition of a loop: a line that is read becomes the topic, and counts if there is one. -/
def loopCondition (condition : Expr) : Expr :=
  let isReading : Expr → Bool
    | .readLine _ | .readFiles | .glob _ => true
    | .function f _ => f = .readdir || f = .shift || f = .each
    | _ => false
  match condition with
  | .readLine _ | .readFiles | .glob _ => .function .defined [.assign topic condition]
  | .function .readdir _ => .function .defined [.assign topic condition]
  | .assign _ value =>
    if isReading value then
      match value with
      | .function .shift _ => condition
      | _ => .function .defined [condition]
    else condition
  | condition => condition

/-! ## Constants -/

/-- Takes a number. -/
def numeral : Reading Scalar := do
  let s ← rest
  let clean (digits : Bytes) : Bytes := digits.filter (· != '_'.toUInt8)
  let isIn (isDigit : UInt8 → Bool) (c : UInt8) : Bool := isDigit c || c == '_'.toUInt8
  match s with
  | 48 :: c :: after =>
    let base := if c = 'x'.toUInt8 || c = 'X'.toUInt8 then 16
      else if c = 'b'.toUInt8 || c = 'B'.toUInt8 then 2
      else if c = 'o'.toUInt8 then 8 else 0
    if base != 0 then
      let digits := after.takeWhile (isIn Bytes.isHex)
      let _ ← take (digits.length + 2)
      return Scalar.ofInt (Bytes.valueIn base (clean digits))
    if Bytes.isDigit c then
      let digits := (c :: after).takeWhile (isIn Bytes.isDigit)
      let _ ← take (digits.length + 1)
      return Scalar.ofInt (Bytes.valueIn 8 (clean digits))
  | _ => pure ()
  let whole := s.takeWhile (isIn Bytes.isDigit)
  let behind := s.drop whole.length
  let fraction := match behind with
    | 46 :: 46 :: _ => []
    | 46 :: after => 46 :: after.takeWhile (isIn Bytes.isDigit)
    | _ => []
  let behind := behind.drop fraction.length
  let exponent := match behind with
    | c :: after =>
      if c = 'e'.toUInt8 || c = 'E'.toUInt8 then
        let sign := (after.take 1).filter fun d => d == '-'.toUInt8 || d == '+'.toUInt8
        let digits := (after.drop sign.length).takeWhile Bytes.isDigit
        if digits.isEmpty then [] else c :: sign ++ digits
      else []
    | [] => []
  let text := whole ++ fraction ++ exponent
  let _ ← take text.length
  return (readNumber (clean text)).1

/-- The delimiter of a quoted text comes next: it stands right here, or behind blanks. -/
def startsQuote : Reading Bool := do
  match ← rest with
  | [] => return false
  | c :: after =>
    if Bytes.isSpace c then
      match after.dropWhile Bytes.isSpace with
      | d :: e :: _ => return !(isNameByte d || d == '#'.toUInt8 || d == ','.toUInt8 || d == ';'.toUInt8 ||
          d == ')'.toUInt8 || (d == '='.toUInt8 && (e == '>'.toUInt8 || e == '='.toUInt8 || e == 32)))
      | _ => return false
    else
      let isArrow := c == '='.toUInt8 && (after.head? == some '>'.toUInt8 || after.head? == some 32)
      return !(isNameByte c || c == ','.toUInt8 || c == ';'.toUInt8 || c == ')'.toUInt8 || isArrow)

/-- The text of quotes without the backslashes before the delimiter. -/
def unprotected (delimiter : UInt8) : Bytes → Bytes
  | [] => []
  | [c] => [c]
  | c :: d :: rest =>
    if c = 92 && d = delimiter && d != 92 then d :: unprotected delimiter rest
    else if c = 92 then c :: d :: unprotected delimiter rest
    else c :: unprotected delimiter (d :: rest)

/-- Takes a text between delimiters after blanks, and gives the delimiter as well. -/
def quotedPart : Reading (UInt8 × Bytes) := do
  skip
  let opening := (← peek).getD 0
  return (opening, ← delimited)

/-- The letters behind an expression to match with. -/
def letters : Reading Flags := do return ⟨← takeWhile Bytes.isLower⟩

def withText {α : Type} (text : Bytes) (part : Reading α) : Reading α := do
  let before ← get
  set { before with rest := text }
  let result ← part
  modify fun source => { source with rest := before.rest, line := before.line, owed := before.owed }
  return result

def flushed (found : Bytes) (parts : List Expr) : List Expr :=
  if found.isEmpty then parts else .constant (.text found.reverse) :: parts

def textOfParts : List Expr → Expr
  | [] => .constant (.text [])
  | [.constant value] => .constant value
  | parts => .interpolated parts

/-- A variable starts behind a dollar sign within a text. -/
def startsVariable (isPattern : Bool) (after : Bytes) : Bool :=
  match after with
  | [] => false
  | c :: more =>
    if isNameStart c || Bytes.isDigit c || c = '&'.toUInt8 then true
    else if c = '#'.toUInt8 then more.head?.any fun d =>
        d == 0x7b || d == '$'.toUInt8 || isNameStart d || (!isPattern && (d == '+'.toUInt8 || d == '-'.toUInt8))
    else if c = 0x7b then !isPattern || !more.head?.any fun d => d == ','.toUInt8
    else if c = ':'.toUInt8 then
      match more with
      | 58 :: d :: _ => isNameStart d
      | _ => false
    else if c = '$'.toUInt8 then
      if isPattern then more.head?.any fun d => isNameStart d || d == 0x7b else true
    else if c = '+'.toUInt8 || c = '-'.toUInt8 then !isPattern || more.head? == some 0x7b
    else if c = '^'.toUInt8 then !isPattern && more.head?.any Bytes.isUpper
    else !isPattern && ((utf8 "@!,./\\;0'?\"<>()|~=%]").contains c || c = 96)

/-- A subscript starts here within a text. -/
def startsSubscript (isPattern : Bool) (s : Bytes) : Bool :=
  match s with
  | 91 :: after =>
    let inside := after.takeWhile (· != ']'.toUInt8)
    let isNumber := Bytes.allDigits (if inside.head? == some '-'.toUInt8 then inside.drop 1 else inside)
    if after.length = inside.length then false
    else if isPattern then isNumber || (inside.head? == some '$'.toUInt8 && 1 < inside.length)
    else inside.head?.any fun c => c == '$'.toUInt8 || c == '-'.toUInt8 || isNameByte c
  | 0x7b :: after =>
    let inside := after.takeWhile (· != 0x7d)
    !(isPattern && !inside.isEmpty && inside.all fun c => Bytes.isDigit c || c == ','.toUInt8)
  | _ => false

/-- The name of a handle may come next in a command that prints. -/
def handleName? : Reading (Option Bytes) := do
  skip
  let s ← rest
  let name := nameAt s
  let behind := s.drop name.length
  let after := behind.dropWhile fun c => c == 32 || c == 9
  let source ← get
  let isKnown := source.functions.contains (qualified source.package name) || source.nullary.contains (qualified source.package name) ||
    (coreFunction? name).isSome || (source.imported.any (·.1 == name)) || source.constants.any (·.1 == name)
  let isOther := ["qw", "qq", "q", "map", "grep", "sort", "my", "our", "local", "sub", "do", "eval", "print", "x",
    "not", "return", "__PACKAGE__", "__LINE__", "__FILE__", "tr", "s", "y", "m", "qr", "qx", "require"].any (utf8 · == name)
  if name.isEmpty || isKnown || isOther then return none
  if behindValues.any (utf8 · == name) then return none
  match after with
  | [] => return some name
  | c :: more =>
    let isSpaced := after.length < behind.length && name.all fun d => Bytes.isUpper d || Bytes.isDigit d || d == '_'.toUInt8
    if c = '('.toUInt8 && isSpaced then return some name
    if c = '('.toUInt8 || c = ','.toUInt8 || c = '.'.toUInt8 || c = '='.toUInt8 || c = '-'.toUInt8 ||
        c = '+'.toUInt8 || c = '*'.toUInt8 || c = '?'.toUInt8 || c = '|'.toUInt8 || c = '>'.toUInt8 then return none
    if c = '<'.toUInt8 && more.head? != some '<'.toUInt8 then return none
    if c = ':'.toUInt8 then return none
    return some name

/-- A variable that holds a handle comes next in a command that prints: a value follows it. -/
def hasHandleVariable : Reading Bool := do
  skip
  match ← rest with
  | 36 :: s =>
    let name := nameAt s
    let behind := s.drop name.length
    let after := behind.dropWhile fun c => c == 32 || c == 9
    if name.isEmpty || behind.length = after.length then return false
    match after with
    | [] => return false
    | c :: more =>
      if isNameStart c then
        let word := nameAt after
        return !behindValues.any (utf8 · == word)
      else if Bytes.isDigit c || c = '"'.toUInt8 || c = 39 || c = '$'.toUInt8 || c = '@'.toUInt8 || c = 92 then return true
      else if c = '<'.toUInt8 then
        return more.head? == some '<'.toUInt8 && (more.drop 1).head?.any fun d =>
          isNameStart d || d == '"'.toUInt8 || d == 39 || d == '~'.toUInt8
      else if c = '%'.toUInt8 || c = '&'.toUInt8 then return more.head?.any isNameStart && false
      else return false
  | _ => return false

/-- The slots of a declaration become known behind the statement. -/
def declareAll (persistent : Bool) (names : List Bytes) : Reading (List (Sigil × Nat)) := do
  let _ := persistent
  names.mapM fun name => do
    let sigil := if name.head? = some '@'.toUInt8 then Sigil.array
      else if name.head? = some '%'.toUInt8 then .table else .scalar
    if name = utf8 "undef" then return (Sigil.scalar, 0)
    return (sigil, ← declare name)

/-- The names of a declaration in brackets. `fuel` bounds them. -/
def declaredNames : (fuel : Nat) → Reading (List Bytes)
  | 0 => senseless
  | fuel + 1 => do
    skip
    if ← accept ")" then return []
    if ← accept "," then return ← declaredNames fuel
    if ← acceptWord "undef" then return utf8 "undef" :: (← declaredNames fuel)
    match ← rest with
    | c :: after =>
      let name := nameAt after
      if !(utf8 "$@%").contains c || name.isEmpty then senseless
      let _ ← take (name.length + 1)
      return (c :: name) :: (← declaredNames fuel)
    | [] => senseless

def partsOf : Expr → List Expr
  | .list parts => parts
  | other => [other]

/-- A test of a file comes next: a dash, a letter and no more of a name. -/
def fileTest? : Reading (Option UInt8) := do
  match ← rest with
  | 45 :: c :: after =>
    let isLetter := (utf8 "rwxoRWXOezsfdlpSbctugkTBAMC").contains c
    let isAlone := !after.head?.any isNameByte
    let behind := after.dropWhile Bytes.isSpace
    let isArrow := (utf8 "=>").isPrefixOf behind || behind.head? == some '='.toUInt8 ||
      behind.head? == some ','.toUInt8
    return if isLetter && isAlone && !isArrow then some c else none
  | _ => return none

/-- The functions of modules whose first argument may be a block. -/
def takesBlock (f : Function) : Bool :=
  f = .first || f = .any || f = .all || f = .none_ || f = .reduce || f = .pairmap

/-- The functions that work on a container that is their first argument. -/
def defaultsToArguments (f : Function) : Bool := f = .shift || f = .pop

/-- Makes the functions and the constants of a module known. -/
def importAll (name : Bytes) (wanted : Option (List Bytes)) (byTag : Bool) : Reading Unit := do
  let functions := ((modules.find? fun entry => utf8 entry.1 == name).map Prod.snd).getD []
  let bare (word : Bytes) : Bytes := if word.head? = some '&'.toUInt8 then word.drop 1 else word
  let isAsked (word : Bytes) : Bool := match wanted with
    | some words => (words.map bare).contains word || (byTag && words.isEmpty)
    | none => ! ["List::Util", "Scalar::Util", "Time::HiRes"].any (utf8 · == name)
  let found := functions.filterMap fun (word, f, arity) =>
    if isAsked (utf8 word) then some (utf8 word, f, arity) else none
  let constants := moduleConstants.filterMap fun (module, word, value) =>
    if utf8 module == name && (isAsked (utf8 word) || byTag) then some (utf8 word, value) else none
  modify fun source => { source with
    imported := found ++ source.imported, constants := constants ++ source.constants }

def textsOf : (fuel : Nat) → Expr → List Bytes
  | 0, _ => []
  | _, .constant (.text bytes) => [bytes]
  | fuel + 1, .list parts => parts.flatMap (textsOf fuel)
  | _, _ => []

/-- What stands in braces at the start of a statement is a table: there is nothing in them, or a name comes
    first. -/
def startsTable (s : Bytes) : Bool :=
  let inside := (s.drop 1).dropWhile Bytes.isSpace
  match inside with
  | [] => false
  | c :: after =>
    let name := if c = '"'.toUInt8 || c = 39 then
        c :: after.takeWhile (· != c) ++ [c]
      else inside.takeWhile isNameByte
    let behind := (inside.drop name.length).dropWhile Bytes.isSpace
    let isComma := behind.head? == some ','.toUInt8 && !Bytes.isLower c
    c = 0x7d && ((after.dropWhile Bytes.isSpace).head?.all fun d => d == 0x7d || d == ')'.toUInt8 || d == ';'.toUInt8) ||
      (!name.isEmpty && (isComma || (utf8 "=>").isPrefixOf behind))

/-- Whether variables have to be declared from here on. -/
def beStrict (wanted : Bool) : Reading Unit := modify fun source =>
  { source with strict := wanted, wishes := wanted :: source.wishes }

/-- Names and values in turn. -/
def pairsOf : List Expr → List (Expr × Expr)
  | a :: b :: rest => (a, b) :: pairsOf rest
  | _ => []

set_option maxHeartbeats 400000

mutual

def expression : (fuel : Nat) → Reading Expr
  | 0 => senseless
  | fuel + 1 => do moreAlternatives fuel (← conjunction fuel)

def moreAlternatives : (fuel : Nat) → Expr → Reading Expr
  | 0, _ => senseless
  | fuel + 1, first => do
    if ← acceptWord "or" then moreAlternatives fuel (.connect .either first (← conjunction fuel))
    else if ← acceptWord "xor" then moreAlternatives fuel (.exclusive first (← conjunction fuel))
    else return first

def conjunction : (fuel : Nat) → Reading Expr
  | 0 => senseless
  | fuel + 1 => do moreConditions fuel (← negation fuel)

def moreConditions : (fuel : Nat) → Expr → Reading Expr
  | 0, _ => senseless
  | fuel + 1, first => do
    if ← acceptWord "and" then moreConditions fuel (.connect .both first (← negation fuel))
    else return first

def negation : (fuel : Nat) → Reading Expr
  | 0 => senseless
  | fuel + 1 => do
    if ← acceptWord "not" then return .not (← negation fuel) else commas fuel

def commas : (fuel : Nat) → Reading Expr
  | 0 => senseless
  | fuel + 1 => do
    let first ← assignment fuel
    if (← sees ",") || (← sees "=>") then return .list (first :: (← moreParts fuel)) else return first

def moreParts : (fuel : Nat) → Reading (List Expr)
  | 0 => senseless
  | fuel + 1 => do
    if (← accept "=>") || (← accept ",") then
      if (← sees ",") || (← sees "=>") then moreParts fuel
      else if ← startsValue then
        let part ← assignment fuel
        return part :: (← moreParts fuel)
      else return []
    else return []

def assignment : (fuel : Nat) → Reading Expr
  | 0 => senseless
  | fuel + 1 => do
    let target ← conditional fuel
    skip
    let s ← rest
    if s.head? = some '='.toUInt8 && ! ["==", "=~", "=>"].any (fun sign => (utf8 sign).isPrefixOf s) then
      let _ ← take 1
      let value ← assignment fuel
      match target with
      | .persistent sigil slot _ => return .persistent sigil slot (some value)
      | target => return if takesList target then .assignList target value else .assign target value
    else match updating.find? fun entry => (utf8 (entry.1 ++ "=")).isPrefixOf s with
      | some (sign, kind) =>
        if (utf8 (sign ++ "=>")).isPrefixOf s || (utf8 (sign ++ "==")).isPrefixOf s then return target
        let _ ← take (sign.length + 1)
        let value ← assignment fuel
        match kind with
        | .inl .repeated =>
          if takesList target then return .assignList target (.repeatList target value)
          return .update .repeated target value
        | .inl operator => return .update operator target value
        | .inr connective => return .updateIf connective target value
      | none => return target

def conditional : (fuel : Nat) → Reading Expr
  | 0 => senseless
  | fuel + 1 => do
    let condition ← range fuel
    if ← accept "?" then
      let yes ← assignment fuel
      expect ":"
      let no ← assignment fuel
      return .choice condition yes no
    else return condition

def range : (fuel : Nat) → Reading Expr
  | 0 => senseless
  | fuel + 1 => do
    let first ← binary fuel 7
    let isLong ← sees "..."
    if isLong || (← sees "..") then
      let _ ← take (if isLong then 3 else 2)
      let last ← binary fuel 7
      let source ← get
      set { source with ranges := source.ranges + 1 }
      return .range first last source.ranges isLong
    else return first

def binary : (fuel : Nat) → (rank : Nat) → Reading Expr
  | 0, _ => senseless
  | fuel + 1, rank => do moreOperators fuel rank (← signed fuel)

def moreOperators : (fuel : Nat) → (rank : Nat) → Expr → Reading Expr
  | 0, _, _ => senseless
  | fuel + 1, rank, left => do
    match ← joint? with
    | none => return left
    | some (joint, found, length) =>
      if found < rank || found = 19 then return left
      let _ ← take length
      let right ← if found = 17 then signed fuel else binary fuel (found + 1)
      let whole ← match joint with
        | .operator .repeated => match left with
          | .list _ => pure (.repeatList left right)
          | left => pure (.binary .repeated left right)
        | .operator operator => pure (.binary operator left right)
        | .compare texts comparison => pure (.compare texts comparison left right)
        | .connect connective => pure (.connect connective left right)
        | .bind wanted => match right with
          | .isMatch none pattern flags _ => pure (.isMatch (some left) pattern flags wanted)
          | .substitute none pattern replacement flags =>
            let whole := Expr.substitute (some left) pattern replacement flags
            pure (if wanted then whole else .not whole)
          | .translate none translation => pure (.translate (some left) translation)
          | right => pure (.isMatch (some left) right {} wanted)
      moreOperators fuel rank whole

def signed : (fuel : Nat) → Reading Expr
  | 0 => senseless
  | fuel + 1 => do
    skip
    let s ← rest
    match s with
    | [] => senseless
    | c :: after =>
      if c = '!'.toUInt8 && after.head? != some '~'.toUInt8 then
        let _ ← take 1
        return .not (← signed fuel)
      else if c = '~'.toUInt8 then
        let _ ← take 1
        return .complement (← signed fuel)
      else if c = 92 then
        let _ ← take 1
        return .reference (← signed fuel)
      else if (utf8 "++").isPrefixOf s || (utf8 "--").isPrefixOf s then
        let _ ← take 2
        return .step (← signed fuel) (c == '+'.toUInt8) false
      else if c = '+'.toUInt8 then
        let _ ← take 1
        signed fuel
      else if c = '-'.toUInt8 then
        match ← fileTest? with
        | some letter =>
          let _ ← take 2
          if ← startsValue then return .fileTest letter (← signed fuel)
          else return .fileTest letter topic
        | none =>
          let _ ← take 1
          let name := nameAt after
          let isWord := !name.isEmpty && (coreFunction? name).isNone && !name.contains ':'.toUInt8 &&
            (after.drop name.length).head? != some '('.toUInt8
          let source ← get
          if isWord && !source.nullary.contains (qualified source.package name) &&
              !source.constants.any (·.1 == name) && !source.functions.contains (qualified source.package name) then
            let _ ← take name.length
            return .constant (.text ('-'.toUInt8 :: name))
          return .negate (← signed fuel)
      else
        let base ← stepped fuel
        if (← sees "**") && !(← sees "**=") then
          let _ ← take 2
          return .binary .power base (← signed fuel)
        else return base

/-- Reads a value that may go on by one. -/
def stepped : (fuel : Nat) → Reading Expr
  | 0 => senseless
  | fuel + 1 => do
    let value ← chain fuel (← term fuel)
    let s := (← rest).dropWhile Bytes.isSpace
    if isPlace value && ((utf8 "++").isPrefixOf s || (utf8 "--").isPrefixOf s) then
      skip
      let _ ← take 2
      return .step value (s.head? == some '+'.toUInt8) true
    else return value

/-- Reads the subscripts and calls behind a value. -/
def chain : (fuel : Nat) → Expr → Reading Expr
  | 0, _ => senseless
  | fuel + 1, value => do
    let isSubscripted := match value with
      | .element .. | .entry .. => true
      | _ => false
    let s ← rest
    if isSubscripted && s.head? = some '['.toUInt8 then
      let _ ← take 1
      let subscript ← expression fuel
      expect "]"
      chain fuel (.element (.follow .array value) subscript)
    else if isSubscripted && s.head? = some 0x7b then
      let _ ← take 1
      chain fuel (.entry (.follow .table value) (← key fuel))
    else if isSubscripted && s.head? = some '('.toUInt8 then
      let arguments ← bracketed fuel
      chain fuel (.callValue value (some arguments))
    else if ← sees "->" then
      let _ ← take 2
      skip
      let s ← rest
      match s with
      | 91 :: _ =>
        let _ ← take 1
        let subscript ← expression fuel
        expect "]"
        chain fuel (.element (.follow .array value) subscript)
      | 0x7b :: _ =>
        let _ ← take 1
        chain fuel (.entry (.follow .table value) (← key fuel))
      | 40 :: _ => chain fuel (.callValue value (some (← bracketed fuel)))
      | 64 :: 42 :: _ =>
        let _ ← take 2
        chain fuel (.follow .array value)
      | 37 :: 42 :: _ =>
        let _ ← take 2
        chain fuel (.follow .table value)
      | 36 :: 42 :: _ =>
        let _ ← take 2
        chain fuel (.follow .scalar value)
      | 36 :: 35 :: 42 :: _ =>
        let _ ← take 3
        chain fuel (.lastIndex (.follow .array value))
      | 64 :: 91 :: _ =>
        let _ ← take 2
        let subscripts ← expression fuel
        expect "]"
        chain fuel (.slice (.follow .array value) subscripts)
      | 64 :: 0x7b :: _ =>
        let _ ← take 2
        chain fuel (.entries (.follow .table value) (← key fuel))
      | 36 :: _ =>
        let _ ← take 1
        let name := nameAt (← rest)
        let _ ← take name.length
        let dynamic ← variableOf .scalar name
        let arguments ← if (← peek) == some '('.toUInt8 then bracketed fuel else pure []
        chain fuel (.method value [] (some dynamic) arguments (← get).package)
      | s =>
        let name := nameAt s
        if name.isEmpty then senseless
        let _ ← take name.length
        let arguments ← if (← peek) == some '('.toUInt8 then bracketed fuel else pure []
        chain fuel (.method value name none arguments (← get).package)
    else return value

def bracketed : (fuel : Nat) → Reading (List Expr)
  | 0 => senseless
  | fuel + 1 => do
    expect "("
    if ← accept ")" then return []
    let inside ← expression fuel
    expect ")"
    match inside with
    | .list parts => return parts
    | inside => return [inside]

def key : (fuel : Nat) → Reading Expr
  | 0 => senseless
  | fuel + 1 => do
    skip
    let s ← rest
    let dash := if s.head? = some '-'.toUInt8 then 1 else 0
    let name := (s.drop dash).takeWhile isNameByte
    let behind := (s.drop (dash + name.length)).dropWhile Bytes.isSpace
    if !name.isEmpty && name.head?.any isNameStart && behind.head? = some 0x7d then
      let _ ← take (dash + name.length)
      expect "\x7d"
      return .constant (.text (s.take (dash + name.length)))
    let inside ← expression fuel
    expect "\x7d"
    return inside

/-- Reads what follows the sign of a variable: a name, or what leads to it. -/
def root : (fuel : Nat) → Reading (Bytes ⊕ Expr)
  | 0 => senseless
  | fuel + 1 => do
    let s ← rest
    match s with
    | [] => senseless
    | c :: after =>
      if c = 0x7b then
        let inside := after.dropWhile Bytes.isSpace
        let name := if inside.head? = some '^'.toUInt8 then '^'.toUInt8 :: (inside.drop 1).takeWhile isNameByte
          else if inside.head?.any Bytes.isDigit then inside.takeWhile Bytes.isDigit
          else if inside.head?.any (fun d => (utf8 "!@&").contains d) && (inside.drop 1).head? = some 0x7d then inside.take 1
          else nameAt inside
        let behind := (inside.drop name.length).dropWhile Bytes.isSpace
        if !name.isEmpty && behind.head? = some 0x7d then
          let _ ← take (s.length - behind.length + 1)
          return .inl name
        let _ ← take 1
        let body ← inBlock (statements fuel)
        expect "\x7d"
        match body with
        | [.evaluate _ value] => return .inr value
        | body => return .inr (.block body)
      else if c = '$'.toUInt8 && after.head?.any (fun d => isNameStart d || d == '$'.toUInt8 || d == 0x7b || d == ':'.toUInt8) then
        let _ ← take 1
        match ← root fuel with
        | .inl name => return .inr (← variableOf .scalar name)
        | .inr body => return .inr (.follow .scalar body)
      else if c = '^'.toUInt8 && after.head?.any Bytes.isUpper then return .inl (← take 2)
      else if Bytes.isDigit c then return .inl (← takeWhile Bytes.isDigit)
      else
        let name := nameAt s
        if name.isEmpty then return .inl (← take 1)
        let _ ← take name.length
        match ← rest with
        | 39 :: d :: _ =>
          if !isNameStart d then return .inl name
          let _ ← take 1
          return .inl (name ++ utf8 "::" ++ (← take (nameAt (← rest)).length))
        | _ => return .inl name

/-- The container of a kind that a root tells. -/
def containerOf : (fuel : Nat) → Sigil → Bytes ⊕ Expr → Reading Expr
  | 0, _, _ => senseless
  | _, sigil, .inl name => variableOf sigil name
  | _, sigil, .inr body => return .follow sigil body

/-- Reads a variable behind a dollar sign, with its first subscript. -/
def scalarTerm : (fuel : Nat) → Reading Expr
  | 0 => senseless
  | fuel + 1 => do
    match ← rest with
    | 35 :: c :: _ =>
      if c = 0x7b || c = '$'.toUInt8 || c = '+'.toUInt8 || c = '-'.toUInt8 || isNameStart c then
        let _ ← take 1
        let start ← root fuel
        return .lastIndex (← containerOf fuel .array start)
    | _ => pure ()
    let start ← root fuel
    match ← rest with
    | 91 :: _ =>
      let _ ← take 1
      let subscript ← expression fuel
      expect "]"
      return .element (← containerOf fuel .array start) subscript
    | 0x7b :: _ =>
      let _ ← take 1
      let subscript ← key fuel
      return .entry (← containerOf fuel .table start) subscript
    | _ => containerOf fuel .scalar start

/-- Reads a variable behind the sign of arrays, or a part of one. -/
def arrayTerm : (fuel : Nat) → Reading Expr
  | 0 => senseless
  | fuel + 1 => do
    let start ← root fuel
    match ← rest with
    | 91 :: _ =>
      let _ ← take 1
      let subscripts ← if ← sees "]" then pure (.list []) else expression fuel
      expect "]"
      return .slice (← containerOf fuel .array start) subscripts
    | 0x7b :: _ =>
      let _ ← take 1
      let keys ← key fuel
      return .entries (← containerOf fuel .table start) keys
    | _ => containerOf fuel .array start

/-- Reads the parts of a text up to its end, or up to the end of a change of its letters. -/
def pieces : (fuel : Nat) → (isPattern stops : Bool) → (found : Bytes) → Reading (List Expr)
  | 0, _, _, _ => senseless
  | fuel + 1, isPattern, stops, found => do
    let s ← rest
    match s with
    | [] => return flushed found []
    | [c] =>
      if c = '$'.toUInt8 && !isPattern then
        fail (utf8 "Final $ should be \\$ or $name at " ++ (← get).file ++ utf8 " line " ++
          Bytes.decimal (← get).line ++ utf8 ", within string")
      let _ ← take 1
      return flushed (c :: found) []
    | c :: d :: after =>
      if c = 92 then
        let change? : Option Function :=
          if d = 'U'.toUInt8 then some .uc else if d = 'L'.toUInt8 then some .lc
          else if d = 'Q'.toUInt8 then some .quotemeta else if d = 'F'.toUInt8 then some .fc else none
        let first? : Option Function :=
          if d = 'u'.toUInt8 then some .ucfirst else if d = 'l'.toUInt8 then some .lcfirst else none
        match change?, first? with
        | some change, _ =>
          let next : Option Function := match after with
            | 92 :: 117 :: _ => some .ucfirst
            | 92 :: 108 :: _ => some .lcfirst
            | _ => none
          let _ ← take (if next.isSome then 4 else 2)
          let inner ← pieces fuel isPattern true []
          let whole := Expr.function change [textOfParts inner]
          let whole := match next with
            | some start => Expr.function start [whole]
            | none => whole
          return flushed found (whole :: (← pieces fuel isPattern stops []))
        | none, some start =>
          let next : Option Function := match after with
            | 92 :: 76 :: _ => some .lc
            | 92 :: 85 :: _ => some .uc
            | _ => none
          match next with
          | some change =>
            let _ ← take 4
            let inner ← pieces fuel isPattern true []
            let whole := Expr.function start [.function change [textOfParts inner]]
            return flushed found (whole :: (← pieces fuel isPattern stops []))
          | none =>
            let _ ← take 2
            let inner ← pieces fuel isPattern stops []
            return flushed found [.function start [textOfParts inner]]
        | none, none =>
          if d = 'E'.toUInt8 then
            let _ ← take 2
            if stops then return flushed found [] else pieces fuel isPattern stops found
          else if isPattern then
            let _ ← take 2
            pieces fuel isPattern stops (d :: c :: found)
          else
            let (bytes, length) := escapeAt (d :: after)
            let _ ← take (length + 1)
            pieces fuel isPattern stops (bytes.reverse ++ found)
      else if c = '$'.toUInt8 && startsVariable isPattern (d :: after) then
        let _ ← take 1
        let value ← textVariable fuel isPattern
        return flushed found (value :: (← pieces fuel isPattern stops []))
      else if c = '@'.toUInt8 && (isNameStart d || d = 0x7b || d = '$'.toUInt8 ||
          (!isPattern && (d = '-'.toUInt8 || d = '+'.toUInt8)) || (d = ':'.toUInt8 && after.head? = some ':'.toUInt8)) then
        let _ ← take 1
        let start ← root fuel
        let s ← rest
        let value ← if startsSubscript isPattern s && s.head? = some '['.toUInt8 then do
            let _ ← take 1
            let subscripts ← expression fuel
            expect "]"
            pure (Expr.slice (← containerOf fuel .array start) subscripts)
          else if s.head? = some 0x7b && !isPattern then do
            let _ ← take 1
            let keys ← key fuel
            pure (Expr.entries (← containerOf fuel .table start) keys)
          else containerOf fuel .array start
        return flushed found (.joined value :: (← pieces fuel isPattern stops []))
      else
        let run := s.takeWhile fun c => c != 92 && c != '$'.toUInt8 && c != '@'.toUInt8
        let count := max 1 run.length
        let bytes ← take count
        pieces fuel isPattern stops (bytes.reverse ++ found)

def textVariable : (fuel : Nat) → (isPattern : Bool) → Reading Expr
  | 0, _ => senseless
  | fuel + 1, isPattern => do
    let s ← rest
    if s.head? = some '$'.toUInt8 && !(s.drop 1).head?.any (fun d => isNameStart d || d == 0x7b || d == '$'.toUInt8) then
      let _ ← take 1
      return ← variableOf .scalar (utf8 "$")
    let isLast := match s with
      | 35 :: c :: _ => (utf8 "\x7b$+-").contains c || isNameStart c
      | _ => false
    if isLast then
      let _ ← take 1
      let start ← root fuel
      return .lastIndex (← containerOf fuel .array start)
    let start ← root fuel
    let s ← rest
    if startsSubscript isPattern s && s.head? = some '['.toUInt8 then
      let _ ← take 1
      let subscript ← expression fuel
      expect "]"
      textChain fuel isPattern (.element (← containerOf fuel .array start) subscript)
    else if startsSubscript isPattern s && s.head? = some 0x7b then
      let _ ← take 1
      let subscript ← key fuel
      textChain fuel isPattern (.entry (← containerOf fuel .table start) subscript)
    else textChain fuel isPattern (← containerOf fuel .scalar start)

/-- Reads the subscripts behind a variable within a text. -/
def textChain : (fuel : Nat) → (isPattern : Bool) → Expr → Reading Expr
  | 0, _, _ => senseless
  | fuel + 1, isPattern, value => do
    let s ← rest
    let isSubscripted := match value with
      | .element .. | .entry .. => true
      | _ => false
    let (arrow, s) := if (utf8 "->").isPrefixOf s then (2, s.drop 2) else (0, s)
    if (arrow = 0 && !isSubscripted) || !startsSubscript isPattern s then return value
    match s with
    | 91 :: _ =>
      let _ ← take (arrow + 1)
      let subscript ← expression fuel
      expect "]"
      textChain fuel isPattern (.element (.follow .array value) subscript)
    | 0x7b :: _ =>
      let _ ← take (arrow + 1)
      let subscript ← key fuel
      textChain fuel isPattern (.entry (.follow .table value) subscript)
    | _ => return value

/-- The value of a text whose variables are replaced. -/
def replaced : (fuel : Nat) → (isPattern : Bool) → Bytes → Reading Expr
  | 0, _, _ => senseless
  | fuel + 1, isPattern, text => do return textOfParts (← withText text (pieces fuel isPattern false []))

/-- An expression to match with between its delimiters. -/
def patternText : (fuel : Nat) → UInt8 → Bytes → Reading Expr
  | 0, _, _ => senseless
  | fuel + 1, opening, text =>
    if opening = 39 then return .constant (.text text) else replaced fuel true text

/-- Reads a text in quotes of the kind that a word tells, after that word. -/
def quoteLike : (fuel : Nat) → Bytes → Reading Expr
  | 0, _ => senseless
  | fuel + 1, name => do
    let is (word : String) : Bool := name == utf8 word
    let (opening, text) ← quotedPart
    if is "q" then return .constant (.text (plainText opening text))
    else if is "qq" then replaced fuel false (unprotected (closing opening) text)
    else if is "qw" then return .list ((wordsOf text).map fun word => .constant (.text word))
    else if is "qx" then
      if opening = 39 then return .output (.constant (.text text))
      return .output (← replaced fuel false text)
    else if is "m" then
      let pattern ← patternText fuel opening text
      return .isMatch none pattern (← letters) true
    else if is "qr" then
      let pattern ← patternText fuel opening text
      return .quotePattern pattern (← letters)
    else
      let (second, replacement) ← if closing opening = opening then do
          let s ← rest
          match delimitedLength opening opening 0 0 s with
          | none => fail (utf8 "Substitution replacement not terminated at " ++ (← get).file ++
              utf8 " line " ++ Bytes.decimal (← get).line ++ utf8 ".")
          | some length =>
            let replacement ← take length
            let _ ← take 1
            pure (opening, replacement)
        else quotedPart
      if is "s" then
        let pattern ← patternText fuel opening text
        let flags ← letters
        let value ← if flags.has 'e' then do
            let body ← withText replacement (inBlock (statements fuel))
            pure (match body with
              | [.evaluate _ value] => value
              | body => .block body)
          else if second = 39 then pure (.constant (.text replacement))
          else replaced fuel false (unprotected (closing second) replacement)
        let twice := 1 < flags.letters.count 'e'.toUInt8
        let source ← get
        let scope := source.names.filterMap fun (name, binding) => match binding with
          | .slot number => some (name, number)
          | .shared _ => none
        let value := if twice then .evaluate value scope source.package else value
        return .substitute none pattern value flags
      else
        let flags ← letters
        return .translate none
          { wanted := translationOf text, replacement := translationOf replacement
            complement := flags.has 'c', deletes := flags.has 'd', squeezes := flags.has 's'
            returns := flags.has 'r' }

/-- Reads what starts with an angle: a line, names of files or a document. -/
def angled : (fuel : Nat) → Reading Expr
  | 0 => senseless
  | fuel + 1 => do
    let s ← rest
    if (utf8 "<<>>").isPrefixOf s then
      let _ ← take 4
      return .readFiles
    if (utf8 "<<").isPrefixOf s then
      let indented := (s.drop 2).head? == some '~'.toUInt8
      let start := s.drop (if indented then 3 else 2)
      match start with
      | c :: _ =>
        if c = '"'.toUInt8 || c = 39 then
          let _ ← take (s.length - start.length)
          let delimiter ← delimited
          let text ← document delimiter indented
          if c = 39 then return .constant (.text text) else return ← replaced fuel false text
        else if isNameStart c then
          let _ ← take (s.length - start.length)
          let delimiter ← takeWhile isNameByte
          return ← replaced fuel false (← document delimiter indented)
        else senseless
      | [] => senseless
    let inside := (s.drop 1).takeWhile (· != '>'.toUInt8)
    let _ ← take (inside.length + 2)
    let isName := inside.head?.any isNameStart && inside.all fun c => isNameByte c || c == ':'.toUInt8
    if inside.isEmpty then return .readFiles
    else if isName then return .readLine (.bareHandle inside)
    else match inside with
      | 36 :: name =>
        if name.head?.any isNameStart && name.all isNameByte then
          return .readLine (← variableOf .scalar name)
        else return .glob (← replaced fuel false inside)
      | _ => return .glob (← replaced fuel false inside)

def term : (fuel : Nat) → Reading Expr
  | 0 => senseless
  | fuel + 1 => do
    skip
    let s ← rest
    match s with
    | [] => senseless
    | c :: after =>
      if c = '$'.toUInt8 then
        let _ ← take 1
        scalarTerm fuel
      else if c = '@'.toUInt8 then
        let _ ← take 1
        arrayTerm fuel
      else if c = '%'.toUInt8 then
        let _ ← take 1
        let start ← root fuel
        match ← rest with
        | 0x7b :: _ =>
          let _ ← take 1
          let keys ← key fuel
          return .pairs (← containerOf fuel .table start) keys
        | 91 :: _ =>
          let _ ← take 1
          let subscripts ← expression fuel
          expect "]"
          return .pairs (← containerOf fuel .array start) subscripts
        | _ => containerOf fuel .table start
      else if c = '&'.toUInt8 then
        let _ ← take 1
        match ← root fuel with
        | .inl name =>
          let source ← get
          let full := qualified source.package name
          if (← peek) == some '('.toUInt8 then return .call full (some (← bracketed fuel)) none
          else return .call full none none
        | .inr code =>
          if (← peek) == some '('.toUInt8 then return .callValue code (some (← bracketed fuel))
          else return .callValue code none
      else if c = '*'.toUInt8 then
        if !after.head?.any fun d => isNameByte d || Bytes.isSpace d || d == 0x7b || d == '$'.toUInt8 || d == ':'.toUInt8 then senseless
        let _ ← take 1
        match ← root fuel with
        | .inl name => return .bareHandle name
        | .inr body => return .follow .handle body
      else if c = '"'.toUInt8 then
        let text ← delimited
        replaced fuel false (unprotected c text)
      else if c = 39 then
        let text ← delimited
        return .constant (.text (plainText 39 text))
      else if c = 96 then
        let text ← delimited
        return .output (← replaced fuel false text)
      else if c = '('.toUInt8 then
        let parts ← bracketed fuel
        if ← sees "[" then
          let _ ← take 1
          let subscripts ← expression fuel
          expect "]"
          return .pick (.list parts) subscripts
        return .list parts
      else if c = '['.toUInt8 then
        let _ ← take 1
        if ← accept "]" then return .newArray []
        let inside ← expression fuel
        expect "]"
        return .newArray [inside]
      else if c = 0x7b then
        let _ ← take 1
        if ← accept "\x7d" then return .newTable []
        let inside ← expression fuel
        expect "\x7d"
        return .newTable [inside]
      else if c = '<'.toUInt8 then angled fuel
      else if c = '/'.toUInt8 then
        let text ← delimited
        let pattern ← patternText fuel c text
        return .isMatch none pattern (← letters) true
      else if Bytes.isDigit c || (c = '.'.toUInt8 && after.head?.any Bytes.isDigit) then
        return .constant (← numeral)
      else if isNameStart c || c = ':'.toUInt8 then
        let name := nameAt s
        if name.isEmpty then senseless
        let behind := (s.drop name.length).dropWhile Bytes.isSpace
        if (utf8 "=>").isPrefixOf behind && !name.contains ':'.toUInt8 then
          let _ ← take name.length
          return .constant (.text name)
        named fuel name
      else senseless

/-- Reads a term that starts with a name. -/
def named : (fuel : Nat) → Bytes → Reading Expr
  | 0, _ => senseless
  | fuel + 1, name => do
    let is (word : String) : Bool := name == utf8 word
    let _ ← take name.length
    let source ← get
    if ["q", "qq", "qw", "qr", "m", "s", "tr", "y", "qx"].any is && (← startsQuote) then quoteLike fuel name
    else if is "my" || is "our" || is "state" then declaration fuel name
    else if is "local" then return .localize (← chain fuel (← term fuel))
    else if is "sub" then
      let code ← function fuel
      return .newCode code
    else if is "do" then
      if ← sees "\x7b" then return .block (← block fuel) else return .runFile (← signed fuel) false
    else if is "eval" then
      if ← sees "\x7b" then return .attempt (← block fuel)
      let scope := source.names.filterMap fun (name, binding) => match binding with
        | .slot number => some (name, number)
        | .shared _ => none
      let text ← if ← startsValue then binary fuel 14 else pure topic
      return .evaluate text scope source.package
    else if is "print" || (is "say" && source.hasSay) || is "printf" then printing fuel name
    else if is "CORE::say" then printing fuel (utf8 "say")
    else if is "sort" || is "map" || is "grep" then ordering fuel name
    else if is "return" then
      if ← startsValue then return .giveBack (some (← commas fuel)) else return .giveBack none
    else if is "next" || is "last" || is "redo" then
      let label ← word
      let isLabel := !label.isEmpty && !behindValues.any (utf8 · == label)
      if isLabel then let _ ← take label.length
      let label := if isLabel then some label else none
      return if is "next" then .again label else if is "last" then .leave label else .redo label
    else if is "__PACKAGE__" then return .constant (.text source.package)
    else if is "__FILE__" then return .constant (.text source.file)
    else if is "__LINE__" then return .constant (.int source.line)
    else if is "STDIN" || is "STDOUT" || is "STDERR" || is "DATA" || is "ARGV" then return .bareHandle name
    else if is "glob" then
      let arguments ← if ← sees "(" then bracketed fuel
        else if ← startsValue then (do return [← binary fuel 14]) else pure [topic]
      return .glob (arguments.headD topic)
    else if is "readline" then
      let arguments ← if ← sees "(" then bracketed fuel
        else if ← startsValue then (do return [← binary fuel 14]) else pure []
      return .readLine (arguments.headD (.bareHandle (utf8 "ARGV")))
    else if is "require" then
      let path ← word
      if path.isEmpty then
        if (← peek).any (fun c => Bytes.isDigit c) then
          let _ ← numeral
          return .constant (.int 1)
        return .runFile (← signed fuel) true
      let _ ← take path.length
      if path.head? = some 'v'.toUInt8 && (path.drop 1).all Bytes.isDigit then return .constant (.int 1)
      return .runFile (.constant (.text (Bytes.join (utf8 "/") ((Bytes.fields 58 path).filter (!·.isEmpty)) ++ utf8 ".pm"))) true
    else if is "new" && !(← word).isEmpty && !(← sees "=>") then
      let package ← word
      let _ ← take package.length
      let arguments ← if ← sees "(" then bracketed fuel else pure []
      return .method (.constant (.text package)) name none arguments source.package
    else
      let plain := if (utf8 "CORE::").isPrefixOf name then name.drop 6 else name
      let full := qualified source.package name
      let own := source.functions.contains full
      if ← sees "->" then
        if !own && !source.nullary.contains full && (coreFunction? plain).isNone then return .constant (.text name)
      if source.nullary.contains full then
        if ← sees "()" then let _ ← take 2
        return .call full (some []) none
      match source.constants.lookup name with
      | some value =>
        if ← sees "()" then let _ ← take 2
        return .constant value
      | none =>
        let parts := name.reverse.takeWhile (· != ':'.toUInt8) |>.reverse
        let module := name.take (name.length - parts.length - 2)
        let known := if own then none
          else (source.imported.lookup name).or ((coreFunction? plain).or (moduleFunction? module parts))
        match known, moduleConstant? module parts with
        | some (f, arity), _ => applied fuel f arity
        | none, some value =>
          if ← sees "()" then let _ ← take 2
          return .constant value
        | none, none =>
          if (← rest).head? = some '('.toUInt8 || (← sees "(") then
            skip
            return .call full (some (← bracketed fuel)) none
          if (utf8 "::").isSuffixOf name then return .constant (.text (name.take (name.length - 2)))
          if source.blocked.contains full && (← sees "\x7b") then
            let body ← block fuel
            let _ ← accept ","
            let more ← if ← startsValue then partsOf <$> commas fuel else pure []
            return .call full (some (.newCode (.mk body source.package) :: more)) none
          if own && (← startsValue) && !(← sees "\x7b") then
            return .call full (some (partsOf (← commas fuel))) none
          let next ← word
          let isObject := !next.isEmpty && next.head?.any Bytes.isUpper && !own &&
            !behindValues.any (utf8 · == next) && name.all isNameByte && name.head?.any Bytes.isLower
          if isObject && !(← sees "=>") then
            let _ ← take next.length
            let arguments ← if ← sees "(" then bracketed fuel else pure []
            return .method (.constant (.text next)) name none arguments source.package
          return .call full (if own then some [] else none) (some (.text name))

def declaration : (fuel : Nat) → Bytes → Reading Expr
  | 0, _ => senseless
  | fuel + 1, kind => do
    skip
    if ← acceptWord "sub" then
      let name ← word
      let _ ← take name.length
      let slot ← declare ('&'.toUInt8 :: name)
      introduce
      let code ← function fuel
      return .assign (.lexical .scalar slot) (.newCode code)
    let isList ← accept "("
    let names ← if isList then declaredNames ((← rest).length + 1) else do
      match ← rest with
      | c :: after =>
        let name := nameAt after
        if !(utf8 "$@%").contains c || name.isEmpty then senseless
        pure [← take (name.length + 1)]
      | [] => senseless
    if kind = utf8 "our" then
      let source ← get
      let shared := names.map fun name => (name, Binding.shared (qualified source.package (name.drop 1)))
      set { source with names := shared ++ source.names }
      let declared ← names.mapM fun name =>
        variableOf (if name.head? = some '@'.toUInt8 then .array
          else if name.head? = some '%'.toUInt8 then .table else .scalar) (name.drop 1)
      return if isList then .list declared else declared.headD (.list [])
    let slots ← declareAll false names
    if kind = utf8 "state" then
      match slots with
      | [(sigil, slot)] => return .persistent sigil slot none
      | slots => return .declare slots isList
    return .declare slots isList

def applied : (fuel : Nat) → Function → Arity → Reading Expr
  | 0, _, _ => senseless
  | fuel + 1, f, arity => do
    let brackets ← sees "("
    match arity with
    | .none =>
      if brackets then let _ ← bracketed fuel
      return .function f []
    | .one usesTopic =>
      let without : Expr := .function f (if usesTopic then [topic] else [])
      if brackets then
        let arguments ← bracketed fuel
        return if arguments.isEmpty then without else .function f arguments
      else if (← startsValue) && !(defaultsToArguments f && ((← sees "<") || (← sees "/"))) then
        return .function f [← binary fuel 14]
      else return without
    | .many =>
      let arguments ← if brackets then
          if takesBlock f && (((← rest).drop 1).dropWhile Bytes.isSpace).head? = some 0x7b then do
            let _ ← take 1
            let body ← block fuel
            let _ ← accept ","
            let more ← if ← sees ")" then pure [] else partsOf <$> commas fuel
            expect ")"
            pure (.newCode (.mk body (← get).package) :: more)
          else bracketed fuel
        else if takesBlock f && (← sees "\x7b") then do
          let body ← block fuel
          let _ ← accept ","
          let more ← if ← startsValue then partsOf <$> commas fuel else pure []
          pure (.newCode (.mk body (← get).package) :: more)
        else if (← startsValue) || (f = .split && (← sees "//")) then partsOf <$> commas fuel
        else pure []
      match f, arguments with
      | .split, .isMatch none pattern flags _ :: more => return .function f (.quotePattern pattern flags :: more)
      | f, arguments => return .function f arguments

def printing : (fuel : Nat) → Bytes → Reading Expr
  | 0, _ => senseless
  | fuel + 1, name => do
    let brackets ← accept "("
    let handle ← if ← sees "\x7b" then do
        let _ ← take 1
        let value ← expression fuel
        expect "\x7d"
        pure (some value)
      else match ← handleName? with
        | some name => do
          let _ ← take name.length
          pure (some (Expr.bareHandle name))
        | none =>
          if ← hasHandleVariable then do
            let _ ← take 1
            let name := nameAt (← rest)
            let _ ← take name.length
            pure (some (← variableOf .scalar name))
          else pure none
    let arguments ←
      if brackets then
        if ← sees ")" then pure [] else partsOf <$> expression fuel
      else if ← startsValue then partsOf <$> commas fuel
      else pure []
    if brackets then expect ")"
    let arguments := if arguments.isEmpty then [topic] else arguments
    if name = utf8 "printf" then return .printFormat handle arguments
    else return .print (name = utf8 "say") handle arguments

/-- Reads what sorts, changes or selects values, after its word. -/
def ordering : (fuel : Nat) → Bytes → Reading Expr
  | 0, _ => senseless
  | fuel + 1, name => do
    let brackets ← accept "("
    let finish (value : Expr) : Reading Expr := do
      if brackets then expect ")"
      return value
    let values : Reading Expr := do
      let ends ← sees ")"
      if ends || !(← startsValue) then return .list [] else commas fuel
    if name = utf8 "sort" then
      if ← sees "\x7b" then
        let package := (← get).package
        let body ← block fuel
        let _ ← accept ","
        finish (.sort (some (.newCode (.mk body package))) (← values))
      else
        let source ← get
        let s ← rest
        let first := nameAt s
        let behind := (s.drop first.length).dropWhile Bytes.isSpace
        let isOrder := !first.isEmpty && (coreFunction? first).isNone && (source.imported.lookup first).isNone &&
          ! ["map", "grep", "sort", "qw", "keys", "my", "do", "eval"].any (utf8 · == first) &&
          behind.head?.any (fun c => c == '@'.toUInt8 || c == '$'.toUInt8 || Bytes.isAlpha c)
        let isVariable := match s with
          | 36 :: after =>
            let name := nameAt after
            let behind := after.drop name.length
            !name.isEmpty && behind.head? == some 32 &&
              (behind.dropWhile Bytes.isSpace).head?.any fun c =>
                (utf8 "@$('\"").contains c || Bytes.isAlpha c || Bytes.isDigit c
          | _ => false
        if isOrder then
          let _ ← take first.length
          let order := Expr.reference (.call (qualified source.package first) none none)
          finish (.sort (some order) (← values))
        else if isVariable then
          let _ ← take 1
          let name := nameAt (← rest)
          let _ ← take name.length
          let order ← variableOf .scalar name
          finish (.sort (some order) (← values))
        else finish (.sort none (← values))
    else
      let selects := name = utf8 "grep"
      if ← sees "\x7b" then
        let before ← get
        let attempt : Except Fault ((List Stmt × Bool) × Source) :=
          (do
            let body ← block fuel
            return (body, ← sees ",") : Reading (List Stmt × Bool)).run before
        match attempt with
        | .ok ((body, false), after) =>
          set after
          finish (.each selects body (← values))
        | _ =>
          let line := before.line
          let value ← assignment fuel
          expect ","
          finish (.each selects [.evaluate line value] (← values))
      else
        let line := (← get).line
        let value ← assignment fuel
        expect ","
        finish (.each selects [.evaluate line value] (← values))

/-- Reads statements in braces. -/
def block : (fuel : Nat) → Reading (List Stmt)
  | 0 => senseless
  | fuel + 1 => do
    expect "\x7b"
    let body ← inBlock (statements fuel)
    expect "\x7d"
    return body

/-- Reads the body of a function, maybe with its parameters. -/
def function : (fuel : Nat) → Reading Code
  | 0 => senseless
  | fuel + 1 => do
    let package := (← get).package
    inBlock do
      let first ← if ← sees "(" then do
          let text := ((← rest).drop 1).takeWhile (· != ')'.toUInt8)
          if text.any isNameStart then
            let _ ← take 1
            parameters fuel 0
          else
            let _ ← take (text.length + 2)
            pure []
        else pure []
      introduce
      expect "\x7b"
      let body ← inBlock (statements fuel)
      expect "\x7d"
      return .mk (first ++ body) package

/-- Reads the parameters of a function, as statements that set them. -/
def parameters : (fuel : Nat) → (index : Nat) → Reading (List Stmt)
  | 0, _ => senseless
  | fuel + 1, index => do
    skip
    if ← accept ")" then return []
    if ← accept "," then return ← parameters fuel index
    let line := (← get).line
    match ← rest with
    | [] => senseless
    | c :: after =>
      let name := nameAt after
      let signed ← take (name.length + 1)
      let from_ : Expr := .slice .arguments (.range (.constant (.int index)) (.lastIndex .arguments) 0 false)
      if c = '$'.toUInt8 then
        let given : Expr := .element .arguments (.constant (.int index))
        let value ← if (← accept "//=") || (← accept "=") then do
            let fallback ← assignment fuel
            pure (Expr.choice (.compare false .less (.constant (.int index)) .arguments) given fallback)
          else pure given
        if name.isEmpty then return ← parameters fuel (index + 1)
        let slot ← declare signed
        let stmt := Stmt.evaluate line (.assign (.declare [(.scalar, slot)] false) value)
        introduce
        return stmt :: (← parameters fuel (index + 1))
      else
        let sigil := if c = '@'.toUInt8 then Sigil.array else .table
        if name.isEmpty then return ← parameters fuel (index + 1)
        let slot ← declare signed
        let stmt := Stmt.evaluate line (.assignList (.declare [(sigil, slot)] false) from_)
        introduce
        return stmt :: (← parameters fuel (index + 1))

/-- Reads statements up to a closing brace or the end. -/
def statements : (fuel : Nat) → Reading (List Stmt)
  | 0 => senseless
  | fuel + 1 => do
    skip
    introduce
    match ← rest with
    | [] => return []
    | 0x7d :: _ => return []
    | 59 :: _ =>
      let _ ← take 1
      statements fuel
    | _ =>
      let found ← statement fuel
      if (← get).data.isSome then return found
      return found ++ (← statements fuel)

def statement : (fuel : Nat) → Reading (List Stmt)
  | 0 => senseless
  | fuel + 1 => do
    let source ← get
    let line := source.line
    if ← sees "=" then
      skipRemarks ((← rest).length + 1)
      return []
    if ← sees "\x7b" then
      if startsTable (← rest) then return ← plain fuel else return [.block none (← block fuel)]
    let name ← word
    let behind := ((← rest).drop name.length).dropWhile Bytes.isSpace
    let is (text : String) : Bool := name == utf8 text
    let isLabel := !name.isEmpty && behind.head? = some ':'.toUInt8 && (behind.drop 1).head? != some ':'.toUInt8 &&
      name.all isNameByte && (coreFunction? name).isNone && ! ["default", "q", "qq", "s", "y", "m", "tr"].any is
    if isLabel then
      let _ ← take name.length
      expect ":"
      skip
      let next ← word
      let isLoop := ["for", "foreach", "while", "until"].any (utf8 · == next)
      if isLoop then loop fuel (some name)
      else if ← sees "\x7b" then return [.block (some name) (← block fuel)]
      else statement fuel
    else if (utf8 "=>").isPrefixOf behind then plain fuel
    else if is "sub" && ((behind.head?).any fun c => isNameStart c) then
      let _ ← take name.length
      let own ← word
      let _ ← take own.length
      let full := qualified source.package own
      skip
      let brackets := match ← rest with
        | 40 :: after => some (after.takeWhile (· != ')'.toUInt8))
        | _ => none
      modify fun source => { source with
        functions := full :: source.functions
        nullary := if brackets.any (·.all Bytes.isSpace) && !source.nullary.contains full then full :: source.nullary
          else source.nullary
        blocked := if brackets.any (·.head? == some '&'.toUInt8) then full :: source.blocked else source.blocked }
      if ← sees ";" then return []
      if brackets.isSome then
        let text := brackets.getD []
        if (((← rest).drop (text.length + 2)).dropWhile Bytes.isSpace).head? = some ';'.toUInt8 then
          let _ ← take (text.length + 2)
          return []
      let code ← function fuel
      return [.define full code]
    else if is "package" then
      let _ ← take name.length
      let package ← word
      let _ ← take package.length
      skip
      if (← peek).any Bytes.isDigit then let _ ← numeral
      if ← sees "\x7b" then
        expect "\x7b"
        let body ← inBlock do
          modify ({ · with package })
          statements fuel
        expect "\x7d"
        return [.block none body]
      modify ({ · with package })
      return []
    else if is "use" || is "no" then
      let _ ← take name.length
      usage fuel (is "use")
    else if (is "BEGIN" || is "INIT" || is "CHECK" || is "UNITCHECK") && behind.head? = some 0x7b then
      let _ ← take name.length
      return [.early (← block fuel)]
    else if is "END" && behind.head? = some 0x7b then
      let _ ← take name.length
      return [.late (← block fuel)]
    else if is "__END__" || is "__DATA__" then
      let _ ← takeWhile (· != 10)
      let _ ← take 1
      let data ← rest
      modify ({ · with data := some data, rest := [] })
      return []
    else if is "if" || is "unless" then
      let _ ← take name.length
      inBlock do
        expect "("
        let condition ← expression fuel
        expect ")"
        introduce
        let condition := if is "if" then condition else .not condition
        let body ← block fuel
        let (arms, otherwise) ← arms fuel
        return [.choose line ((condition, body) :: arms) otherwise]
    else if is "while" || is "until" || is "for" || is "foreach" then loop fuel none
    else plain fuel

def arms : (fuel : Nat) → Reading (List (Expr × List Stmt) × List Stmt)
  | 0 => senseless
  | fuel + 1 => do
    if ← acceptWord "elsif" then
      expect "("
      let condition ← expression fuel
      expect ")"
      introduce
      let body ← block fuel
      let (more, otherwise) ← arms fuel
      return ((condition, body) :: more, otherwise)
    else if ← acceptWord "else" then return ([], ← block fuel)
    else return ([], [])

def loop : (fuel : Nat) → Option Bytes → Reading (List Stmt)
  | 0, _ => senseless
  | fuel + 1, label => do
    let name ← word
    let line := (← get).line
    let _ ← take name.length
    let is (text : String) : Bool := name == utf8 text
    inBlock do
      if is "while" || is "until" then
        expect "("
        let condition ← if ← sees ")" then pure none else some <$> expression fuel
        expect ")"
        introduce
        let body ← block fuel
        let next ← if ← acceptWord "continue" then block fuel else pure []
        return [.loop line label (condition.map loopCondition) (is "while") body next]
      else
        let isNew ← (do
          if ← acceptWord "my" then return true
          if ← acceptWord "our" then return false
          if ← acceptWord "state" then return true
          return false)
        skip
        if (← peek) == some '$'.toUInt8 then
          let _ ← take 1
          let name := nameAt (← rest)
          let _ ← take name.length
          expect "("
          let list ← if ← sees ")" then pure (.list []) else expression fuel
          expect ")"
          let holder ← if isNew then do
              let slot ← declare ('$'.toUInt8 :: name)
              pure (Expr.lexical .scalar slot)
            else variableOf .scalar name
          introduce
          let body ← block fuel
          if ← acceptWord "continue" then
            let next ← block fuel
            return [.forEach line label holder isNew list (body ++ next)]
          return [.forEach line label holder isNew list body]
        else
          expect "("
          let first ← if ← sees ";" then pure none
            else if ← sees ")" then pure (some (.list []))
            else some <$> expression fuel
          if ← accept ";" then
            introduce
            let condition ← if ← sees ";" then pure none else some <$> expression fuel
            expect ";"
            let next ← if ← sees ")" then pure none else some <$> expression fuel
            expect ")"
            let body ← block fuel
            return [.count line label first (condition.map loopCondition) next body]
          else
            expect ")"
            let body ← block fuel
            return [.forEach line label topic false (first.getD (.list [])) body]

/-- Reads an expression as a statement, maybe with a condition behind it. -/
def plain : (fuel : Nat) → Reading (List Stmt)
  | 0 => senseless
  | fuel + 1 => do
    let line := (← get).line
    let value ← expression fuel
    let body := [Stmt.evaluate line value]
    let next ← word
    let is (text : String) : Bool := next == utf8 text
    let found ←
      if is "if" || is "unless" then do
        let _ ← take next.length
        let condition ← expression fuel
        let condition := if is "if" then condition else .not condition
        pure [Stmt.evaluate line (.connect .both condition value)]
      else if is "while" || is "until" then do
        let _ ← take next.length
        let condition ← expression fuel
        match value with
        | .block inner => pure [Stmt.loopAfter line condition (is "while") inner]
        | _ => pure [Stmt.loop line none (some (loopCondition condition)) (is "while") body []]
      else if is "for" || is "foreach" then do
        let _ ← take next.length
        let list ← expression fuel
        pure [Stmt.forEach line none topic false list body]
      else pure body
    skip
    match ← rest with
    | [] | 0x7d :: _ => return found
    | _ =>
      if ← accept ";" then return found
      else senseless

/-- Reads what a program uses, after the word. -/
def usage : (fuel : Nat) → (wanted : Bool) → Reading (List Stmt)
  | 0, _ => senseless
  | fuel + 1, wanted => do
    skip
    let line := (← get).line
    let ending : Reading Unit := do
      skip
      if !(← accept ";") && !(← rest).isEmpty && !(← sees "\x7d") then senseless
    if (← peek).any Bytes.isDigit then
      let version ← numeral
      let _ ← takeWhile fun c => Bytes.isDigit c || c == '.'.toUInt8
      ending
      let given := version.toFloat
      if 5.011 < given then beStrict true
      if 5.0095 < given then modify ({ · with hasSay := true })
      return []
    let name ← word
    let _ ← take name.length
    let is (text : String) : Bool := name == utf8 text
    if name.head? = some 'v'.toUInt8 && (name.drop 1).all Bytes.isDigit && 1 < name.length then
      let numbers ← takeWhile fun c => Bytes.isDigit c || c == '.'.toUInt8
      ending
      let minor := match numbers with
        | 46 :: rest => Bytes.digitsValue (rest.takeWhile Bytes.isDigit)
        | _ => 0
      if 11 < minor then beStrict true
      if 9 < minor then modify ({ · with hasSay := true })
      return []
    skip
    if (← peek).any Bytes.isDigit then let _ ← numeral
    if is "constant" && wanted then
      let found ← constants fuel line
      ending
      return found
    let inside ← if ← startsValue then some <$> commas fuel else pure none
    ending
    let words := inside.map fun inside => textsOf fuel inside
    if is "feature" then
      let tells (word : Bytes) : Bool := word == utf8 "say" || (utf8 ":").isPrefixOf word
      if (words.getD []).any tells then modify ({ · with hasSay := wanted })
      return []
    if is "strict" then
      beStrict wanted
      return []
    if !wanted then return []
    if is "vars" then
      let source ← get
      let shared := (words.getD []).map fun name => (name, Binding.shared (qualified source.package (name.drop 1)))
      set { source with names := shared ++ source.names }
      return []
    if is "parent" || is "base" then
      let package := (← get).package
      let parents := (words.getD []).filter (· != utf8 "-norequire")
      let isa := Expr.shared .array (qualified package (utf8 "ISA"))
      return [.early [.evaluate line (.function .push (isa :: parents.map fun name => .constant (.text name)))]]
    if is "lib" then
      match inside with
      | some inside => return [.early [.evaluate line (.function .unshift [.shared .array (utf8 "main::INC"), inside])]]
      | none => return []
    if is "POSIX" || (modules.any fun entry => utf8 entry.1 == name) || (moduleConstants.any fun entry => utf8 entry.1 == name) then
      importAll name (words.map fun words => words.filter fun word => word.head? != some ':'.toUInt8)
        (words.any fun words => words.any fun word => word.head? == some ':'.toUInt8)
      return []
    if manners.any (utf8 · == name) then return []
    let path := Bytes.join (utf8 "/") ((Bytes.fields 58 name).filter (!·.isEmpty)) ++ utf8 ".pm"
    let load := Stmt.evaluate line (.runFile (.constant (.text path)) true)
    let arguments := match inside with
      | some inside => [inside]
      | none => []
    let call := Stmt.evaluate line
      (.method (.constant (.text name)) (utf8 "import") none arguments (← get).package)
    return [.early [load, call]]

/-- Reads the constants of a program, as statements that define them. -/
def constants : (fuel : Nat) → (line : Nat) → Reading (List Stmt)
  | 0, _ => senseless
  | fuel + 1, line => do
    let inside ← if ← startsValue then commas fuel else pure (.list [])
    let source ← get
    let package := source.package
    let add (name : Bytes) (value : List Expr) : Reading Stmt := do
      let full := qualified package name
      let source ← get
      let slot := source.nextSlot
      set { source with nextSlot := slot + 1, nullary := full :: source.nullary, functions := full :: source.functions }
      let (holder, fill) := match value with
        | [single] => (Expr.lexical .scalar slot, Expr.assign (.declare [(.scalar, slot)] false) single)
        | values => (Expr.lexical .array slot, Expr.assignList (.declare [(.array, slot)] false) (.list values))
      return .early [.evaluate line fill, .define full (.mk [.evaluate line holder] package)]
    match inside with
    | .newTable parts =>
      let parts := match parts with
        | [.list parts] => parts
        | parts => parts
      (pairsOf parts).mapM fun (name, value) => match name with
        | .constant (.text name) => add name [value]
        | _ => senseless
    | .list (.constant (.text name) :: values) => return [← add name (values.flatMap partsOf)]
    | .constant (.text name) => return [← add name []]
    | _ => return []

end

def steps (text : Bytes) : Nat := 64 * text.length + 4096

end Reading

/-- Reads a program, in which some variables are known already. -/
def read (file text : Bytes) (names : List (Bytes × Nat)) (slots : Nat) (package : Bytes) (line : Nat := 1) :
    Except Fault Program := do
  let start : Source :=
    { rest := text, file, package, nextSlot := slots, line
      names := names.map fun (name, slot) => (name, .slot slot) }
  let whole : Reading (List Stmt) := do
    let body ← Reading.statements (Reading.steps text)
    if (← get).data.isNone && !(← Reading.rest).isEmpty then Reading.senseless
    return body
  let (body, source) ← whole.run start
  return {
    body, data := source.data, slots := source.nextSlot
    strict := !source.wishes.isEmpty && source.wishes.all id }

end ShellCompletion.Perl
