import ShellCompletion.Command.Edit.Basic

/-!
# Reading edits

Commands stand on lines of their own or between semicolons. A command starts with its addresses, and
some end only with the line.
-/
namespace ShellCompletion.Edit

/-- How edits are spelled. -/
structure Spelling where
  extended : Bool := false
deriving Repr

/-- A reading takes bytes from a text, and fails with a fault and what was left then. -/
abbrev Reading := StateT Bytes (Except (Fault × Bytes))

namespace Reader

def fault {α : Type} (fault : Fault) : Reading α := fun rest => .error (fault, rest)

/-- Passes over bytes of some kind. -/
def skip (isSkipped : UInt8 → Bool) : Reading Unit := modify (·.dropWhile isSkipped)

def isGap (c : UInt8) : Bool := c == 32 || c == 9

/-- Takes the next byte. -/
def next? : Reading (Option UInt8) := do
  match ← get with
  | [] => return none
  | c :: rest =>
    set rest
    return some c

def digits : Reading Bytes := do
  let found := (← get).takeWhile Bytes.isDigit
  modify (·.drop found.length)
  return found

def number : Reading Nat := do return Bytes.digitsValue (← digits)

/-! ## Escapes -/

/-- The byte that a letter after a backslash stands for, and what follows. -/
def byte? (c : UInt8) (rest : Bytes) : Option (UInt8 × Bytes) :=
  let is (letter : Char) : Bool := letter.toUInt8 == c
  let coded (base count : Nat) (isDigit : UInt8 → Bool) : Option (UInt8 × Bytes) :=
    let digits := (rest.take count).takeWhile isDigit
    if digits.isEmpty then none
    else some (UInt8.ofNat (Bytes.valueIn base digits), rest.drop digits.length)
  if is 't' then some (9, rest)
  else if is 'f' then some (12, rest)
  else if is 'v' then some (11, rest)
  else if is 'a' then some (7, rest)
  else if is 'r' then some (13, rest)
  else if is 'd' then coded 10 3 Bytes.isDigit
  else if is 'o' then coded 8 3 Bytes.isOctal
  else if is 'x' then coded 16 2 Bytes.isHex
  else if is 'c' then rest.head?.map fun d => (Bytes.upperByte d ^^^ 64, rest.drop 1)
  else none

/-- The text of an expression with the bytes that are spelled by their codes. One that would mean
    something gets a backslash. -/
def decoded : (fuel : Nat) → Bytes → Bytes
  | 0, s => s
  | _, [] => []
  | fuel + 1, c :: rest =>
    if c ≠ 92 then c :: decoded fuel rest
    else match rest with
      | [] => [c]
      | d :: rest =>
        if d = 'n'.toUInt8 then 10 :: decoded fuel rest
        else match byte? d rest with
          | some (byte, rest) =>
            if (utf8 "^$.*[]\\").contains byte then 92 :: byte :: decoded fuel rest
            else byte :: decoded fuel rest
          | none => c :: d :: decoded fuel rest

/-- Reads up to a delimiter that no backslash stands before, on the same line. Before the delimiter a
    backslash is dropped, and also before an `n`, where both are a line feed, if it is an expression.
    Where there is no delimiter, what is left of the text comes back. -/
def delimited (delimiter : UInt8) (isRegex : Bool) : (fuel : Nat) → Bytes → Except Bytes (Bytes × Bytes)
  | 0, rest => .error rest
  | _, [] => .error []
  | fuel + 1, c :: rest =>
    if c = delimiter then .ok ([], rest)
    else if c = 10 then .error (c :: rest)
    else if c = 92 then
      match rest with
      | [] => .error []
      | d :: rest => (delimited delimiter isRegex fuel rest).map fun (text, rest) =>
        let kept := if d = delimiter then
            (if !isRegex && d == '&'.toUInt8 then [c, d] else [d])
          else if d = 'n'.toUInt8 ∧ isRegex then [10]
          else [c, d]
        (kept ++ text, rest)
    else (delimited delimiter isRegex fuel rest).map fun (text, rest) => (c :: text, rest)

def upTo (delimiter : UInt8) (isRegex : Bool) (what : Fault) : Reading Bytes := do
  let left ← get
  match delimited delimiter isRegex (left.length + 1) left with
  | .ok (text, rest) =>
    set rest
    return text
  | .error rest =>
    set rest
    fault what

def readRegex (spelling : Spelling) (ignoreCase lines : Bool) (text : Bytes) :
    Reading (Option Regex) := do
  if text.isEmpty then return none
  match Regex.read { extended := spelling.extended, ignoreCase, lines } (decoded text.length text) with
  | .ok regex => return some regex
  | .error cause => fault (.regex cause)

/-! ## Parts -/

def ending : Reading Unit := do
  skip isGap
  match ← get with
  | [] => return
  | c :: rest =>
    if c = 125 ∨ c = '#'.toUInt8 then return
    set rest
    if c ≠ 10 ∧ c ≠ ';'.toUInt8 then fault .extraCharacters

def fileName : Reading Bytes := do
  skip isGap
  let name := (← get).takeWhile (· != 10)
  modify (·.drop (name.length + 1))
  if name.isEmpty then fault .missingFile
  return name

def labelName : Reading Bytes := do
  skip isGap
  let name := (← get).takeWhile fun c => !Bytes.isSpace c && c != ';'.toUInt8 && c != 125
  modify (·.drop name.length)
  return name

/-- The rest of a line with its continuations. A backslash is dropped, but for what it makes of the
    next byte. -/
def continued : (fuel : Nat) → Bytes → Bytes × Bytes
  | 0, s => ([], s)
  | _, [] => ([], [])
  | fuel + 1, c :: rest =>
    if c = 10 then ([], rest)
    else if c = 92 then
      match rest with
      | [] => ([], [])
      | d :: rest =>
        let (byte, rest) := if d = 'n'.toUInt8 then (10, rest) else (byte? d rest).getD (d, rest)
        let (text, rest) := continued fuel rest
        (byte :: text, rest)
    else
      let (text, rest) := continued fuel rest
      (c :: text, rest)

/-- Reads the text of a command, which starts on the same line or on the next one. -/
def text : Reading Bytes := do
  skip isGap
  match ← get with
  | [] => fault .expectedBackslash
  | [92] =>
    set ([] : Bytes)
    return []
  | left =>
    let start := match left with
      | 92 :: rest =>
        let after := rest.dropWhile isGap
        match after with
        | 10 :: more => more
        | _ => if rest.head?.any isGap then rest else after
      | left => left
    if left.head? = some 10 then fault .expectedBackslash
    let (found, rest) := continued (start.length + 1) start
    set rest
    return found ++ [10]

/-- The change of case that a letter after a backslash asks for. -/
def caseChange? (c : UInt8) : Option CaseChange :=
  let is (letter : Char) : Bool := letter.toUInt8 == c
  if is 'U' then some .upper
  else if is 'L' then some .lower
  else if is 'u' then some .upperOne
  else if is 'l' then some .lowerOne
  else if is 'E' then some .plain
  else none

/-- The parts of a text that is put in the place of a match. -/
def substitutes : (fuel : Nat) → Bytes → List Substitute
  | 0, _ => []
  | _, [] => []
  | fuel + 1, c :: rest =>
    if c = '&'.toUInt8 then .group 0 :: substitutes fuel rest
    else if c = 92 then
      match rest with
      | [] => [.text [c]]
      | d :: rest =>
        if Bytes.isDigit d then .group (d.toNat - 48) :: substitutes fuel rest
        else if d = 'n'.toUInt8 then .text [10] :: substitutes fuel rest
        else match caseChange? d, byte? d rest with
          | some change, _ => .change change :: substitutes fuel rest
          | none, some (byte, rest) => .text [byte] :: substitutes fuel rest
          | none, none => .text [d] :: substitutes fuel rest
    else .text [c] :: substitutes fuel rest

def substitutionFlags : (fuel : Nat) → Substitution × Bool × Bool →
    Reading (Substitution × Bool × Bool)
  | 0, found => return found
  | fuel + 1, (found, ignoreCase, lines) => do
    match ← get with
    | [] => return (found, ignoreCase, lines)
    | c :: rest =>
      let is (letter : Char) : Bool := letter.toUInt8 == c
      let go (found : Substitution) (ignoreCase lines : Bool) :=
        substitutionFlags fuel (found, ignoreCase, lines)
      if is 'g' then
        set rest
        if found.every then fault (.severalFlags 'g')
        go { found with every := true } ignoreCase lines
      else if is 'p' then
        set rest
        if found.prints then fault (.severalFlags 'p')
        go { found with prints := true } ignoreCase lines
      else if is 'e' then
        set rest
        go { found with runs := true } ignoreCase lines
      else if is 'i' || is 'I' then
        set rest
        go found true lines
      else if is 'm' || is 'M' then
        set rest
        go found ignoreCase true
      else if Bytes.isDigit c then
        let n ← number
        if n = 0 then fault .zeroFlag
        go { found with first := n } ignoreCase lines
      else if is 'w' then
        set rest
        return ({ found with file := some (← fileName) }, ignoreCase, lines)
      else if isGap c || c = 10 || is ';' || c = 125 || is '#' then
        ending
        return (found, ignoreCase, lines)
      else
        set rest
        fault .unknownFlag

def highestGroup (parts : List Substitute) : Nat :=
  parts.foldl (fun n part => match part with
    | .group number => max n number
    | _ => n) 0

def substitution (spelling : Spelling) : Reading Action := do
  let unterminated : Fault := .unterminated "\x60s' command"
  match ← next? with
  | none => fault unterminated
  | some delimiter =>
    let pattern ← upTo delimiter true unterminated
    let target ← upTo delimiter false unterminated
    let parts := substitutes (target.length + 1) target
    let (found, ignoreCase, lines) ←
      substitutionFlags ((← get).length + 1) ({ regex := none, parts }, false, false)
    let regex ← readRegex spelling ignoreCase lines pattern
    let highest := highestGroup parts
    if regex.any fun regex => regex.groupCount < highest then fault (.badReference highest)
    return .substitute { found with regex }

def translated (delimiter : UInt8) : (fuel : Nat) → Bytes → Bytes
  | 0, s => s
  | _, [] => []
  | fuel + 1, c :: rest =>
    if c ≠ 92 then c :: translated delimiter fuel rest
    else match rest with
      | [] => [c]
      | d :: rest =>
        if d = 92 then 92 :: translated delimiter fuel rest
        else if d = 'n'.toUInt8 then 10 :: translated delimiter fuel rest
        else match byte? d rest with
          | some (byte, rest) => byte :: translated delimiter fuel rest
          | none => c :: d :: translated delimiter fuel rest

def translation : Reading Action := do
  let unterminated : Fault := .unterminated "\x60y' command"
  match ← next? with
  | none => fault unterminated
  | some delimiter =>
    let source ← upTo delimiter false unterminated
    let target ← upTo delimiter false unterminated
    let source := translated delimiter source.length source
    let target := translated delimiter target.length target
    if source.length ≠ target.length then fault .lengthsDiffer
    ending
    return .translate source target

/-! ## Commands -/

def address? (spelling : Spelling) : Reading (Option Address) := do
  match ← get with
  | [] => return none
  | c :: rest =>
    if Bytes.isDigit c then
      let n ← number
      skip isGap
      match ← get with
      | 126 :: rest =>
        set rest
        skip isGap
        return some (.steps n (← number))
      | _ => return some (.number n)
    else if c = '$'.toUInt8 then
      set rest
      return some .last
    else if c = '/'.toUInt8 ∨ c = 92 then
      let delimiter := if c = 92 then rest.headD 0 else c
      set (if c = 92 then rest.drop 1 else rest)
      let pattern ← upTo delimiter true (.unterminated "address regex")
      let flags := (← get).takeWhile (utf8 "IM").contains
      modify (·.drop flags.length)
      return some (.regex (← readRegex spelling (flags.contains 'I'.toUInt8)
        (flags.contains 'M'.toUInt8) pattern))
    else return none

def rangeEnd (spelling : Spelling) : Reading RangeEnd := do
  skip isGap
  match ← get with
  | 43 :: rest =>
    set rest
    return .after (← number)
  | 126 :: rest =>
    set rest
    return .multiple (← number)
  | _ =>
    match ← address? spelling with
    | some address => return .at address
    | none =>
      modify (·.drop 1)
      fault .unexpectedComma

/-- Reads what a command does, after its addresses. `depth` is how many blocks are open. -/
def action (spelling : Spelling) (hasAddress : Bool) (c : UInt8) : Reading Action := do
  let is (letter : Char) : Bool := letter.toUInt8 == c
  let ended (action : Action) : Reading Action := do
    ending
    return action
  if c = 123 then return .opening
  else if c = 125 then
    if hasAddress then fault .closingAddress
    ended .closing
  else if is ':' then
    if hasAddress then fault .labelAddress
    skip isGap
    let name := (← get).takeWhile fun c => !Bytes.isSpace c && c != ';'.toUInt8
    modify (·.drop name.length)
    if name.isEmpty then fault .missingLabel
    return .label name
  else if is 'b' then ended (.branch (← labelName))
  else if is 't' then ended (.branchIfReplaced (← labelName))
  else if is 'T' then ended (.branchUnlessReplaced (← labelName))
  else if is 'a' then return .append (← text)
  else if is 'i' then return .insert (← text)
  else if is 'c' then return .change (← text)
  else if is 'q' || is 'Q' then
    skip isGap
    ended (.quit (is 'q') (← number))
  else if is 'l' || is 'L' then
    skip isGap
    let width ← digits
    ended (.show (if width.isEmpty then none else some (Bytes.digitsValue width)))
  else if is 's' then substitution spelling
  else if is 'y' then translation
  else if is 'r' then return .readFile (← fileName)
  else if is 'R' then return .readLine (← fileName)
  else if is 'w' then return .writeFile (← fileName)
  else if is 'W' then return .writeFirst (← fileName)
  else if is 'e' then
    skip isGap
    let command := (← get).takeWhile (· != 10)
    modify (·.drop (command.length + 1))
    return .run command
  else if (utf8 "=dDgGhHnNpPxzF").contains c then ended (.simple (Char.ofNat c.toNat))
  else if is 'v' then
    modify (·.dropWhile (· != 10))
    return .branch []
  else fault (.unknownCommand c)

/-- Reads commands up to the end. `depth` is how many blocks are open. -/
def commands (spelling : Spelling) : (fuel depth : Nat) → List Command → Reading (List Command)
  | 0, _, found => return found.reverse
  | fuel + 1, depth, found => do
    skip fun c => Bytes.isSpace c || c == ';'.toUInt8
    match ← get with
    | [] =>
      if 0 < depth then fault .unmatchedOpening
      return found.reverse
    | c :: _ =>
      if c = '#'.toUInt8 then
        skip (· != 10)
        commands spelling fuel depth found
      else
        let first ← address? spelling
        if first.isNone ∧ (utf8 ",").contains c then fault .unexpectedComma
        skip isGap
        let second ← match first, ← get with
          | some _, 44 :: rest => do
            set rest
            pure (some (← rangeEnd spelling))
          | _, _ => pure none
        let fromZero : Bool := match first with
          | some (.number 0) => true
          | _ => false
        let endsInRegex : Bool := match second with
          | some (.at (.regex _)) => true
          | _ => false
        skip isGap
        if fromZero && !endsInRegex then
          modify (·.drop 1)
          fault .zeroAddress
        let negated := (← get).head? == some '!'.toUInt8
        if negated then
          modify (·.drop 1)
          skip isGap
          if (← get).head? = some '!'.toUInt8 then
            modify (·.drop 1)
            fault .severalNegations
        match ← next? with
        | none => fault .missingCommand
        | some c =>
          let action ← action spelling (first.isSome || negated) c
          let depth ← match action with
            | .opening => pure (depth + 1)
            | .closing => if depth = 0 then fault .unexpectedClosing else pure (depth - 1)
            | _ => pure depth
          commands spelling fuel depth ({ first, second, fromZero, negated, action } :: found)

end Reader

/-- The labels that commands go to. -/
def Action.jump? : Action → Option Bytes
  | .branch name | .branchIfReplaced name | .branchUnlessReplaced name =>
    if name.isEmpty then none else some name
  | _ => none

def read (spelling : Spelling) (script : Bytes) : Except (Fault × Option Nat) (List Command) :=
  match (Reader.commands spelling (script.length + 1) 0 []).run script with
  | .error (.unmatchedOpening, _) => .error (.unmatchedOpening, some 0)
  | .error (fault, rest) => .error (fault, some (script.length - rest.length))
  | .ok (commands, _) =>
    let labels := commands.filterMap fun command => match command.action with
      | .label name => some name
      | _ => none
    match (commands.filterMap (·.action.jump?)).find? (!labels.contains ·) with
    | some name => .error (.unknownLabel name, none)
    | none => .ok commands

end ShellCompletion.Edit
