import ShellCompletion.Command.Calendar
import ShellCompletion.Command.Pattern
import ShellCompletion.Command.Regex.Posix
import ShellCompletion.Command.Utility.Files
import ShellCompletion.Command.Utility.Processes

/-!
# Finding files

The standard program that walks over files and the directories that hold them, and does something with
those that an expression selects. An expression is made of tests, which only look, and of actions.
-/
namespace ShellCompletion.Utility

/-- A file that has been come upon. -/
structure FoundFile where
  path : Bytes
  /-- The path that was given, below which it lies. -/
  start : Bytes
  depth : Nat
  place : List Bytes
  /-- What lies there, and what it leads to. -/
  node : FileNode
  target : Option FileNode

/-- What is done with a file. The result says whether the expression goes on. -/
inductive FindExpression where
  | test (holds : Machine → FoundFile → Bool)
  | both (first second : FindExpression)
  | either (first second : FindExpression)
  /-- Only the second one counts. -/
  | list (first second : FindExpression)
  | negated (body : FindExpression)
  /-- Writes a text, maybe to a file. -/
  | show (file : Option Bytes) (text : Machine → FoundFile → Bytes)
  /-- Runs a command, maybe in the directory of the file. -/
  | run (inside : Bool) (words : List Bytes)
  /-- Runs a command for many files at once. -/
  | collect (number : Nat) (inside : Bool) (words : List Bytes)
  | delete
  | prune
  | quit

namespace FoundFile

def name (file : FoundFile) : Bytes :=
  if file.path.all (· == Path.slash) then utf8 "/"
  else
    let trimmed := (file.path.reverse.dropWhile (· == Path.slash)).reverse
    let slashes := file.path.drop trimmed.length
    Bytes.afterLast Path.slash trimmed ++ slashes

/-- The directory that the path names. -/
def directory (file : FoundFile) : Bytes :=
  let trimmed := (file.path.reverse.dropWhile (· == Path.slash)).reverse
  if !trimmed.contains Path.slash then (if trimmed.isEmpty then [] else Path.dot)
  else (Bytes.throughLast Path.slash trimmed).dropLast

/-- The path below the one that was given. -/
def below (file : FoundFile) : Bytes :=
  let rest := file.path.drop file.start.length
  if rest.head? = some Path.slash then rest.drop 1 else rest

def size (file : FoundFile) : Nat :=
  match file.node with
  | .file content _ => content.length
  | .directory => 4096
  | .link target => target.length
  | .pipe => 0

def mode (machine : Machine) (file : FoundFile) : Nat := machine.modeAt file.place file.node

def isEmpty (machine : Machine) (file : FoundFile) : Bool :=
  match file.node with
  | .file content _ => content.isEmpty
  | .directory => (machine.files.namesIn file.place).isEmpty
  | _ => false

/-- How many names lead to it. -/
def links (machine : Machine) (file : FoundFile) : Nat :=
  match file.node with
  | .directory => 2 + ((machine.files.namesIn file.place).filter fun name =>
      machine.files.node? (file.place ++ [name]) == some .directory).length
  | _ => 1

end FoundFile

namespace Finding

/-! ## Texts -/

/-- A number that may not exceed another one, reach it exactly, or may exceed it. -/
def comparison? (text : Bytes) : Option (Ordering × Nat × Bytes) :=
  let (order, rest) := match text with
    | 43 :: rest => (Ordering.gt, rest)
    | 45 :: rest => (Ordering.lt, rest)
    | rest => (Ordering.eq, rest)
  let digits := rest.takeWhile Bytes.isDigit
  if digits.isEmpty then none
  else some (order, Bytes.digitsValue digits, rest.drop digits.length)

def moment (time : Int) : Calendar.Moment :=
  { seconds := time.fdiv 1000000, nanoseconds := ((time.fmod 1000000) * 1000).toNat }

/-- A moment as a number of seconds. -/
def exactTime (time : Int) : Bytes :=
  (moment time).text (utf8 "%s.%N0")

def usualTime (time : Int) : Bytes := (moment time).text (utf8 "%a %b %e %H:%M:%S.%N0 %Y")

/-- What a letter of a format stands for; none if it stands for nothing. -/
def directive? (letter : Char) (machine : Machine) (file : FoundFile) : Option Bytes :=
  let decimal (n : Nat) : Option Bytes := some (Bytes.decimal n)
  let blocks (unit : Nat) : Nat := match file.node with
    | .link _ => 0
    | _ => (file.size + 4095) / 4096 * 4096 / unit
  match letter with
  | 'p' => some file.path
  | 'f' => some file.name
  | 'h' => some file.directory
  | 'P' => some file.below
  | 'H' => some file.start
  | 's' => decimal file.size
  | 'm' => some (Permissions.digits (file.mode machine))
  | 'M' => some (Permissions.letters (Permissions.kindOf file.node) (file.mode machine))
  | 'y' => some [(Permissions.kindOf file.node).toUInt8]
  | 'Y' => some [(match file.target with
    | some node => (Permissions.kindOf node).toUInt8
    | none => 'N'.toUInt8)]
  | 'd' => decimal file.depth
  | 'l' => some (match file.node with
    | .link target => target
    | _ => [])
  | 'n' => decimal (file.links machine)
  | 'u' | 'g' => some (utf8 "root")
  | 'U' | 'G' => some (utf8 "0")
  | 'k' => decimal (blocks 1024)
  | 'b' => decimal (blocks 512)
  | 'i' => decimal (1000 + file.place.flatten.length)
  | 'D' => some (utf8 "64")
  | 'F' => some (utf8 "overlay")
  | 't' | 'a' | 'c' => some (usualTime (machine.changedAt file.place))
  | _ => none

def timeDirective (letter : Char) (time : Int) : Bytes :=
  if letter = '@' then exactTime time
  else if letter = '+' then (moment time).text (utf8 "%Y-%m-%d+%H:%M:%S.%N0")
  else if letter = 'S' then (moment time).text (utf8 "%S.%N0")
  else if letter = 'T' then (moment time).text (utf8 "%H:%M:%S.%N0")
  else (moment time).text [37, letter.toUInt8]

/-- The text that a format makes of a file. `fuel` bounds the bytes. -/
def formatted (machine : Machine) (file : FoundFile) : (fuel : Nat) → Bytes → Bytes
  | 0, _ => []
  | _, [] => []
  | fuel + 1, c :: rest =>
    if c = 92 then
      match rest with
      | [] => [92]
      | d :: more =>
        if d = 'c'.toUInt8 then []
        else
          let digits := (rest.take 3).takeWhile Bytes.isOctal
          let known : List (Char × UInt8) :=
            [('a', 7), ('b', 8), ('f', 12), ('n', 10), ('r', 13), ('t', 9), ('v', 11), ('\\', 92)]
          if !digits.isEmpty then
            UInt8.ofNat (Bytes.valueIn 8 digits) :: formatted machine file fuel (rest.drop digits.length)
          else match known.lookup (Char.ofNat d.toNat) with
            | some byte => byte :: formatted machine file fuel more
            | none => 92 :: d :: formatted machine file fuel more
    else if c = '%'.toUInt8 then
      let flags := rest.takeWhile fun d => (utf8 "-+ #0.").contains d || Bytes.isDigit d
      match rest.drop flags.length with
      | [] => c :: rest
      | d :: more =>
        let letter := Char.ofNat d.toNat
        let isLeft := flags.contains '-'.toUInt8
        let width := Bytes.digitsValue (Bytes.before '.'.toUInt8 (flags.dropWhile fun d =>
          (utf8 "-+ #0").contains d))
        let most : Option Nat := if flags.contains '.'.toUInt8 then
            some (Bytes.digitsValue ((flags.dropWhile (· != '.'.toUInt8)).drop 1))
          else none
        let pad (text : Bytes) : Bytes :=
          let text := match most with
            | some most => text.take most
            | none => text
          let fill := List.replicate (width - text.length)
            (if flags.head? = some '0'.toUInt8 then (48 : UInt8) else 32)
          if isLeft then text ++ fill else fill ++ text
        if letter = '%' then 37 :: formatted machine file fuel more
        else if letter = 'T' ∨ letter = 'A' ∨ letter = 'C' then
          match more with
          | [] => []
          | e :: more =>
            pad (timeDirective (Char.ofNat e.toNat) (machine.changedAt file.place)) ++
              formatted machine file fuel more
        else match directive? letter machine file with
          | some text => pad text ++ formatted machine file fuel more
          | none => 37 :: flags ++ d :: formatted machine file fuel more
    else c :: formatted machine file fuel rest

def longLine (machine : Machine) (file : FoundFile) : Bytes :=
  let part (letter : Char) : Bytes := (directive? letter machine file).getD []
  let right (width : Nat) (text : Bytes) : Bytes := List.replicate (width - text.length) 32 ++ text
  let left (width : Nat) (text : Bytes) : Bytes := text ++ List.replicate (width - text.length) 32
  let time := (moment (machine.changedAt file.place)).text (utf8 "%b %e %H:%M")
  let target := match file.node with
    | .link target => utf8 " -> " ++ target
    | _ => []
  Bytes.join [32] [right 9 (part 'i'), right 6 (part 'k'), part 'M', right 3 (part 'n'),
    left 8 (part 'u'), left 8 (part 'g'), right 8 (part 's'), time, file.path ++ target] ++ [10]

/-! ## Reading expressions -/

/-- What has been read of a call. -/
structure Reading where
  words : List Bytes
  least : Nat := 0
  most : Option Nat := none
  /-- Directories come after what they hold. -/
  depthFirst : Bool := false
  /-- There is an action that makes it needless to print. -/
  acts : Bool := false
  /-- How many commands run for many files at once. -/
  collections : Nat := 0
  /-- The spelling of regular expressions. -/
  spelling : Bytes := utf8 "findutils-default"
  follows : Bool := false

abbrev Parser := StateT Reading (Except Bytes)

def fail {α : Type} (text : Bytes) : Parser α := fun _ => .error text

/-- A name between the quotes of messages. -/
def marked (name : Bytes) : Bytes := 96 :: name ++ utf8 "'"

def argument (option : Bytes) : Parser Bytes := do
  match (← get).words with
  | [] => fail (utf8 "missing argument to " ++ marked option)
  | word :: words =>
    modify ({ · with words })
    return word

/-- Compares a number by an argument. -/
def compared (option : Bytes) (value : Machine → FoundFile → Nat) : Parser FindExpression := do
  let text ← argument option
  match comparison? text with
  | some (order, n, []) => return .test fun machine file => compareOfLessAndEq (value machine file) n == order
  | _ => fail (utf8 "invalid argument " ++ marked text ++ utf8 " to " ++ marked option)

/-- Compares the age of a file in some unit of seconds. -/
def aged (option : Bytes) (unit : Nat) : Parser FindExpression := do
  let text ← argument option
  match comparison? text with
  | some (order, n, []) => return .test fun machine file =>
      let age := machine.clock - machine.changedAt file.place
      let whole := age.fdiv (unit * 1000000)
      match order with
      | .gt => (n : Int) < (if unit = 60 then -((-age).fdiv 60000000) else whole)
      | .lt => if unit = 60 then age < n * 60000000 else whole < n
      | .eq => (if unit = 60 then -((-age).fdiv 60000000) else whole) == n
  | _ => fail (utf8 "invalid argument " ++ marked text ++ utf8 " to " ++ marked option)

/-- Tests a text by a pattern. -/
def globbed (option : Bytes) (folds : Bool) (text : FoundFile → Bytes) : Parser FindExpression := do
  let pattern ← argument option
  let fold (s : Bytes) : Bytes := if folds then Bytes.lower s else s
  let pattern := Pattern.ofText (fold pattern)
  return .test fun _ file => Pattern.accepts pattern (fold (text file))

def kinds (option : Bytes) : Parser (List Char) := do
  let text ← argument option
  let parts := Bytes.fields ','.toUInt8 text
  match parts.mapM fun part => match part with
      | [c] => if (utf8 "fdlpbcsD").contains c then some (Char.ofNat c.toNat) else none
      | _ => none with
  | some letters => return letters
  | none =>
    let wrong := ((parts.find? fun part => part.length ≠ 1 || !part.all (utf8 "fdlpbcsD").contains).getD [])
    fail (utf8 "Unknown argument to " ++ option ++ utf8 ": " ++ wrong)

/-- The words of a command up to the mark that ends it; it ends with a plus sign after the braces if it
    is run for many files at once. -/
def commandWords (option : Bytes) : Parser (List Bytes × Bool) := do
  let words := (← get).words
  let semicolon := words.findIdx? (· == utf8 ";")
  let plus := (words.zip (words.drop 1)).findIdx? fun (a, b) => a == [123, 125] && b == utf8 "+"
  let isPlus := match plus, semicolon with
    | some p, some s => p < s
    | some _, none => true
    | none, _ => false
  let count := if isPlus then (plus.getD 0) + 1 else semicolon.getD 0
  if !isPlus && (semicolon.isNone || count = 0) then
    fail (utf8 "missing argument to " ++ marked option)
  modify fun reading => { reading with words := words.drop (count + 1), acts := true }
  return (words.take count, isPlus)

def readRegex (folds : Bool) (text : Bytes) : Parser FindExpression := do
  let spelling := (← get).spelling
  let extended := [utf8 "posix-extended", utf8 "egrep", utf8 "awk", utf8 "gnu-awk", utf8 "posix-awk",
    utf8 "posix-egrep"].contains spelling
  let rec swapped : Bytes → Bytes
    | 92 :: c :: rest =>
      if c = '+'.toUInt8 ∨ c = '?'.toUInt8 then c :: swapped rest else 92 :: c :: swapped rest
    | c :: rest =>
      if c = '+'.toUInt8 ∨ c = '?'.toUInt8 then 92 :: c :: swapped rest else c :: swapped rest
    | [] => []
  let isBasic := [utf8 "posix-basic", utf8 "ed", utf8 "sed", utf8 "grep", utf8 "posix-minimal-basic"].contains
    spelling
  let text' := if extended || isBasic then text else swapped text
  match Regex.read { extended, ignoreCase := folds } text' with
  | .ok regex =>
    let whole := Regex.both Regex.atStart (.both regex Regex.atEnd)
    return .test fun _ file => whole.accepts file.path
  | .error fault =>
    fail (utf8 "failed to compile regular expression '" ++ text ++ utf8 "': " ++ utf8 fault.message)

/-- The file that an argument names. -/
def reference (machine : Machine) (directory name : Bytes) : Parser (List Bytes) :=
  match machine.files.locate directory name with
  | .ok place =>
    if (machine.files.node? place).isSome then return place
    else fail (quotedName name ++ utf8 ": " ++ utf8 FileCause.notFound.message)
  | .error cause => fail (quotedName name ++ utf8 ": " ++ utf8 cause.message)

def always : FindExpression := .test fun _ _ => true

def acting (expression : FindExpression) : Parser FindExpression := do
  modify ({ · with acts := true })
  return expression

/-- Reads what an option says. -/
def primary (machine : Machine) (directory option : Bytes) : Parser FindExpression := do
  let is (name : String) : Bool := utf8 name == option
  let number (set : Nat → Reading → Reading) : Parser FindExpression := do
    let text ← argument option
    if Bytes.allDigits text then
      modify (set (Bytes.digitsValue text))
      return always
    else fail (utf8 "Expected a positive decimal integer argument to " ++ option ++ utf8 ", but got " ++
      quotedName text)
  let later (changed : Machine → FoundFile → Int) : Parser FindExpression := do
    let name ← argument option
    let place ← reference machine directory name
    let time := machine.changedAt place
    return .test fun machine file => time < changed machine file
  let changed (machine : Machine) (file : FoundFile) : Int := machine.changedAt file.place
  if is "-maxdepth" then number fun n reading => { reading with most := some n }
  else if is "-mindepth" then number fun n reading => { reading with least := n }
  else if is "-depth" || is "-d" then
    modify ({ · with depthFirst := true })
    return always
  else if is "-follow" then
    modify ({ · with follows := true })
    return always
  else if is "-regextype" then
    let spelling ← argument option
    modify ({ · with spelling })
    return always
  else if is "-mount" || is "-xdev" || is "-daystart" || is "-noleaf" || is "-warn" || is "-nowarn" ||
      is "-ignore_readdir_race" || is "-noignore_readdir_race" || is "-true" then return always
  else if is "-false" then return .test fun _ _ => false
  else if is "-name" || is "-iname" then
    globbed option (is "-iname") fun file =>
      let name := file.name
      if 1 < name.length then (name.reverse.dropWhile (· == Path.slash)).reverse else name
  else if is "-path" || is "-wholename" || is "-ipath" || is "-iwholename" then
    globbed option (is "-ipath" || is "-iwholename") (·.path)
  else if is "-lname" || is "-ilname" then
    match ← globbed option (is "-ilname") (fun file => match file.node with
        | .link target => target
        | _ => []) with
    | .test holds => return .test fun machine file => Permissions.kindOf file.node == 'l' && holds machine file
    | other => return other
  else if is "-regex" || is "-iregex" then readRegex (is "-iregex") (← argument option)
  else if is "-type" then
    let letters ← kinds option
    return .test fun _ file => letters.contains (Permissions.kindOf file.node)
  else if is "-xtype" then
    let letters ← kinds option
    return .test fun _ file =>
      letters.contains ((file.target.map Permissions.kindOf).getD (Permissions.kindOf file.node))
  else if is "-empty" then return .test fun machine file => file.isEmpty machine
  else if is "-size" then
    let text ← argument option
    let units : List (Bytes × Nat) :=
      [([], 512), (utf8 "b", 512), (utf8 "c", 1), (utf8 "w", 2), (utf8 "k", 1024), (utf8 "M", 1048576),
       (utf8 "G", 1073741824)]
    match comparison? text with
    | some (order, n, unit) => match units.lookup unit with
      | some size => return .test fun _ file =>
          compareOfLessAndEq ((file.size + size - 1) / size) n == order
      | none => fail (utf8 "invalid -size type " ++ marked (unit.take 1))
    | none => fail (utf8 "Invalid argument " ++ marked text ++ utf8 " to -size")
  else if is "-links" then compared option fun machine file => file.links machine
  else if is "-inum" then compared option fun _ file => 1000 + file.place.flatten.length
  else if is "-uid" || is "-gid" then compared option fun _ _ => 0
  else if is "-user" || is "-group" then
    let name ← argument option
    return .test fun _ _ => name == utf8 "root" || name == utf8 "0"
  else if is "-nouser" || is "-nogroup" then return .test fun _ _ => false
  else if is "-mtime" || is "-ctime" || is "-atime" then aged option 86400
  else if is "-mmin" || is "-cmin" || is "-amin" then aged option 60
  else if is "-newer" || is "-anewer" || is "-cnewer" then later changed
  else if (utf8 "-newer").isPrefixOf option && option.length = 8 then
    if option.getLast? = some 't'.toUInt8 then
      let text ← argument option
      match Calendar.read (moment machine.clock) text with
      | some limit => return .test fun machine file =>
          limit.seconds * 1000000 + (limit.nanoseconds / 1000 : Nat) < machine.changedAt file.place
      | none => fail (utf8 "I cannot figure out how to interpret " ++ quotedName text ++
          utf8 " as a date or time")
    else later changed
  else if is "-samefile" then
    let place ← reference machine directory (← argument option)
    return .test fun _ file => file.place == place
  else if is "-perm" then
    let text ← argument option
    let (way, rest) := match text with
      | 45 :: rest => ('-', rest)
      | 47 :: rest => ('/', rest)
      | rest => ('=', rest)
    match Permissions.read 0 rest with
    | none => fail (utf8 "invalid mode " ++ marked text)
    | some change =>
      let wanted := change false 0
      return .test fun machine file =>
        let mode := file.mode machine
        if way = '-' then mode &&& wanted == wanted
        else if way = '/' then wanted == 0 || mode &&& wanted != 0
        else mode == wanted
  else if is "-readable" || is "-writable" then return always
  else if is "-executable" then
    return .test fun machine file =>
      let node := file.target.getD file.node
      node == .directory || file.mode machine &&& 73 != 0
  else if is "-print" then acting (.show none fun _ file => file.path ++ [10])
  else if is "-print0" then acting (.show none fun _ file => file.path ++ [0])
  else if is "-printf" then
    let format ← argument option
    acting (.show none fun machine file => formatted machine file (format.length + 1) format)
  else if is "-fprint" || is "-fprint0" then
    let name ← argument option
    let ending : UInt8 := if is "-fprint" then 10 else 0
    acting (.show (some name) fun _ file => file.path ++ [ending])
  else if is "-fprintf" then
    let name ← argument option
    let format ← argument option
    acting (.show (some name) fun machine file => formatted machine file (format.length + 1) format)
  else if is "-ls" then acting (.show none longLine)
  else if is "-exec" || is "-execdir" || is "-ok" || is "-okdir" then
    let (words, many) ← commandWords option
    let inside := is "-execdir" || is "-okdir"
    if many then
      let number := (← get).collections
      modify ({ · with collections := number + 1 })
      return .collect number inside words.dropLast
    else return .run inside words
  else if is "-delete" then
    modify ({ · with depthFirst := true })
    acting .delete
  else if is "-prune" then return .prune
  else if is "-quit" then acting .quit
  else fail (utf8 "unknown predicate " ++ marked option)

/-- What is said where a closing bracket is missing. -/
def unclosed : Bytes :=
  utf8 "invalid expression; expected to find a ')' but didn't see one. " ++
    utf8 "Perhaps you need an extra predicate after '('"

mutual

/-- Reads a part that no operator takes apart. -/
def unary (machine : Machine) (directory : Bytes) : (fuel : Nat) → (last : Bytes) → Parser FindExpression
  | 0, _ => fail (utf8 "invalid expression")
  | fuel + 1, last => do
    match (← get).words with
    | [] =>
      if last = utf8 "(" then fail unclosed
      else fail (utf8 "expected an expression after " ++ quotedName last)
    | word :: words =>
      let is (name : String) : Bool := utf8 name == word
      modify ({ · with words })
      if is "!" || is "-not" then return .negated (← unary machine directory fuel word)
      else if is "(" then
        if words.head? = some (utf8 ")") then
          fail (utf8 "invalid expression; empty parentheses are not allowed.")
        let body ← commas machine directory fuel word
        match (← get).words with
        | [41] :: words =>
          modify ({ · with words })
          return body
        | _ => fail unclosed
      else if is "-o" || is "-or" || is "-a" || is "-and" || is "," then
        fail (utf8 "invalid expression; you have used a binary operator " ++ quotedName word ++
          utf8 " with nothing before it.")
      else if is ")" then fail (utf8 "invalid expression; you have too many ')'")
      else if word.head? = some '-'.toUInt8 then primary machine directory word
      else fail (utf8 "paths must precede expression: " ++ marked word)

/-- Reads parts that must all hold. -/
def conjunction (machine : Machine) (directory : Bytes) : (fuel : Nat) → (last : Bytes) →
    Parser FindExpression
  | 0, _ => fail (utf8 "invalid expression")
  | fuel + 1, last => do
    let first ← unary machine directory fuel last
    match (← get).words with
    | [] => return first
    | word :: words =>
      let is (name : String) : Bool := utf8 name == word
      if is "-o" || is "-or" || is ")" || is "," then return first
      else if is "-a" || is "-and" then
        modify ({ · with words })
        return .both first (← conjunction machine directory fuel word)
      else return .both first (← conjunction machine directory fuel last)

/-- Reads parts of which one must hold. -/
def disjunction (machine : Machine) (directory : Bytes) : (fuel : Nat) → (last : Bytes) →
    Parser FindExpression
  | 0, _ => fail (utf8 "invalid expression")
  | fuel + 1, last => do
    let first ← conjunction machine directory fuel last
    match (← get).words with
    | word :: words =>
      if word = utf8 "-o" ∨ word = utf8 "-or" then
        modify ({ · with words })
        return .either first (← disjunction machine directory fuel word)
      else return first
    | [] => return first

/-- Reads expressions of which the last one counts. -/
def commas (machine : Machine) (directory : Bytes) : (fuel : Nat) → (last : Bytes) →
    Parser FindExpression
  | 0, _ => fail (utf8 "invalid expression")
  | fuel + 1, last => do
    let first ← disjunction machine directory fuel last
    match (← get).words with
    | [44] :: words =>
      modify ({ · with words })
      return .list first (← commas machine directory fuel (utf8 ","))
    | _ => return first

end

/-- Reads a whole expression; without an action, what it selects is printed. -/
def expression (machine : Machine) (directory : Bytes) : Parser FindExpression := do
  let printing : FindExpression := .show none fun _ file => file.path ++ [10]
  let words := (← get).words
  if words.isEmpty then return printing
  let read ← commas machine directory (8 * words.length + 8) (utf8 "(")
  if !(← get).words.isEmpty then fail (utf8 "invalid expression; you have too many ')'")
  return if (← get).acts then read else .both read printing

/-! ## Walking -/

/-- The state of a walk. -/
structure Walk where
  status : Nat := 0
  pruned : Bool := false
  ended : Bool := false
  /-- The files that wait for commands that are run for many at once. -/
  waiting : List (Nat × Bool × List Bytes × List Bytes) := []
  /-- The descriptors of the files that are written. -/
  outputs : List (Bytes × Nat) := []

abbrev Walking := StateT Walk Act

def complain (call : Call) (text : Bytes) : Walking Unit := do
  call.complain text
  modify ({ · with status := 1 })

/-- Runs a command, and says whether that ended well. -/
def runCommand (call : Call) (directory : Bytes) (words : List Bytes) : Act Bool := do
  let ending ← Act.inProcess do
    let _ ← replaceBy call call.environment directory words fun name cause =>
      call.complain (quotedName name ++ utf8 ": " ++ utf8 cause.message)
    return 1
  return match ending with
    | .exited 0 => true
    | _ => false

def seenInside (call : Call) (file : FoundFile) : Bytes × Bytes :=
  (Machine.pathOf file.place.dropLast,
    utf8 "./" ++ ((file.place.getLast?).getD (Path.fileName call.directory)))

def evaluate (call : Call) (file : FoundFile) : FindExpression → Walking Bool
  | .test holds => do return holds (← Act.look id) file
  | .both first second => do
    if ← evaluate call file first then
      if (← get).ended then return false else evaluate call file second
    else return false
  | .either first second => do
    if ← evaluate call file first then return true
    else if (← get).ended then return false
    else evaluate call file second
  | .list first second => do
    let _ ← evaluate call file first
    evaluate call file second
  | .negated body => do return !(← evaluate call file body)
  | .show none text => do
    let _ ← call.put (text (← Act.look id) file)
    return true
  | .show (some name) text => do
    let bytes := text (← Act.look id) file
    if let some descriptor := (← get).outputs.lookup name then
      let _ ← Act.write descriptor bytes
    return true
  | .run inside words => do
    let (directory, path) := if inside then seenInside call file else (call.directory, file.path)
    let words := words.map fun word => replaceMark [123, 125] path (word.length + 1) word
    runCommand call directory words
  | .collect number inside words => do
    let path := if inside then (seenInside call file).2 else file.path
    modify fun walk =>
      if walk.waiting.any (·.1 == number) then
        { walk with waiting := walk.waiting.map fun (other, inside, words, paths) =>
            (other, inside, words, if other = number then path :: paths else paths) }
      else { walk with waiting := walk.waiting ++ [(number, inside, words, [path])] }
    return true
  | .delete => do
    let machine ← Act.look id
    if file.path = Path.dot then return true
    else if file.node == .directory && !(machine.files.namesIn file.place).isEmpty then
      complain call (utf8 "cannot delete " ++ quotedName file.path ++ utf8 ": Directory not empty")
      return false
    else
      Act.change (·.erase file.place)
      return true
  | .prune => do
    modify ({ · with pruned := true })
    return true
  | .quit => do
    modify ({ · with ended := true })
    return false

/-- The files that the walk knows of are found through links, if `follows` says so. -/
def fileAt (machine : Machine) (follows : Bool) (path start : Bytes) (depth : Nat)
    (place : List Bytes) : Option FoundFile := do
  let node ← machine.files.node? place
  let directory := Machine.pathOf place.dropLast
  let target := match node with
    | .link _ => (machine.files.find? directory ((place.getLast?).getD [])).toOption
    | node => some node
  match node, target, follows with
  | .link _, some reached, true =>
    let place := (machine.files.locate directory ((place.getLast?).getD [])).toOption.getD place
    return { path, start, depth, place, node := reached, target }
  | node, target, _ => return { path, start, depth, place, node, target }

/-- Walks over files one after the other, and over what directories hold. -/
def walk (call : Call) (reading : Reading) (expression : FindExpression) (start : Bytes) :
    (fuel depth : Nat) → List (Bytes × List Bytes) → Walking Unit
  | 0, _, _ => return
  | _, _, [] => return
  | fuel + 1, depth, (path, place) :: rest => do
    if (← get).ended then return
    let machine ← Act.look id
    if let some file := fileAt machine reading.follows path start depth place then
      modify ({ · with pruned := false })
      let isWanted := reading.least ≤ depth
      if isWanted && !reading.depthFirst then let _ ← evaluate call file expression
      let state ← get
      if file.node == .directory && !state.ended && reading.most.all (depth < ·) &&
          (reading.depthFirst || !state.pruned) then
        let machine ← Act.look id
        let names := (machine.files.namesIn file.place).mergeSort Bytes.le
        let inner := names.map fun name =>
          (if path.getLast? = some Path.slash then path ++ name else path ++ Path.slash :: name,
            file.place ++ [name])
        walk call reading expression start fuel (depth + 1) inner
      if isWanted && reading.depthFirst && !(← get).ended then
        let _ ← evaluate call file expression
    walk call reading expression start fuel depth rest

/-- Runs the commands that wait for many files. -/
def runWaiting (call : Call) : Walking Unit := do
  for (_, _, words, paths) in (← get).waiting do
    if !(← runCommand call call.directory (words ++ paths.reverse)) then
      modify ({ · with status := 1 })

def written : FindExpression → List Bytes
  | .show (some name) _ => [name]
  | .both first second | .either first second | .list first second => written first ++ written second
  | .negated body => written body
  | _ => []

end Finding

/-- The options that come before everything else, and the other words. -/
def splitFindOptions (follows : Bool) : List Bytes → Bool × List Bytes
  | word :: rest =>
    if word = utf8 "-L" then splitFindOptions true rest
    else if word = utf8 "-P" ∨ word = utf8 "-H" then splitFindOptions false rest
    else if (utf8 "-O").isPrefixOf word then splitFindOptions follows rest
    else (follows, word :: rest)
  | [] => (follows, [])

def find : Utility := fun call => do
  let (follows, words) := splitFindOptions false call.arguments
  let isPath (word : Bytes) : Bool :=
    !(word.head? = some '-'.toUInt8 && 1 < word.length) && word != utf8 "(" && word != utf8 "!" &&
      !(word == utf8 "," || word == utf8 ")")
  let starts := words.takeWhile isPath
  let machine ← Act.look id
  match (Finding.expression machine call.directory).run
      { words := words.drop starts.length, follows } with
  | .error text =>
    call.complain text
    return 1
  | .ok (expression, reading) =>
    let starts := if starts.isEmpty then [Path.dot] else starts
    let walking : Finding.Walking Unit := do
      for name in (Finding.written expression).eraseDups do
        let descriptor ← Act.freeDescriptor Act.ownDescriptors
        match ← Act.openAt descriptor call.directory name .write with
        | .ok () => modify fun state => { state with outputs := (name, descriptor) :: state.outputs }
        | .error cause => Finding.complain call (quotedName name ++ utf8 ": " ++ utf8 cause.message)
      for start in starts do
        let machine ← Act.look id
        match entryAt machine call.directory start with
        | .ok (place, some _) => Finding.walk call reading expression start 100000 0 [(start, place)]
        | .ok (_, none) =>
          Finding.complain call (quotedName start ++ utf8 ": " ++ utf8 FileCause.notFound.message)
        | .error cause => Finding.complain call (quotedName start ++ utf8 ": " ++ utf8 cause.message)
      Finding.runWaiting call
    return (← walking.run {}).2.status

/-- The utilities of this kind by name. -/
def finding : List (String × Utility) := [("find", find)]

end ShellCompletion.Utility
