import ShellCompletion.Command.Perl.Execution

/-!
# Starting Perl programs

How a program is given in the words that it is started with: as a text among them, in a file or as the
input. The words tell as well how lines are read and printed; so does the first line of a file.
-/
namespace ShellCompletion.Perl

/-- How a program is run. -/
structure Manner where
  /-- The program, if it is one of the words. -/
  code : Option Bytes := none
  /-- The newer commands may be used. -/
  extended : Bool := false
  /-- The program is run for each line of the files that are arguments. -/
  loops : Bool := false
  /-- Each of these lines is printed after that. -/
  prints : Bool := false
  /-- The ends of lines are taken off, and added when something is printed. -/
  cuts : Bool := false
  /-- Each line is split, maybe at something else than blanks. -/
  splits : Bool := false
  splitter : Option Bytes := none
  inPlace : Option Bytes := none
  separator : Option Bytes := some [10]
  /-- What follows everything that is printed. -/
  ending : Option Bytes := none
  /-- What is done before the program. -/
  uses : List Bytes := []
  places : List Bytes := []
  checks : Bool := false
  tells : Bool := false
  /-- The program begins behind other text. -/
  hides : Bool := false
  /-- There is nothing after this word that tells about the manner. -/
  ended : Bool := false

/-- The statement that uses a module, as a word tells it. -/
def usingText (word : Bytes) (only : Bool) : Bytes :=
  let negative := word.head? = some '-'.toUInt8
  let word := if negative then word.drop 1 else word
  let verb := utf8 (if negative then "no " else "use ")
  if word.contains '='.toUInt8 then
    let name := Bytes.before '='.toUInt8 word
    let names := (word.drop (name.length + 1)).map fun c => if c = ','.toUInt8 then 32 else c
    verb ++ name ++ utf8 " qw(" ++ names ++ utf8 ");"
  else verb ++ word ++ utf8 (if only then " ();" else ";")

/-- What the digits after a zero say that lines end with. -/
def separatorOf (digits : Bytes) : Option Bytes :=
  let value := Bytes.valueIn 8 digits
  if 255 < value then none
  else if value = 0 && !digits.isEmpty then some []
  else some [UInt8.ofNat value]

/-- Reads what a word tells about the manner, letter by letter. `fuel` bounds the letters. -/
def readSwitches : (fuel : Nat) → Bytes → List Bytes → Manner → Except Bytes (Manner × List Bytes)
  | 0, _, rest, manner => .ok (manner, rest)
  | _, [], rest, manner => .ok (manner, rest)
  | fuel + 1, c :: s, rest, manner =>
    let is (letter : Char) : Bool := letter.toUInt8 == c
    /- The text that belongs to the letter: what is left of the word, or the next word. -/
    let withText (missing : String) (use : Bytes → Manner) : Except Bytes (Manner × List Bytes) :=
      match s, rest with
      | [], text :: rest => .ok (use text, rest)
      | [], [] => .error (utf8 missing)
      | text, rest => .ok (use text, rest)
    if is 'e' || is 'E' then
      withText "No code specified for -e.\n" fun text =>
        { manner with
          code := some ((manner.code.getD []) ++ text ++ [10]), extended := manner.extended || is 'E' }
    else if is 'n' then readSwitches fuel s rest { manner with loops := true }
    else if is 'p' then readSwitches fuel s rest { manner with loops := true, prints := true }
    else if is 'a' then readSwitches fuel s rest { manner with splits := true, loops := true }
    else if is 'F' then
      .ok ({ manner with splits := true, loops := true, splitter := some s }, rest)
    else if is 'l' then
      let digits := s.takeWhile Bytes.isOctal
      let ending := if digits.isEmpty then manner.separator else some [UInt8.ofNat (Bytes.valueIn 8 digits)]
      readSwitches fuel (s.drop digits.length) rest { manner with cuts := true, ending }
    else if is '0' then
      let digits := s.takeWhile Bytes.isOctal
      readSwitches fuel (s.drop digits.length) rest { manner with separator := separatorOf digits }
    else if is 'i' then
      let ending := s.takeWhile (!Bytes.isSpace ·)
      readSwitches fuel (s.drop ending.length) rest { manner with inPlace := some ending }
    else if is 'I' then withText "No directory specified for -I\n" fun text =>
      { manner with places := manner.places ++ [text] }
    else if is 'M' || is 'm' then
      if s.isEmpty then .error (utf8 "Missing argument to -" ++ [c] ++ utf8 "\n")
      else .ok ({ manner with uses := manner.uses ++ [usingText s (is 'm')] }, rest)
    else if is 'c' then readSwitches fuel s rest { manner with checks := true }
    else if is 'v' then readSwitches fuel s rest { manner with tells := true }
    else if is 'x' then .ok ({ manner with hides := true }, rest)
    else if is 'C' || is 'd' || is 'D' then .ok (manner, rest)
    else if (utf8 "wWXsStTuUf").contains c then readSwitches fuel s rest manner
    else if is ' ' || is '-' || c = 13 then readSwitches fuel s rest manner
    else .error (utf8 "Unrecognized switch: -" ++ c :: s ++ utf8 "  (-h will show valid options).\n")

/-- Reads the words that tell about the manner; the others are left. `fuel` bounds them. -/
def readManner : (fuel : Nat) → List Bytes → Manner → Except Bytes (Manner × List Bytes)
  | 0, words, manner => .ok (manner, words)
  | _, [], manner => .ok (manner, [])
  | fuel + 1, word :: rest, manner =>
    match word with
    | [45, 45] => .ok (manner, rest)
    | 45 :: c :: s => do
      let (manner, rest) ← readSwitches (s.length + 2) (c :: s) rest manner
      readManner fuel rest manner
    | _ => .ok (manner, word :: rest)

/-- What the first line of a program tells about the manner. -/
def mannerOfLine (text : Bytes) (manner : Manner) : Manner :=
  let line := Bytes.before 10 text
  if !(utf8 "#!").isPrefixOf line then manner
  else
    let mark := utf8 "perl"
    match (List.range line.length).find? fun k => mark.isPrefixOf (line.drop k) with
    | none => manner
    | some place =>
      let words := Reading.wordsOf ((line.drop place).dropWhile (!Bytes.isSpace ·))
      let kept := words.filter fun word =>
        word.head? = some '-'.toUInt8 && !(utf8 "eEMm").contains (word.getD 1 0)
      match readManner (kept.length + 1) kept manner with
      | .ok (manner, _) => manner
      | .error _ => manner

/-- A program without what comes before the line that it begins with. `fuel` bounds the lines. -/
def uncovered : (fuel : Nat) → Bytes → Bytes
  | 0, text => text
  | fuel + 1, text =>
    let line := Bytes.before 10 text
    let isStart := (utf8 "#!").isPrefixOf line &&
      (List.range line.length).any fun k => (utf8 "perl").isPrefixOf (line.drop k)
    if isStart || text.isEmpty then text else uncovered fuel (text.drop (line.length + 1))

namespace Manner

/-- The program as it is run. -/
def wholeText (manner : Manner) (text : Bytes) : Bytes :=
  let features := if manner.extended then utf8 "use feature ':all';" else []
  let cut : Bytes := if manner.cuts then utf8 "chomp;" else []
  let split : Bytes :=
    if !manner.splits then []
    else match manner.splitter with
      | none => utf8 "our @F=split(' ');"
      | some pattern =>
        let isQuoted := match pattern with
          | c :: rest => (c == '/'.toUInt8 || c == '"'.toUInt8 || c == 39) && rest.getLast? == some c
          | [] => false
        if isQuoted then utf8 "our @F=split(" ++ pattern ++ utf8 ");"
        else utf8 "our @F=split(q\u0000" ++ pattern ++ utf8 "\u0000);"
  let start : Bytes := if manner.loops then utf8 "LINE: while (<>) \x7b" ++ cut ++ split else []
  let ending : Bytes := if manner.prints then utf8 ";\x7dcontinue\x7bprint;\x7d"
    else if manner.loops then utf8 ";\x7d" else []
  features ++ manner.uses.flatten ++ start ++ text ++ ending

end Manner

def modulePlaces : List String :=
  ["/etc/perl", "/usr/local/lib/x86_64-linux-gnu/perl/5.38.2", "/usr/local/share/perl/5.38.2",
   "/usr/lib/x86_64-linux-gnu/perl5/5.38", "/usr/share/perl5", "/usr/lib/x86_64-linux-gnu/perl-base",
   "/usr/lib/x86_64-linux-gnu/perl/5.38", "/usr/share/perl/5.38", "/usr/local/lib/site_perl"]

namespace Running

/-- How deep the parts of a program are nested when it runs. -/
def maxNesting : Nat := 1000000000

/-- The evaluator that runs programs. -/
def evaluatorOf : Evaluator := evaluator maxNesting

/-- Sets what a program knows when it starts. -/
def furnish (manner : Manner) (name : Bytes) (arguments : List Bytes) : Running Unit := do
  for name in ["STDIN", "STDOUT", "STDERR"] do
    let number := (← get).handles.size
    let handle : Handle := { name := utf8 name }
    let _ ← addHandle (if number = 0 then { handle with inlet := some { descriptor := 0 } }
      else { handle with outlet := some { descriptor := number }, flushes := number = 2 })
    modify fun session => { session with
      handleNames := session.handleNames.insert (utf8 ("main::" ++ name)) number }
  let text (bytes : Bytes) : Scalar := .text bytes
  fillArray (← sharedPlace .array (utf8 "main::ARGV")) (arguments.map text)
  fillArray (← sharedPlace .array (utf8 "main::INC")) (manner.places.map text ++ modulePlaces.map fun place => text (utf8 place))
  let environment := (← get).call.environment
  refillTable (← sharedPlace .table (utf8 "main::ENV"))
    (environment.entries.flatMap fun (name, value) => [text name, text value])
  let orNothing (value : Option Bytes) : Scalar := match value with
    | some bytes => text bytes
    | none => .nothing
  setShared "/" (orNothing manner.separator)
  setShared "\\" (orNothing manner.ending)
  setShared "\"" (text [32])
  setShared ";" (text [28])
  setShared "@" (text [])
  setShared "?" (.int 0)
  setShared "0" (text name)
  setShared "^O" (text (utf8 "linux"))
  setShared "^X" (text (utf8 "/usr/bin/perl"))
  setShared "^V" (text (utf8 "v5.38.2"))
  setShared "]" (text (utf8 "5.038002"))
  setShared "^W" (.int 0)
  setShared "^T" (.int ((← act (Act.look (·.clock))).fdiv 1000000))
  let arguments := (← sharedPlace .array (utf8 "main::_"))
  modify ({ · with arguments, inPlace := manner.inPlace, lineEnds := manner.cuts })

/-- The status of a program that has died. -/
def deathStatus : Running Nat := do
  let fault := (← get).fault % 256
  let last := (← sharedValue "?").toNat / 256 % 256
  return if fault != 0 then fault else if last != 0 then last else 255

/-- Runs something up to its end; gives the status. -/
def toStatus (body : Running Unit) : Running Nat := do
  try
    body
    return 0
  catch jump =>
    match jump with
    | .exit status => return status % 256
    | .abort status => throw (.abort status)
    | .death value =>
      let text ← textOf value
      let _ ← write 2 text
      deathStatus
    | jump =>
      let word := match jump with
        | .leave _ => "\"last\" outside a loop block"
        | .again _ => "\"next\" outside a loop block"
        | .redo _ => "\"redo\" outside a loop block"
        | _ => "return outside a subroutine"
      let _ ← write 2 (utf8 "Can't " ++ utf8 word ++ (← whereText))
      return 255

/-- Does what is to be done when all is over. -/
def finishAll (status : Nat) : Running Nat := do
  let mut status := status
  let late := (← get).late
  for (body, scope) in late do
    setShared "?" (Scalar.ofNat status)
    modify ({ · with scope, frames := [] })
    let ended ← toStatus (evaluatorOf.run body)
    let kept := (← sharedValue "?").toNat
    status := if ended != 0 then ended else kept
  return status

def runProgram (manner : Manner) (program : Program) : Running Nat := do
  modify ({ · with slots := program.slots, strict := program.strict })
  match program.data with
  | none => pure ()
  | some data =>
    let inlet : Inlet := { descriptor := noDescriptor, buffered := data, ended := true }
    let number ← addHandle { name := utf8 "DATA", inlet := some inlet }
    modify fun session => { session with
      handleNames := session.handleNames.insert (utf8 "main::DATA") number }
  let file := (← get).file
  let prepared ← toStatus do
    try prepareAll evaluatorOf manyRounds program.body
    catch jump => match jump with
      | .death value => do
        let line := (← get).line
        throw (.death (.text ((← textOf value) ++ utf8 "BEGIN failed--compilation aborted at " ++ file ++
          utf8 " line " ++ Bytes.decimal line ++ utf8 ".\n")))
      | jump => throw jump
  if prepared != 0 then return prepared
  if manner.checks then
    let _ ← write 2 (file ++ utf8 " syntax OK\n")
    return 0
  let status ← toStatus do
    let _ ← evaluatorOf (.block .none program.body)
  finishAll status

end Running

def runText (call : Call) (manner : Manner) (name text : Bytes) (arguments : List Bytes) : Act Nat := do
  let manner := if manner.code.isSome then manner else mannerOfLine text manner
  match read name (manner.wholeText text) [] 1 (utf8 "main") with
  | .error fault =>
    let isShort := (utf8 "Can't find").isPrefixOf fault.message || (utf8 "Subst").isPrefixOf fault.message
    let more : Bytes := if isShort then []
      else utf8 (if manner.checks then "" else "Execution of ") ++ name ++
        utf8 (if manner.checks then " had compilation errors.\n" else " aborted due to compilation errors.\n")
    let _ ← Act.write 2 (fault.message ++ utf8 "\n" ++ more)
    return 255
  | .ok program =>
    let whole : Running Nat := do
      Running.furnish manner name arguments
      let status ← Running.runProgram manner program
      Running.flushAll
      return status
    let (result, _) ← (whole.run.run { call, file := name } : Act (Except Jump Nat × Session))
    match result with
    | .ok status => return status
    | .error (.abort status) => return status
    | .error _ => return 255

/-- The status of a program whose words make no sense. -/
def senselessStatus : Nat := 25

/-- Runs a program as the words of a call tell it. -/
def start : Utility := fun call => do
  match readManner (call.arguments.length + 1) call.arguments {} with
  | .error text =>
    let _ ← Act.write 2 text
    return senselessStatus
  | .ok (manner, rest) =>
    if manner.tells then
      return ← call.print (utf8 "\nThis is perl 5, version 38, subversion 2 (v5.38.2) built for x86_64-linux-gnu-thread-multi\n")
    match manner.code, rest with
    | some code, arguments => runText call manner (utf8 "-e") code arguments
    | none, words =>
      let name := words.headD (utf8 "-")
      match ← call.contentOf name with
      | .error cause =>
        let _ ← Act.write 2 (utf8 "Can't open perl script \"" ++ name ++ utf8 "\": " ++ utf8 cause.message ++ utf8 "\n")
        return 2
      | .ok text =>
        let text := if manner.hides then uncovered (text.length + 1) text else text
        runText call manner name text (words.drop 1)

def programs : List (String × Utility) := [("perl", start)]

end ShellCompletion.Perl
