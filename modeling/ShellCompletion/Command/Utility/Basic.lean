import ShellCompletion.Command.Action

/-!
# Utilities

The standard programs that scripts are made of. A utility is called with arguments, of which some are
options, and ends with a status. What it has to say about faults goes to its third descriptor.
-/
namespace ShellCompletion

/-- How a utility is called. -/
structure Call where
  /-- The name by which it is called. -/
  name : Bytes
  arguments : List Bytes
  environment : Environment
  /-- The current directory. -/
  directory : Bytes
  launch : Launch

/-- A standard program; the result is its status. -/
abbrev Utility := Call → Act Nat

/-- Whether an option comes with a value. -/
inductive ValueUse where
  | none
  | required
  /-- Only one that is joined to the name. -/
  | optional
deriving DecidableEq, Repr

/-- The options that a utility knows. -/
structure OptionTable where
  /-- The letters of those without a value, and of those with one. -/
  flags : String := ""
  valued : String := ""
  /-- The letters of those that may have a value right after them. -/
  optional : String := ""
  /-- The long names of some of them. -/
  long : List (String × Char) := []
  /-- Those that have only a long name. -/
  longOnly : List (String × ValueUse) := []
  /-- They may also stand behind other arguments. -/
  anywhere : Bool := true

/-- The options of a call with their values, and the other arguments. -/
structure Given where
  options : List (UInt8 × Bytes) := []
  /-- Those that have only a long name. -/
  named : List (String × Bytes) := []
  operands : List Bytes := []

namespace Given

def has (given : Given) (letter : Char) : Bool := given.options.any (·.1 == letter.toUInt8)

def value? (given : Given) (letter : Char) : Option Bytes :=
  ((given.options.filter (·.1 == letter.toUInt8)).getLast?).map Prod.snd

def values (given : Given) (letter : Char) : List Bytes :=
  (given.options.filter (·.1 == letter.toUInt8)).map Prod.snd

def hasNamed (given : Given) (name : String) : Bool := given.named.any (·.1 == name)

/-- The last value of an option that has only a long name. -/
def named? (given : Given) (name : String) : Option Bytes :=
  ((given.named.filter (·.1 == name)).getLast?).map Prod.snd

def namedValues (given : Given) (name : String) : List Bytes :=
  (given.named.filter (·.1 == name)).map Prod.snd

/-- The number that the last value of an option says. -/
def number? (given : Given) (letter : Char) : Option Nat :=
  (given.value? letter).bind fun text =>
    if Bytes.allDigits text then some (Bytes.digitsValue text) else none

def lastOf? (given : Given) (letters : String) : Option Char :=
  ((given.options.filter fun option => (utf8 letters).contains option.1).getLast?).map fun option =>
    Char.ofNat option.1.toNat

end Given

namespace OptionTable

def takesValue (table : OptionTable) (letter : UInt8) : Bool := (utf8 table.valued).contains letter

def named (table : OptionTable) (start : Bytes) : List (String × Option UInt8 × ValueUse) :=
  let lettered := table.long.map fun (name, letter) =>
    let letter := letter.toUInt8
    (name, some letter, if table.takesValue letter then ValueUse.required
      else if (utf8 table.optional).contains letter then .optional else .none)
  let others := table.longOnly.map fun (name, use) => (name, (Option.none : Option UInt8), use)
  (lettered ++ others).filter fun entry => start.isPrefixOf (utf8 entry.1)

/-- The option of a long name, which may be cut short. -/
def find? (table : OptionTable) (name : Bytes) : Except Bytes (String × Option UInt8 × ValueUse) :=
  let found := table.named name
  match found.find? (utf8 ·.1 == name), found with
  | some entry, _ => .ok entry
  | none, [] => .error (utf8 "unrecognized option '--" ++ name ++ utf8 "'")
  | none, entry :: rest =>
    if rest.all fun other => other.2.1.isSome && other.2.1 == entry.2.1 then .ok entry
    else .error (utf8 "option '--" ++ name ++ utf8 "' is ambiguous; possibilities:" ++
      found.flatMap fun entry => utf8 " '--" ++ utf8 entry.1 ++ utf8 "'")

/-- Reads the options among arguments, or says what is wrong with one. -/
def read (table : OptionTable) : (fuel : Nat) → List Bytes → Except Bytes Given
  | 0, arguments => .ok { operands := arguments }
  | _, [] => .ok {}
  | fuel + 1, word :: rest => do
    let add (letter : UInt8) (value : Bytes) (rest : List Bytes) : Except Bytes Given := do
      let given ← table.read fuel rest
      return { given with options := (letter, value) :: given.options }
    match word with
    | 45 :: 45 :: [] => return { operands := rest }
    | 45 :: 45 :: long =>
      let start := Bytes.before '='.toUInt8 long
      let joined := if start.length < long.length then some (long.drop (start.length + 1)) else none
      let (name, letter, use) ← table.find? start
      let put (value : Bytes) (rest : List Bytes) : Except Bytes Given :=
        match letter with
        | some letter => add letter value rest
        | none => do
          let given ← table.read fuel rest
          return { given with named := (name, value) :: given.named }
      match use, joined with
      | .none, some _ =>
        .error (utf8 "option '--" ++ utf8 name ++ utf8 "' doesn't allow an argument")
      | .none, none => put [] rest
      | _, some value => put value rest
      | .optional, none => put [] rest
      | .required, none => match rest with
        | value :: rest => put value rest
        | [] => .error (utf8 "option '--" ++ utf8 name ++ utf8 "' requires an argument")
    | 45 :: letter :: more =>
      if table.takesValue letter then
        match more, rest with
        | [], value :: rest => add letter value rest
        | [], [] => .error (utf8 "option requires an argument -- '" ++ [letter] ++ utf8 "'")
        | value, rest => add letter value rest
      else if (utf8 table.optional).contains letter then add letter more rest
      else if (utf8 table.flags).contains letter then
        add letter [] (if more.isEmpty then rest else (45 :: more) :: rest)
      else .error (utf8 "invalid option -- '" ++ [letter] ++ utf8 "'")
    | word =>
      if table.anywhere then
        let given ← table.read fuel rest
        return { given with operands := word :: given.operands }
      else return { operands := word :: rest }

end OptionTable

/-- A name as it is spelled in a message: in quotes if it could be misread. -/
def shownName (name : Bytes) : Bytes :=
  let isPlain (c : UInt8) : Bool :=
    Bytes.isAlpha c || Bytes.isDigit c || 127 < c || (utf8 "-_./+,:@%=").contains c
  if !name.isEmpty && name.all isPlain then name else utf8 "'" ++ name ++ utf8 "'"

def quotedName (name : Bytes) : Bytes := utf8 "'" ++ name ++ utf8 "'"

namespace Call

/-- Says something about a fault. -/
def complain (call : Call) (text : Bytes) : Act Unit := do
  let _ ← Act.write 2 (call.name ++ utf8 ": " ++ text ++ utf8 "\n")

/-- Says what happened to a file. -/
def complainOf (call : Call) (name : Bytes) (cause : FileCause) : Act Unit :=
  call.complain (shownName name ++ utf8 ": " ++ utf8 cause.message)

/-- Says why a call makes no sense. -/
def misuse (call : Call) (text : Bytes) (status : Nat) : Act Nat := do
  if !text.isEmpty then call.complain text
  let _ ← Act.write 2 (utf8 "Try '" ++ call.name ++ utf8 " --help' for more information.\n")
  return status

/-- Reads the options of a call, and goes on with them if there is nothing wrong with them. -/
def withOptions (call : Call) (table : OptionTable) (fault : Nat) (run : Given → Act Nat) :
    Act Nat := do
  let steps := (call.arguments.map fun word => word.length + 1).foldl (· + ·) 1
  match table.read steps call.arguments with
  | .ok given => run given
  | .error text => call.misuse text fault

/-! ## Output -/

/-- Writes a text; says whether that could be done. -/
def put (call : Call) (text : Bytes) : Act Bool := do
  match ← Act.write 1 text with
  | .ok () => return true
  | .error cause =>
    call.complain (utf8 "write error: " ++ utf8 cause.message)
    return false

/-- Writes a text, and gives the status if that could be done. -/
def print (call : Call) (text : Bytes) (status : Nat := 0) : Act Nat := do
  return if ← call.put text then status else 1

/-! ## Input -/

/-- Takes steps with the descriptor at which a file is read; a dash is the standard input. -/
def withInput {α : Type} (call : Call) (name : Bytes) (run : Nat → Act (Except FileCause α)) :
    Act (Except FileCause α) := do
  if name = utf8 "-" then run 0
  else
    let descriptor ← Act.freeDescriptor 3
    match ← Act.openAt descriptor call.directory name .read with
    | .error cause => return .error cause
    | .ok () =>
      let result ← run descriptor
      Act.close descriptor
      return result

def contentOf (call : Call) (name : Bytes) : Act (Except FileCause Bytes) :=
  call.withInput name Act.readAll

def store (call : Call) (name content : Bytes) : Act (Except FileCause Unit) := do
  let descriptor ← Act.freeDescriptor Act.ownDescriptors
  match ← Act.openAt descriptor call.directory name .write with
  | .error cause => return .error cause
  | .ok () =>
    let result ← Act.write descriptor content
    Act.close descriptor
    return result

/-- The contents of files that can be read, and whether all of them can. -/
def contentsOf (call : Call) (names : List Bytes)
    (complain : Bytes → FileCause → Act Unit) : Act (List Bytes × Bool) := do
  let mut found := []
  let mut fine := true
  for name in if names.isEmpty then [utf8 "-"] else names do
    match ← call.contentOf name with
    | .ok content => found := found ++ [content]
    | .error cause =>
      complain name cause
      fine := false
  return (found, fine)

end Call

/-- The lines of a text without their line feeds. -/
def linesOf (text : Bytes) : List Bytes :=
  let parts := Bytes.fields 10 text
  if parts.getLast? = some [] then parts.dropLast else parts

/-- The lines of a text with their line feeds; the last one may have none. -/
def linesWithEnds (text : Bytes) : List Bytes :=
  let parts := Bytes.fields 10 text
  parts.dropLast.map (· ++ [10]) ++ parts.getLast?.toList.filter (!·.isEmpty)

def textOfLines (lines : List Bytes) : Bytes := lines.flatMap (· ++ [10])

/-- Passes lines on as they are read, each changed by a step with a state, until the step says that
    no more are wanted; gives the last state. `rest` is the start of the next line. -/
def passLines {σ : Type} (call : Call) (descriptor : Nat) (step : σ → Bytes → σ × Bytes × Bool) :
    (fuel : Nat) → (rest : Bytes) → σ → Act (Except FileCause σ)
  | 0, _, _ => Act.hang
  | fuel + 1, rest, state => do
    match ← Act.read descriptor Act.portion with
    | .error cause => return .error cause
    | .ok bytes =>
      let parts := Bytes.fields 10 (rest ++ bytes)
      let (lines, rest) := if bytes.isEmpty then (linesOf rest, [])
        else (parts.dropLast, parts.getLast?.getD [])
      let (state, output, done) := lines.foldl (fun (state, output, done) line =>
        if done then (state, output, done)
        else
          let (state, more, done) := step state line
          (state, more :: output, done)) (state, [], false)
      let output := output.reverse.flatten
      let written ← if output.isEmpty then pure true else call.put output
      if bytes.isEmpty || done || !written then return .ok state
      else passLines call descriptor step fuel rest state

end ShellCompletion
