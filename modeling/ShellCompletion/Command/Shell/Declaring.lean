import ShellCompletion.Command.Shell.Settings

/-!
# Declarations of the extended language

The commands that tell what is known of variables: that they are arrays, numbers, references or fixed,
whether programs get them, and whether they belong to the function that is running.
-/
namespace ShellCompletion.Builtin

open Shell

/-! ## Names -/

/-- A variable or an element that an argument names, and the value that it gives it. -/
structure Declared where
  name : Bytes
  subscript : Option Bytes := none
  appends : Bool := false
  value : Option Bytes := none

def splitSubscript (text : Bytes) : Option (Bytes × Bytes) := Reckoning.untilBracket 0 text

/-- What an argument declares; none if it names nothing. -/
def declared? (text : Bytes) : Option Declared :=
  let name := text.takeWhile isNameByte
  let rest := text.drop name.length
  let (subscript, rest) := match rest with
    | 91 :: after => match splitSubscript after with
      | some (subscript, rest) => (some subscript, rest)
      | none => (none, rest)
    | rest => (none, rest)
  if !isName name then none
  else match rest with
    | [] => some { name, subscript }
    | 61 :: value => some { name, subscript, value := some value }
    | 43 :: 61 :: value => some { name, subscript, appends := true, value := some value }
    | _ => none

/-- What is said of an argument that names nothing. -/
def notName (text : Bytes) : Bytes := 96 :: text ++ utf8 "': not a valid identifier"

/-! ## Scopes -/

/-- The inmost function has put aside a variable. -/
def isOwn (shell : Shell) (name : Bytes) : Bool :=
  shell.locals.head?.any fun frame => frame.entries.any (·.1 = name)

/-- Makes a variable one of the function that is running, without a value. -/
def makeLocal (name : Bytes) : Step Unit := do
  let shell ← get
  if !isOwn shell name then
    let outer := shell.binding? name
    if outer.any (·.fixed) then failFixed name
    putAside name
    modify (·.store { name, value := none, exported := outer.any (·.exported) })

/-- The frames with another value in the outermost one that has put aside a variable. -/
def keepIn (name : Bytes) (entry : Option Variable) (frames : List Locals) : List Locals :=
  let isKept (frame : Locals) : Bool := frame.entries.any (·.1 = name)
  let before := (frames.reverse.dropWhile (!isKept ·)).reverse
  match before.getLast? with
  | none => frames
  | some frame =>
    let entries := frame.entries.map fun kept => if kept.1 = name then (name, entry) else kept
    before.dropLast ++ { frame with entries } :: frames.drop before.length

/-- Takes a step in which a name means the variable outside of all functions. -/
def outside (name : Bytes) (step : Step Unit) : Step Unit := do
  let shell ← get
  match shell.locals.reverse.findSome? fun frame => frame.entries.lookup name with
  | none => step
  | some kept =>
    let inner := shell.binding? name
    set (shell.putBack name kept)
    step
    modify fun shell =>
      let locals := keepIn name (shell.binding? name) shell.locals
      { shell.putBack name inner with locals }

/-! ## Declaring -/

/-- What is declared of variables. -/
structure Declaration where
  /-- The letters that are turned on, and those that are turned off. -/
  on : Bytes := []
  off : Bytes := []

namespace Declaration

def has (declaration : Declaration) (letter : Char) : Bool := declaration.on.contains letter.toUInt8

def drops (declaration : Declaration) (letter : Char) : Bool := declaration.off.contains letter.toUInt8

/-- The variable with what is declared of it; the elements come of the value that it has. -/
def apply (declaration : Declaration) (entry : Variable) : Variable :=
  let single : List Bytes := if entry.elements.isSome then [] else entry.value.toList
  let elements := if entry.elements.isSome then entry.elements
    else if declaration.has 'A' then some (.table (single.map fun value => (utf8 "0", value)))
    else if declaration.has 'a' then some (.ofList single)
    else none
  let put (letter : Char) (old : Bool) : Bool :=
    declaration.has letter || (old && !declaration.drops letter)
  { entry with
    elements, integer := put 'i' entry.integer, exported := put 'x' entry.exported
    reference := put 'n' entry.reference
    upper := if declaration.has 'u' then some true else if declaration.has 'l' then some false
      else if declaration.drops 'u' || declaration.drops 'l' then none else entry.upper }

end Declaration

/-- Reads the letters of a declaration, and gives the arguments after them. -/
def readDeclaration (allowed : String) : (fuel : Nat) → Declaration → List Bytes →
    Step (Declaration × List Bytes)
  | 0, declaration, arguments => return (declaration, arguments)
  | _, declaration, [] => return (declaration, [])
  | fuel + 1, declaration, word :: rest => do
    match word with
    | [45, 45] => return (declaration, rest)
    | sign :: letter :: letters =>
      if sign ≠ '-'.toUInt8 ∧ sign ≠ '+'.toUInt8 then return (declaration, word :: rest)
      else match (letter :: letters).find? (!(utf8 allowed).contains ·) with
        | some letter => misuse [] (sign :: letter :: utf8 ": invalid option")
        | none =>
          let declaration := if sign = '-'.toUInt8 then
              { declaration with on := declaration.on ++ letter :: letters }
            else { declaration with off := declaration.off ++ letter :: letters }
          readDeclaration allowed fuel declaration rest
    | _ => return (declaration, word :: rest)

/-- Gives a variable or an element what was declared as its value. -/
def giveValue (declared : Declared) (value : Bytes) : Step Unit := do
  match ListItem.read? value, declared.subscript with
  | some items, none => assignItems declared.name declared.appends items
  | _, subscript =>
    let isArray := ((← get).binding? declared.name).any (·.elements.isSome)
    let subscript := if subscript.isNone && isArray then some (utf8 "0") else subscript
    assignTo declared.name subscript declared.appends value

def declareOne (declaration : Declaration) (declared : Declared) : Step Unit := do
  let shell ← get
  let name := if declaration.has 'n' || declaration.drops 'n' then declared.name
    else shell.follow 8 declared.name
  let declared := { declared with name }
  let entry := (shell.binding? name).getD { name, value := none }
  let isList := (declared.value.bind ListItem.read?).isSome
  if entry.fixed && (declared.value.isSome || declaration.drops 'r') then
    refuse 1 (name ++ utf8 ": readonly variable")
  match entry.elements with
  | some (.table _) =>
    if declaration.has 'a' then refuse 1 (name ++ utf8 ": cannot convert associative to indexed array")
  | some (.row _) =>
    if declaration.has 'A' then refuse 1 (name ++ utf8 ": cannot convert indexed to associative array")
  | none => pure ()
  let needsRow := isList && !declaration.has 'A'
  let applied := (if needsRow then { declaration with on := 'a'.toUInt8 :: declaration.on }
    else declaration).apply entry
  set (shell.store applied)
  match declared.value with
  | some value =>
    if declaration.has 'n' then modify (·.store { applied with value := some value })
    else giveValue declared value
  | none => pure ()
  if declaration.has 'r' then
    modify fun shell => match shell.binding? name with
      | some entry => shell.store { entry with fixed := true }
      | none => shell

def showDeclared (isMeant : Variable → Bool) : Step Nat := do
  let shell ← get
  let meant := (shell.bindings.filter isMeant).mergeSort fun a b => Bytes.le a.name b.name
  print (meant.flatMap fun entry => line [declarationOf entry])

def isDeclared (declaration : Declaration) (entry : Variable) : Bool :=
  declaration.on.all fun letter => !(utf8 "aAinrxlu").contains letter || (lettersOf entry).contains letter

def showFunctions (names : List Bytes) : Step Nat := do
  let shell ← get
  let known := shell.functions.map Prod.fst
  if names.isEmpty then
    print ((known.mergeSort Bytes.le).flatMap fun name => line [utf8 "declare -f ", name])
  else
    let found := names.filter known.contains
    print (found.flatMap fun name => line [name]) (if found.length = names.length then 0 else 1)

def declareAll (declaration : Declaration) (own : Bool) : (arguments : List Bytes) → (status : Nat) →
    Step Nat
  | [], status => return status
  | text :: rest, status => do
    if text = utf8 "-" && own then
      keepOptions
      declareAll declaration own rest status
    else match declared? text with
      | none =>
        complain (notName text)
        declareAll declaration own rest 1
      | some declared =>
        let single : Step Unit := do
          if own then makeLocal declared.name
          if declaration.has 'g' then outside declared.name (declareOne declaration declared)
          else declareOne declaration declared
        let result ← try
            single
            pure status
          catch stop => match stop with
            | .refuse _ => pure 1
            | stop => throw stop
        declareAll declaration own rest result

/-- Declares variables, or shows them. `implied` is what the command itself declares. -/
def declare (allowed : String) (implied : Bytes) (own : Option Bool) (arguments : List Bytes) :
    Step Nat := do
  let (declaration, names) ← readDeclaration allowed (arguments.length + 1) {} arguments
  let shell ← get
  let inFunction := shell.callers.any (·.isFunction)
  if own = some true && !inFunction then refuse 1 (utf8 "can only be used in a function")
  let shows := declaration.has 'p'
  let unexports := implied.contains 'x'.toUInt8 && declaration.has 'n'
  let declaration := if unexports then { declaration with on := [], off := implied }
    else { declaration with on := implied ++ declaration.on }
  if declaration.has 'F' || declaration.has 'f' then
    if implied.isEmpty then showFunctions names
    else
      let known := names.filter fun name => (shell.functions.lookup name).isSome
      return if known.length = names.length then 0 else 1
  else if names.isEmpty then
    if own = some true then
      let isMeant (entry : Variable) : Bool := isOwn shell entry.name
      showDeclared isMeant
    else if shows || declaration.on.any (utf8 "aAinrxlu").contains then
      showDeclared (isDeclared declaration)
    else print (listing shell)
  else if shows && implied.isEmpty then
    let mut status := 0
    for name in names do
      match shell.binding? name, shell.specialElements? name with
      | some entry, _ => let _ ← print (line [declarationOf entry])
      | none, some elements =>
        let _ ← print (line [declarationOf { name, value := some [], elements := some elements }])
      | none, none =>
        complain (name ++ utf8 ": not found")
        status := 1
    return status
  else
    let isLocal := own.getD (inFunction && !declaration.has 'g')
    declareAll declaration isLocal names 0

/-! ## Taking away -/

/-- Takes away a variable, an element or a function. -/
def unsetOne (letters : List (UInt8 × Bytes)) (text : Bytes) : Step Nat := do
  let shell ← get
  let dropFunction : Step Nat := do
    modify fun shell => { shell with functions := shell.functions.filter (·.1 != text) }
    return 0
  if hasLetter letters 'f' then dropFunction
  else match declared? text with
    | some { name, subscript, value := none, .. } =>
      let name := if hasLetter letters 'n' then name else shell.follow 8 name
      let entry := shell.binding? name
      if entry.any (·.fixed) then refuse 1 (name ++ utf8 ": cannot unset: readonly variable")
      match subscript with
      | some subscript =>
        let elements := Reckoning.elementsOf shell name
        if subscript = utf8 "@" ∨ subscript = utf8 "*" then
          set (shell.forget name)
        else if entry.isSome then
          let key ← Reckoning.keyOf Reckoning.depth name subscript
          assignElements name (elements.erase key)
        return 0
      | none =>
        if entry.isNone && !hasLetter letters 'v' && (shell.functions.lookup name).isSome then
          dropFunction
        else
          set (shell.forget name)
          return 0
    | _ =>
      if (shell.functions.lookup text).isSome && !hasLetter letters 'v' then dropFunction
      else refuse 1 (notName text)

def unsetExtended (arguments : List Bytes) : Step Nat := do
  let (letters, names) ← options "fvn" "" arguments
  let mut status := 0
  for name in names do
    let result ← try unsetOne letters name
      catch stop => match stop with
        | .refuse code => pure code
        | stop => throw stop
    if result ≠ 0 then status := result
  return status

/-- Reckons with expressions; succeeds if the last value is not zero. -/
def letCommand (arguments : List Bytes) : Step Nat := do
  if arguments.isEmpty then refuse 1 (utf8 "expression expected")
  let mut last : Int := 0
  for text in arguments do last ← Reckoning.value text
  return if last = 0 then 1 else 0

end ShellCompletion.Builtin
