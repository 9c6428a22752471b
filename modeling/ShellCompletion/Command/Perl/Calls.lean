import ShellCompletion.Command.Perl.Substitution

/-!
# Calls of functions and methods

A function runs with arguments, with a package and with what is wanted of it. A method is looked for in
the class of an object and in the classes that this one comes from.
-/
namespace ShellCompletion.Perl

/-- What belongs to the function that runs. -/
structure Surroundings where
  scope : Scope
  arguments : Nat
  want : Want
  package : Bytes
  line : Nat
  found : Option Found
  frames : List Frame
  depth : Nat

def Session.surroundings (session : Session) : Surroundings :=
  { scope := session.scope, arguments := session.arguments, want := session.want, package := session.package
    line := session.line, found := session.found, frames := session.frames, depth := session.undo.length }

namespace Running

/-- Comes back to what was before a function ran. -/
def returnTo (s : Surroundings) : Running Unit := do
  modify fun session => { session with
    scope := s.scope, arguments := s.arguments, want := s.want, package := s.package, line := s.line
    found := s.found, frames := s.frames }
  let more := (← get).undo.length
  if s.depth < more then unwind more s.depth

/-- Runs the body of a function. -/
def invoke (go : Evaluator) (name : Bytes) (code : Code) (scope : Scope) (arguments : Option (List Item))
    (want : Want) : Running (List Item) := do
  pause
  meetPending go
  let given ← match arguments with
    | some items => do
      let cells ← items.mapM itemPlace
      fresh (.array cells.toArray)
    | none => do pure (← get).arguments
  let before ← modifyGet fun session =>
    let before := session.surroundings
    let frame : Frame := ⟨name, before.package, before.line, want⟩
    (before, { session with
      scope, arguments := given, want, package := code.package, frames := frame :: before.frames })
  try
    let items ← (do
      try go (.block want code.body)
      catch jump => match jump with
        | .giveBack items => return items
        | jump => throw jump)
    let items ← settledItems items
    returnTo before
    return items
  catch jump =>
    returnTo before
    throw jump

/-! ## Faults -/

/-- Where the function that runs was called. -/
def callerText : Running Bytes := do
  let session ← get
  match session.frames with
  | frame :: _ =>
    return utf8 " at " ++ session.file ++ utf8 " line " ++ Bytes.decimal frame.line ++ utf8 ".\n"
  | [] => whereText

/-- The function that meets warnings or faults, if there is one. -/
def meeting? (name : String) : Running (Option Callee) := do
  let table ← tableAt (← sharedPlace .table signalTable)
  match table.find? (utf8 name) with
  | some address => calleeOf? (← scalarAt address)
  | none => return none

/-- Ends the program with a value, unless something meets that. -/
def die {α : Type} (go : Evaluator) (value : Scalar) : Running α := do
  match ← meeting? "__DIE__" with
  | some callee =>
    let table ← sharedPlace .table signalTable
    let old := (← tableAt table).find? (utf8 "__DIE__")
    onTable table fun entries => ((), entries.erase (utf8 "__DIE__"))
    let _ ← go (.call callee (some [.value value]) .none)
    if let some address := old then
      onTable table fun entries => ((), entries.insert (utf8 "__DIE__") address)
  | none => pure ()
  throw (.death value)

/-- Says something about a fault, unless something meets that. -/
def warn (go : Evaluator) (text : Bytes) : Running Unit := do
  match ← meeting? "__WARN__" with
  | some callee =>
    let _ ← go (.call callee (some [.value (.text text)]) .none)
  | none =>
    let _ ← write 2 text

def messageOf (values : List Scalar) (usual : String) (place : Running Bytes) : Running Bytes := do
  let text := (← values.mapM textOf).flatten
  let text := if text.isEmpty then utf8 usual else text
  if text.getLast? = some 10 then return text else return text ++ (← place)

/-! ## Methods -/

/-- The classes that a class comes from. -/
def parentsOf (name : Bytes) : Running (List Bytes) := do
  match (← get).shared[keyOf .array (name ++ utf8 "::ISA")]? with
  | some address => itemTexts (← arrayItems address)
  | none => return []

/-- A class and all that it comes from, in the order in which they are looked at. `fuel` bounds how deep
    that is. -/
def lineage : (fuel : Nat) → Bytes → Running (List Bytes)
  | 0, name => return [name]
  | fuel + 1, name => do
    let above ← (← parentsOf name).mapM (lineage fuel)
    return name :: above.flatten

def methodIn? (classes : List Bytes) (name : Bytes) : Running (Option Callee) := do
  for owner in classes do
    if let some callee ← calleeNamed? (owner ++ utf8 "::" ++ name) then return some callee
  return none

def classOf (object : Scalar) : Running (Option Bytes) := do
  match object with
  | .reference address => return (← get).classes[address]?
  | .nothing | .handle _ => return none
  | .pattern _ => return some (utf8 "Regexp")
  | value =>
    let name ← textOf value
    let name := if (utf8 "::").isSuffixOf name then name.take (name.length - 2) else name
    return if (utf8 "main::").isPrefixOf name && 6 < name.length then some (name.drop 6) else some name

def handleMethod (number : Nat) (name : Bytes) (values : List Scalar) : Running Scalar := do
  let is (text : String) : Bool := name == utf8 text
  let printed (texts : List Bytes) (ending : Bytes) : Running Scalar := do
    return Scalar.ofBool (← write number (texts.flatten ++ ending))
  if is "autoflush" then
    let handle ← handleAt number
    setHandle number { handle with flushes := match values with
      | value :: _ => value.isTrue
      | [] => true }
    let _ ← flushHandle number
    return .int 1
  else if is "flush" then return Scalar.ofBool (← flushHandle number)
  else if is "print" then printed (← values.mapM textOf) []
  else if is "say" then printed (← values.mapM textOf) [10]
  else if is "printf" then
    let shown ← (values.drop 1).mapM fun value => do return (value, ← textOf value)
    printed [formatAll (← textOf (values.headD .nothing)) shown] []
  else if is "close" then return Scalar.ofBool (← closeHandle number)
  else if is "getline" then
    match ← readLine number with
    | some line => return .text line
    | none => return .nothing
  else if is "eof" then return Scalar.ofBool (← atEnd number)
  else if is "opened" then return Scalar.ofBool (← handleAt number).isOpen
  else if is "fileno" then
    match (← handleAt number).descriptor? with
    | some descriptor => return Scalar.ofNat (shownDescriptor descriptor)
    | none => return .nothing
  else return .int 1

def callMethod (go : Evaluator) (object : Scalar) (name : Bytes) (dynamic : Option Scalar)
    (arguments : List Item) (package : Bytes) (want : Want) : Running (List Item) := do
  let one (value : Scalar) : Running (List Item) := return [.value value]
  let all := Item.value object :: arguments
  let code ← match dynamic with
    | some value => do
      match value with
      | .reference _ => calleeOf? value
      | _ => pure none
    | none => pure none
  match code with
  | some callee => go (.call callee (some all) want)
  | none =>
    let name ← match dynamic with
      | some value => textOf value
      | none => pure name
    let is (text : String) : Bool := name == utf8 text
    let named ← match object with
      | .reference _ | .handle _ => handleOf? package object
      | .text text => do
        if (← calleeNamed? (text ++ utf8 "::" ++ name)).isSome then pure none else namedHandle package text
      | _ => pure none
    match named with
    | some number => one (← handleMethod number name (← arguments.mapM itemValue))
    | none =>
      let shown := utf8 "Can't call method \"" ++ name ++ utf8 "\" "
      let owner ← match object with
        | .nothing => fail (shown ++ utf8 "on an undefined value")
        | object => classOf object
      match owner with
      | none => fail (shown ++ utf8 "on unblessed reference")
      | some owner =>
        if owner.isEmpty then fail (shown ++ utf8 "without a package or object reference")
        let isAbove := (utf8 "SUPER::").isPrefixOf name
        let bare := if isAbove then name.drop 7 else name
        let classes ← lineage 50 (if isAbove then package else owner)
        let classes := if isAbove then classes.drop 1 else classes
        let isFull := !isAbove && bare.contains ':'.toUInt8
        let found ← if isFull then calleeNamed? bare else methodIn? classes bare
        match found with
        | some callee => go (.call callee (some all) want)
        | none =>
          let first ← match arguments with
            | item :: _ => do textOf (← itemValue item)
            | [] => pure []
          if is "isa" || is "DOES" then one (Scalar.ofBool (classes.contains first))
          else if is "can" then
            match ← methodIn? classes first with
            | some callee => one (.reference (← fresh (.code callee)))
            | none => one (Scalar.ofBool false)
          else if is "import" || is "unimport" || is "DESTROY" then return []
          else if is "VERSION" then
            match (← get).shared[keyOf .scalar (owner ++ utf8 "::VERSION")]? with
            | some address => one (← scalarAt address)
            | none => one .nothing
          else
            match ← methodIn? classes (utf8 "AUTOLOAD") with
            | some callee =>
              for owner in classes do
                if (← calleeNamed? (owner ++ utf8 "::AUTOLOAD")).isSome then
                  setScalar (← sharedPlace .scalar (owner ++ utf8 "::AUTOLOAD"))
                    (.text (owner ++ utf8 "::" ++ bare))
              go (.call callee (some all) want)
            | none =>
              let isKnown := match object with
                | .reference _ => true
                | _ => false
              let names := (← get).shared.toList.any fun entry =>
                (utf8 "&" ++ owner ++ utf8 "::").isPrefixOf entry.1
              let hint : Bytes := if isKnown || names then []
                else utf8 " (perhaps you forgot to load \"" ++ owner ++ utf8 "\"?)"
              fail (utf8 "Can't locate object method \"" ++ bare ++ utf8 "\" via package \"" ++ owner ++
                utf8 "\"" ++ hint)

def callNamed (go : Evaluator) (name : Bytes) (arguments : Option (List Expr)) (fallback : Option Scalar)
    (want : Want) : Running (List Item) := do
  match ← calleeNamed? name with
  | some callee =>
    let items ← match arguments, fallback with
      | some exprs, _ => do pure (some (← go.allItems exprs))
      | none, some _ => pure (some [])
      | none, none => pure none
    go (.call callee items want)
  | none =>
    match fallback, arguments with
    | some value, none => return [.value value]
    | _, _ =>
      let owner := (Bytes.throughLast ':'.toUInt8 name)
      match ← calleeNamed? (owner ++ utf8 "AUTOLOAD") with
      | some callee =>
        setScalar (← sharedPlace .scalar (owner ++ utf8 "AUTOLOAD")) (.text name)
        let items ← go.allItems (arguments.getD [])
        go (.call callee (some items) want)
      | none => fail (utf8 "Undefined subroutine &" ++ name ++ utf8 " called")

def callValue (go : Evaluator) (value : Scalar) (arguments : Option (List Expr)) (want : Want) :
    Running (List Item) := do
  match ← calleeOf? value with
  | some callee =>
    let items ← match arguments with
      | some exprs => do pure (some (← go.allItems exprs))
      | none => pure none
    go (.call callee items want)
  | none =>
    match value with
    | .nothing => fail (utf8 "Can't use an undefined value as a subroutine reference")
    | .reference _ | .handle _ | .pattern _ => fail (utf8 "Not a CODE reference")
    | value =>
      let name ← textOf value
      if (← get).strict then
        fail (utf8 "Can't use string (\"" ++ name ++
          utf8 "\") as a subroutine ref while \"strict refs\" in use")
      else
        fail (utf8 "Undefined subroutine &" ++ Reading.qualified (← get).package name ++ utf8 " called")

end Running

end ShellCompletion.Perl
