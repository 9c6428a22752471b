import ShellCompletion.Command.Perl.Matching

/-!
# Variables with a meaning of their own

Variables whose names are signs tell what goes on in the program, or change it. A table tells how signals
are met. What is changed for a while is changed back at the end of a block.
-/
namespace ShellCompletion.Perl

def signOf? (name : Bytes) : Option Bytes :=
  match name with
  | 109 :: 97 :: 105 :: 110 :: 58 :: 58 :: c :: rest =>
    if Reading.isNameByte c then none else some (c :: rest)
  | _ => none

namespace Running

/-- The value of a variable that tells what goes on; none if it is a variable like others. -/
def special? (sign : Bytes) : Option (Running Scalar) :=
  let is (text : String) : Bool := sign == utf8 text
  if is "!" then some faultValue
  else if is "$" then some do return Scalar.ofNat (← act Act.self)
  else if is "|" then some do
    return Scalar.ofNat (if (← handleAt (← get).selected).flushes then 1 else 0)
  else if is "." then some do
    match (← get).lastRead with
    | some number => return Scalar.ofNat (← handleAt number).lines
    | none => return .nothing
  else if is "+" then some lastGroup
  else if is "<" || is ">" then some (return .int 0)
  else if is "(" || is ")" then some (return .text (utf8 "0 0"))
  else none

/-- Changes what a variable stands for; says whether it has a meaning of its own. -/
def setSpecial (sign : Bytes) (value : Scalar) : Running Bool := do
  let is (text : String) : Bool := sign == utf8 text
  if is "|" then
    let number := (← get).selected
    let handle ← handleAt number
    setHandle number { handle with flushes := value.isTrue }
    if value.isTrue then let _ ← flushHandle number
    return true
  else if is "!" then
    setFault value.toNat
    return true
  else if is "." then
    if let some number := (← get).lastRead then
      let handle ← handleAt number
      setHandle number { handle with lines := value.toNat }
    return true
  else return (special? sign).isSome

/-- The value of a variable that is known everywhere. -/
def readShared (name : Bytes) : Running Scalar := do
  match (signOf? name).bind special? with
  | some value => value
  | none => scalarAt (← sharedPlace .scalar name)

/-! ## Signals -/

/-- The name of the table that tells how signals are met. -/
def signalTable : Bytes := utf8 "main::SIG"

/-- Tells the machine how signals are met. -/
def noteSignals : Running Unit := do
  let table ← tableAt (← sharedPlace .table signalTable)
  let mut ignored : List Nat := []
  let mut caught : List Nat := []
  let mut known : List Nat := []
  for (name, address) in table.entries do
    if let some number := signalNumber? name then
      known := number :: known
      match ← scalarAt address with
      | .nothing => pure ()
      | value =>
        let text ← textOf value
        if text = utf8 "IGNORE" then ignored := number :: ignored
        else if text != utf8 "DEFAULT" && !text.isEmpty then caught := number :: caught
  let signals := known
  let before ← act (Act.look fun machine => ((machine.process? machine.current).map (·.ignored)).getD [])
  act (Act.meetSignals (ignored ++ before.filter fun number => !signals.contains number) caught)
  let catches := !caught.isEmpty
  modify ({ · with catches })

/-- The signals that have come and not yet been met. -/
def takePending : Running (List Nat) := act (Act.access fun machine =>
  let pending := ((machine.process? machine.current).map (·.pending)).getD []
  if pending.isEmpty then ([], machine)
  else (pending, machine.update machine.current ({ · with pending := [] })))

/-- A signal has come. -/
def hasPending (machine : Machine) : Bool := (machine.process? machine.current).any (!·.pending.isEmpty)

/-! ## Changes for a while -/

/-- Takes a change back. -/
def takeBack : Undo → Running Unit
  | .shared key address => do
    modify fun session => { session with shared := match address with
      | some address => session.shared.insert key address
      | none => session.shared.erase key }
    if key = keyOf .table signalTable then noteSignals
  | .entry table key address => do
    onTable table fun entries => ((), match address with
      | some address => entries.insert key address
      | none => entries.erase key)
    if (← sharedPlace .table signalTable) = table then noteSignals
  | .element array index address => onArray array fun items => ((), items.setIfInBounds index address)
  | .handle name none => modify fun session => { session with handleNames := session.handleNames.erase name }
  | .handle name (some number) => modify fun session => { session with
      handleNames := session.handleNames.insert name number
      selected := if session.handleNames[name]? = some session.selected then number else session.selected }

/-- Takes changes back until so many are left. `fuel` bounds them. -/
def unwind : (fuel depth : Nat) → Running Unit
  | 0, _ => return
  | fuel + 1, depth => do
    match (← get).undo with
    | [] => return
    | change :: rest =>
      if rest.length < depth then return
      modify ({ · with undo := rest })
      takeBack change
      unwind fuel depth

/-- Runs something with variables and changes of its own. -/
def inScope {α : Type} (body : Running α) : Running α := do
  let (scope, depth) ← modifyGet fun session => ((session.scope, session.undo.length), session)
  let leave : Running Unit := do
    modify ({ · with scope })
    let more := (← get).undo.length
    if depth < more then unwind more depth
  try
    let result ← body
    leave
    return result
  catch jump =>
    leave
    throw jump

/-- Runs something, after which a name leads again to the cell that it led to before. -/
def keepingName {α : Type} (key : Bytes) (body : Running α) : Running α := do
  let old := (← get).shared[key]?
  let leave : Running Unit := takeBack (.shared key old)
  try
    let result ← body
    leave
    return result
  catch jump =>
    leave
    throw jump

/-- Makes a name lead to a cell. -/
def point (key : Bytes) (address : Nat) : Running Unit := modify fun session =>
  { session with shared := session.shared.insert key address }

def topicKey : Bytes := keyOf .scalar (utf8 "main::_")

end Running

end ShellCompletion.Perl
