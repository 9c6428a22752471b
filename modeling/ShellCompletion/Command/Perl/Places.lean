import ShellCompletion.Command.Perl.Evaluation

/-!
# Places of values

Which cell an expression stands for, and how values are put there. What is followed is made if it is not
there yet. Values may be put into parts of a text and into the length of an array as well.
-/
namespace ShellCompletion.Perl

namespace Running

/-- The expression has a cell of its own. -/
def hasPlace : Expr → Bool
  | .lexical .scalar _ | .element .. | .entry .. | .follow .scalar _ => true
  | .shared .scalar name => (signOf? name).isNone
  | .declare [(.scalar, _)] _ => true
  | _ => false

/-- What an expression stands for after it has been evaluated once. -/
def settledTarget : Expr → Expr
  | .declare [(sigil, slot)] _ => .lexical sigil slot
  | .declare slots _ => .list ((slots.filter (·.2 != 0)).map fun (sigil, slot) => .lexical sigil slot)
  | .localize target => target
  | .list [.declare [(sigil, slot)] _] => .lexical sigil slot
  | target => target

/-- The text of a key; several values are joined. -/
def keyText (go : Evaluator) (key : Expr) : Running Bytes := do
  match key with
  | .constant (.text text) => return text
  | .list (a :: b :: rest) =>
    let texts ← itemTexts (← go.allItems (a :: b :: rest))
    let separator ← textOf (← sharedValue ";")
    return Bytes.join separator texts
  | key => go.text key

/-- Makes what an expression stands for have another cell for a while. -/
def localizeOne (go : Evaluator) (target : Expr) : Running Unit := do
  let note (change : Undo) : Running Unit := modify fun session => { session with undo := change :: session.undo }
  match target with
  | .shared sigil name =>
    if sigil = .scalar && ((signOf? name).bind special?).isSome then return
    let key := keyOf sigil name
    let old := (← get).shared[key]?
    let address ← fresh (emptyOf sigil)
    note (.shared key old)
    point key address
  | .entry table key =>
    let address ← go.container .table table
    let key ← keyText go key
    note (.entry address key ((← tableAt address).find? key))
    let cell ← fresh (.scalar .nothing)
    onTable address fun entries => ((), entries.insert key cell)
  | .element array index =>
    let address ← go.container .array array
    let index := (← go.value index).toInt
    let old ← elementPlace address index
    let size := (← arrayAt address).size
    let place := (if index < 0 then index + size else index).toNat
    let cell ← fresh (.scalar .nothing)
    note (.element address place old)
    onArray address fun items => ((), items.setIfInBounds place cell)
  | .bareHandle name =>
    let full := Reading.qualified (← get).package name
    let old := (← get).handleNames[full]?
    note (.handle full old)
    let number ← addHandle { name }
    modify fun session => { session with
      handleNames := session.handleNames.insert full number
      selected := if old = some session.selected then number else session.selected }
  | _ => return

/-- Makes what expressions stand for have other cells for a while. -/
def localize (go : Evaluator) (target : Expr) : Running Unit := do
  match target with
  | .list parts => parts.forM (localizeOne go)
  | target => localizeOne go target

/-- Makes a variable that is made only once, with its first value. -/
def makePersistent (go : Evaluator) (sigil : Sigil) (slot : Nat) (first : Option Expr) : Running Nat := do
  match (← get).first[slot]? with
  | some (address, true) => return address
  | _ =>
    let address ← fresh (emptyOf sigil)
    modify fun session => { session with first := session.first.insert slot (address, true) }
    match first with
    | none => pure ()
    | some value =>
      if sigil = .scalar then setScalar address (← go.value value)
      else
        let values ← go.allValues [value]
        if sigil = .array then fillArray address values else refillTable address values
    return address

def containerOf (go : Evaluator) (sigil : Sigil) (expr : Expr) : Running Nat := do
  match expr with
  | .lexical _ slot => slotPlace sigil slot
  | .shared _ name =>
    let isSign (sign : String) : Bool := name == utf8 ("main::" ++ sign)
    if sigil = .table && isSign "+" then
      let address ← fresh (.table {})
      fillTable address (← namedGroups)
      return address
    else if sigil = .array && (isSign "-" || isSign "+") then
      let address ← fresh (.array #[])
      fillArray address (← groupPlaces (isSign "+"))
      return address
    else sharedPlace sigil name
  | .arguments => return (← get).arguments
  | .declare [(_, slot)] _ => declareSlot sigil slot
  | .persistent _ slot first => makePersistent go sigil slot first
  | .localize target =>
    localize go target
    go.container sigil target
  | .follow _ body =>
    if hasPlace body then
      let address ← go.place body
      match ← scalarAt address with
      | .nothing =>
        let target ← fresh (emptyOf sigil)
        setScalar address (.reference target)
        return target
      | value => targetOf sigil value
    else
      match ← go.value body with
      | .nothing => fresh (emptyOf sigil)
      | value => targetOf sigil value
  | .list [part] => go.container sigil part
  | expr => targetOf sigil (← go.value expr)

/-- The cell that an expression stands for; one of its own if it stands for none. -/
def placeOfExpr (go : Evaluator) (expr : Expr) : Running Nat := do
  match expr with
  | .lexical .scalar slot => slotPlace .scalar slot
  | .shared .scalar name =>
    match (signOf? name).bind special? with
    | some value => fresh (.scalar (← value))
    | none => sharedPlace .scalar name
  | .element array index =>
    let address ← go.container .array array
    elementPlace address (← go.value index).toInt
  | .entry table key =>
    let address ← go.container .table table
    entryPlace address (← keyText go key)
  | .follow .scalar body =>
    if hasPlace body then
      let address ← go.place body
      match ← scalarAt address with
      | .nothing =>
        let target ← fresh (.scalar .nothing)
        setScalar address (.reference target)
        return target
      | value => targetOf .scalar value
    else targetOf .scalar (← go.value body)
  | .declare [(.scalar, slot)] _ => declareSlot .scalar slot
  | .persistent .scalar slot first => makePersistent go .scalar slot first
  | .localize target =>
    localize go target
    go.place target
  | .assign target _ | .update _ target _ | .updateIf _ target _ | .step target _ false =>
    go.carryOut expr
    go.place (settledTarget target)
  | .choice condition yes no => if (← go.value condition).isTrue then go.place yes else go.place no
  | .list [part] => go.place part
  | expr => fresh (.scalar (← go.value expr))

/-! ## Values for places -/

def partReplaced (text : Bytes) (offset : Int) (length : Option Int) (replacement : Bytes) :
    Option (Bytes × Bytes) :=
  (partOf? text.length offset length).map fun (start, count) =>
    ((text.drop start).take count, text.take start ++ replacement ++ text.drop (start + count))

def setLastIndex (array : Nat) (last : Int) : Running Unit := do
  let wanted := (last + 1).toNat
  let size := (← arrayAt array).size
  if wanted < size then onArray array fun items => ((), items.take wanted)
  else if size < wanted then let _ ← elementPlace array (wanted - 1 : Nat)

def setGlob (name : Bytes) (value : Scalar) : Running Unit := do
  let full := Reading.qualified (← get).package name
  match value with
  | .reference address =>
    match ← cellAt address with
    | .code callee => defineFunction full callee
    | .array _ => point (keyOf .array full) address
    | .table _ => point (keyOf .table full) address
    | .scalar (.handle number) =>
      modify fun session => { session with handleNames := session.handleNames.insert full number }
    | .scalar _ => point (keyOf .scalar full) address
  | .handle number =>
    modify fun session => { session with handleNames := session.handleNames.insert full number }
  | value =>
    let other := Reading.qualified (← get).package (← textOf value)
    let other := if other.head? = some '*'.toUInt8 then other.drop 1 else other
    for sigil in [Sigil.scalar, .array, .table, .code] do
      if let some address := (← get).shared[keyOf sigil other]? then point (keyOf sigil full) address

def assignTo (go : Evaluator) (target : Expr) (value : Scalar) : Running Unit := do
  match target with
  | .lexical .scalar slot => setScalar (← slotPlace .scalar slot) value
  | .shared .scalar name =>
    match signOf? name with
    | some sign =>
      if !(← setSpecial sign value) then setScalar (← sharedPlace .scalar name) value
    | none => setScalar (← sharedPlace .scalar name) value
  | .lastIndex array => setLastIndex (← go.container .array array) value.toInt
  | .function .substr (text :: offset :: rest) =>
    let address ← go.place text
    let offset := (← go.value offset).toInt
    let length ← match rest with
      | length :: _ => do pure (some (← go.value length).toInt)
      | [] => pure none
    let old ← textOf (← scalarAt address)
    match partReplaced old offset length (← textOf value) with
    | some (_, text) => setScalar address (.text text)
    | none => fail (utf8 "substr outside of string")
  | .function .pos arguments =>
    let address ← go.place (arguments.headD Reading.topic)
    setPosition address (if value.isDefined then some (value.toNat, false) else none)
  | .bareHandle name => setGlob name value
  | .follow .handle name => setGlob (← go.text name) value
  | .entry table key =>
    let address ← go.container .table table
    setScalar (← entryPlace address (← keyText go key)) value
    match table with
    | .shared _ name => if name = signalTable then noteSignals
    | _ => pure ()
  | target => setScalar (← go.place target) value

/-- Puts a value where an expression stands for, which may be another cell for a while. -/
def assign (go : Evaluator) (target : Expr) (value : Scalar) : Running Unit := do
  match target with
  | .localize inner =>
    localize go inner
    assignTo go inner value
  | target => assignTo go target value

/-- What takes values of a list. -/
inductive Receiver where
  | one (target : Expr)
  | cell (address : Nat)
  /-- Takes all that is left. -/
  | all (address : Nat)
  | nobody

/-- What takes the values that are given to an expression. `fuel` bounds how deep it is. -/
def receivers (go : Evaluator) : (fuel : Nat) → Expr → Running (List Receiver)
  | 0, target => return [.one target]
  | fuel + 1, target => do
    match target with
    | .list parts => return (← parts.mapM (receivers go fuel)).flatten
    | .declare slots _ =>
      slots.mapM fun (sigil, slot) => do
        if slot = 0 then return .nobody
        let address ← declareSlot sigil slot
        return if sigil = .scalar then .cell address else .all address
    | .persistent sigil _ _ | .lexical sigil _ | .shared sigil _ | .follow sigil _ =>
      if sigil = .array || sigil = .table then return [.all (← go.container sigil target)]
      else return [.one target]
    | .arguments => return [.all (← go.container .array target)]
    | .localize inner =>
      localize go inner
      receivers go fuel inner
    | .slice array subscripts =>
      let address ← go.container .array array
      (← go.allValues [subscripts]).mapM fun index => do
        return .cell (← elementPlace address index.toInt)
    | .entries table keys =>
      let address ← go.container .table table
      (← go.allValues [keys]).mapM fun key => do
        return .cell (← entryPlace address (← textOf key))
    | .function .undef [] => return [.nobody]
    | .choice condition yes no =>
      if (← go.value condition).isTrue then receivers go fuel yes else receivers go fuel no
    | target => return [.one target]

/-- Gives values to what takes them. -/
def distribute (go : Evaluator) : List Receiver → List Scalar → Running Unit
  | [], _ => return
  | receiver :: rest, values => do
    match receiver with
    | .nobody => distribute go rest (values.drop 1)
    | .cell address =>
      setScalar address (values.headD .nothing)
      distribute go rest (values.drop 1)
    | .one target =>
      assignTo go target (values.headD .nothing)
      distribute go rest (values.drop 1)
    | .all address =>
      match ← cellAt address with
      | .table _ => refillTable address values
      | _ => fillArray address values
      distribute go rest []

def assignList (go : Evaluator) (target value : Expr) : Running Nat := do
  let values ← go.allValues [value]
  distribute go (← receivers go 16 target) values
  return values.length

/-- The value that goes on by one, before that or after it. -/
def step (go : Evaluator) (target : Expr) (up after : Bool) : Running Scalar := do
  let change (value : Scalar) : Scalar := if up then value.next else value.subtract (.int 1)
  if hasPlace target then
    let address ← go.place target
    let old ← scalarAt address
    let new := change old
    setScalar address new
    return if after then (if old.isDefined then old else .int 0) else new
  else
    let old ← go.value target
    let new := change old
    assignTo go target new
    return if after then (if old.isDefined then old else .int 0) else new

def update (go : Evaluator) (operator : Operator) (target value : Expr) : Running Scalar := do
  if hasPlace target then
    let value ← go.value value
    let address ← go.place target
    let new ← combined operator (← scalarAt address) value
    setScalar address new
    return new
  else
    let new ← combined operator (← go.value target) (← go.value value)
    assignTo go target new
    return new

end Running

end ShellCompletion.Perl
