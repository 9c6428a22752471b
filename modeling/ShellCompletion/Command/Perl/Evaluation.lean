import ShellCompletion.Command.Perl.Special

/-!
# What Perl programs evaluate

An evaluator does what it is asked for: it finds the values of an expression, the cell that one belongs
to, or runs statements and functions. Everything that has to do with parts of a program is told in terms
of an evaluator for those parts. Here are the evaluators, the loops, and the operators.
-/
namespace ShellCompletion.Perl

/-- What is asked for. -/
inductive Task where
  /-- The one value of an expression. -/
  | value (expr : Expr)
  /-- The values of an expression, as many as are wanted. -/
  | items (want : Want) (expr : Expr)
  /-- The cell of a single value. -/
  | place (expr : Expr)
  /-- The cell of an array or of a table. -/
  | container (sigil : Sigil) (expr : Expr)
  /-- Statements with variables of their own; the value of the last one is the result. -/
  | block (want : Want) (body : List Stmt)
  /-- A call of a function; without arguments it gets those of the function that runs. -/
  | call (callee : Callee) (arguments : Option (List Item)) (want : Want)

/-- Does what is asked for. -/
abbrev Evaluator := Task → Running (List Item)

namespace Evaluator

def value (go : Evaluator) (expr : Expr) : Running Scalar := do
  match ← go (.value expr) with
  | item :: _ => Running.itemValue item
  | [] => return .nothing

def text (go : Evaluator) (expr : Expr) : Running Bytes := do Running.textOf (← go.value expr)

def place (go : Evaluator) (expr : Expr) : Running Nat := do
  match ← go (.place expr) with
  | .place address :: _ => return address
  | _ => return 0

def container (go : Evaluator) (sigil : Sigil) (expr : Expr) : Running Nat := do
  match ← go (.container sigil expr) with
  | .place address :: _ => return address
  | _ => return 0

def items (go : Evaluator) (expr : Expr) : Running (List Item) := go (.items .many expr)

def allItems (go : Evaluator) (exprs : List Expr) : Running (List Item) := do
  return (← exprs.mapM fun expr => go (.items .many expr)).flatten

def allValues (go : Evaluator) (exprs : List Expr) : Running (List Scalar) := do
  (← go.allItems exprs).mapM Running.itemValue

def run (go : Evaluator) (body : List Stmt) : Running Unit := do
  let _ ← go (.block .none body)

def carryOut (go : Evaluator) (expr : Expr) : Running Unit := do
  let _ ← go (.items .none expr)

end Evaluator

namespace Running

/-- Never goes on. -/
def hang {α : Type} : Running α := act Act.hang

/-! ## Loops -/

/-- How a round of a loop came to its end. -/
inductive Round where
  | done
  | repeated
  | finished

/-- Runs the body of a loop once. -/
def round (label : Option Bytes) (body : Running Unit) : Running Round := do
  let isMeant (wanted : Option Bytes) : Bool := wanted.isNone || wanted == label
  try
    body
    return .done
  catch jump =>
    match jump with
    | .leave wanted => if isMeant wanted then return .finished else throw jump
    | .again wanted => if isMeant wanted then return .done else throw jump
    | .redo wanted => if isMeant wanted then return .repeated else throw jump
    | jump => throw jump

/-- Runs a loop as long as a condition holds. `fuel` bounds the rounds. -/
def whileTrue (label : Option Bytes) (condition : Running Bool) (body next : Running Unit) : (fuel : Nat) →
    Running Unit
  | 0 => hang
  | fuel + 1 => do
    pause
    if ← condition then
      match ← round label body with
      | .finished => return
      | .repeated => whileTrue label (return true) body next fuel
      | .done =>
        next
        whileTrue label condition body next fuel

/-- Runs the body of a loop for each value. -/
def forEach (label : Option Bytes) (body : Item → Running Unit) : List Item → Running Unit
  | [] => return
  | item :: rest => do
    pause
    match ← round label (body item) with
    | .finished => return
    | .repeated =>
      match ← round label (body item) with
      | .finished => return
      | _ => forEach label body rest
    | .done => forEach label body rest

/-- More rounds than any loop takes. -/
def manyRounds : Nat := 100000000

/-! ## Values in order -/

/-- Joins two lists that are in order. `fuel` bounds them. -/
def merged (isLess : Item → Item → Running Bool) : (fuel : Nat) → List Item → List Item → List Item →
    Running (List Item)
  | 0, done, a, b => return done.reverse ++ a ++ b
  | _, done, [], b => return done.reverse ++ b
  | _, done, a, [] => return done.reverse ++ a
  | fuel + 1, done, x :: a, y :: b => do
    if ← isLess y x then merged isLess fuel (y :: done) (x :: a) b
    else merged isLess fuel (x :: done) a (y :: b)

/-- Values in order. `fuel` bounds how often they are halved. -/
def inOrder (isLess : Item → Item → Running Bool) : (fuel : Nat) → List Item → Running (List Item)
  | 0, items => return items
  | _, [] => return []
  | _, [item] => return [item]
  | fuel + 1, items => do
    let half := items.length / 2
    let a ← inOrder isLess fuel (items.take half)
    let b ← inOrder isLess fuel (items.drop half)
    merged isLess (items.length + 1) [] a b

/-! ## Operators -/

/-- A text so many times. -/
def repeatedText (text : Bytes) (count : Int) : Bytes :=
  match text with
  | [c] => List.replicate count.toNat c
  | text => (List.replicate count.toNat text).flatten

/-- Works on the bits of two values: of both texts, or of both numbers. -/
def onBits (change : Nat → Nat → Nat) (bytes : UInt8 → UInt8 → UInt8) (cuts : Bool) (a b : Scalar) : Scalar :=
  match a, b with
  | .text a, .text b => .text (Scalar.bytewise bytes cuts a b)
  | a, b => Scalar.ofNat (change a.toWord b.toWord)

def combined (operator : Operator) (a b : Scalar) : Running Scalar := do
  match operator with
  | .plus => return a.add b
  | .minus => return a.subtract b
  | .times => return a.multiply b
  | .divided => match a.divide b with
    | some value => return value
    | none => fail (utf8 "Illegal division by zero")
  | .modulo => match a.modulo b with
    | some value => return value
    | none => fail (utf8 "Illegal modulus zero")
  | .power => return a.power b
  | .joined =>
    let start ← textOf a
    return .text (start ++ (← textOf b))
  | .repeated => return .text (repeatedText (← textOf a) b.toInt)
  | .shiftLeft =>
    let count := b.toNat
    return if 64 ≤ count then .int 0 else Scalar.ofNat (a.toWord <<< count % 18446744073709551616)
  | .shiftRight => return Scalar.ofNat (a.toWord >>> b.toNat)
  | .bitAnd => return onBits (· &&& ·) (· &&& ·) true a b
  | .bitOr => return onBits (· ||| ·) (· ||| ·) false a b
  | .bitXor => return onBits (· ^^^ ·) (· ^^^ ·) false a b

def comparison (wanted : Comparison) (order : Option Ordering) : Scalar :=
  match wanted, order with
  | .order, none => .nothing
  | .order, some .lt => .int (-1)
  | .order, some .eq => .int 0
  | .order, some .gt => .int 1
  | .notEqual, order => Scalar.ofBool (order != some .eq)
  | _, none => Scalar.ofBool false
  | .less, some order => Scalar.ofBool (order == .lt)
  | .lessOrEqual, some order => Scalar.ofBool (order != .gt)
  | .equal, some order => Scalar.ofBool (order == .eq)
  | .greater, some order => Scalar.ofBool (order == .gt)
  | .greaterOrEqual, some order => Scalar.ofBool (order != .lt)

def textOrder (a b : Bytes) : Ordering := if a = b then .eq else if Bytes.le a b then .lt else .gt

def compared (texts : Bool) (wanted : Comparison) (a b : Scalar) : Running Scalar := do
  if texts then
    let start ← textOf a
    return comparison wanted (some (textOrder start (← textOf b)))
  else return comparison wanted (a.order b)

/-- A first value decides, so that no second one is looked at. -/
def decides (connective : Connective) (value : Scalar) : Bool :=
  match connective with
  | .both => !value.isTrue
  | .either => value.isTrue
  | .otherwise => value.isDefined

/-- The texts from one to another one. `fuel` bounds them. -/
def textsUpTo (last : Bytes) : (fuel : Nat) → Scalar → List Scalar
  | 0, _ => []
  | fuel + 1, value =>
    match value with
    | .text text =>
      if last.length < text.length then []
      else if text = last then [value]
      else value :: textsUpTo last fuel value.next
    | _ => []

/-- All values from one to another one. -/
def rangeOf (first last : Scalar) : Running (List Scalar) := do
  let start ← textOf first
  let ending ← textOf last
  let isText := match first with
    | .text text => !isNumeric text && !text.isEmpty
    | _ => false
  let isZeroed := match first with
    | .text text => 1 < text.length && text.head? == some 48 && Bytes.allDigits text
    | _ => false
  if isText || isZeroed then
    return textsUpTo ending (if ending.length < 5 then 100000 else 1000000) (.text start)
  else
    let count := last.toInt + 1 - first.toInt
    let base := first.toInt
    return (List.range count.toNat).map fun (k : Nat) => Scalar.int (base + k)

/-! ## Parts of arrays and tables -/

def elementAt? (array : Nat) (index : Int) : Running (Option Nat) := do
  let items ← arrayAt array
  let index := if index < 0 then index + items.size else index
  return if index < 0 then none else items[index.toNat]?

/-- The cell of an element, which is made if it is not there. -/
def elementPlace (array : Nat) (index : Int) : Running Nat := do
  let size := (← arrayAt array).size
  let place := if index < 0 then index + size else index
  if place < 0 then
    fail (utf8 "Modification of non-creatable array value attempted, subscript " ++ Bytes.decimalInt index)
  else
    let place := place.toNat
    if place < size then return (← arrayAt array).getD place 0
    else
      for _ in List.range (place + 1 - size) do
        let cell ← fresh (.scalar .nothing)
        onArray array fun items => ((), items.push cell)
      return (← arrayAt array).getD place 0

/-- The cell of an entry, which is made if it is not there. -/
def entryPlace (table : Nat) (key : Bytes) : Running Nat := do
  match (← tableAt table).find? key with
  | some address => return address
  | none =>
    let address ← fresh (.scalar .nothing)
    onTable table fun entries => ((), entries.insert key address)
    return address

def arrayItems (array : Nat) : Running (List Item) := do
  return (← arrayAt array).toList.map .place

/-- The names and values of a table in turn. -/
def tableItems (table : Nat) : Running (List Item) := do
  return (← tableAt table).entries.flatMap fun (name, address) => [.value (.text name), .place address]

def fillArray (array : Nat) (values : List Scalar) : Running Unit := do
  let cells ← values.mapM fun value => fresh (.scalar value)
  put array (.array cells.toArray)

def refillTable (table : Nat) (values : List Scalar) : Running Unit := do
  put table (.table {})
  fillTable table values
  if (← sharedPlace .table signalTable) = table then noteSignals

/-- How much is in an array or a table. -/
def sizeAt (address : Nat) : Running Nat := do
  match ← cellAt address with
  | .array items => return items.size
  | .table table => return table.size
  | _ => return 0

/-- The values of a list that belong to no cell. -/
def settledItems (items : List Item) : Running (List Item) :=
  items.mapM fun item => do return .value (← itemValue item)

def lastValue (items : List Item) : Running Scalar := do
  match items.getLast? with
  | some item => itemValue item
  | none => return .nothing

/-! ## What references lead to -/

/-- The name of what is followed to in messages. -/
def sigilName : Sigil → String
  | .scalar => "SCALAR"
  | .array => "ARRAY"
  | .table => "HASH"
  | .code => "CODE"
  | .handle => "GLOB"

/-- The cell of some kind that a value leads to. -/
def targetOf (sigil : Sigil) (value : Scalar) : Running Nat := do
  let kind := utf8 (sigilName sigil)
  let article : Bytes := utf8 (if sigil = .array then "an " else "a ")
  match value with
  | .reference address =>
    let fits := match ← cellAt address, sigil with
      | .array _, .array | .table _, .table | .scalar _, .scalar | .code _, .code => true
      | _, _ => false
    if fits then return address
    else fail (utf8 "Not " ++ article ++ kind ++ utf8 " reference")
  | .nothing => fail (utf8 "Can't use an undefined value as " ++ article ++ kind ++ utf8 " reference")
  | .handle _ | .pattern _ => fail (utf8 "Not " ++ article ++ kind ++ utf8 " reference")
  | value =>
    let name ← textOf value
    let session ← get
    if session.strict then
      fail (utf8 "Can't use string (\"" ++ name.take 32 ++ utf8 "\"" ++ (if 32 < name.length then utf8 "..." else []) ++
        utf8 ") as " ++ article ++ kind ++ utf8 " ref while \"strict refs\" in use")
    else sharedPlace sigil (Reading.qualified session.package name)

def calleeNamed? (name : Bytes) : Running (Option Callee) := do
  match (← get).shared[keyOf .code name]? with
  | some address =>
    match ← cellAt address with
    | .code callee => return some callee
    | _ => return none
  | none => return none

/-- The function that a value leads to, if there is one. -/
def calleeOf? (value : Scalar) : Running (Option Callee) := do
  match value with
  | .reference address =>
    match ← cellAt address with
    | .code callee => return some callee
    | _ => return none
  | .nothing => return none
  | value =>
    let name ← textOf value
    let name := if name.head? = some '&'.toUInt8 then name.drop 1 else name
    calleeNamed? (Reading.qualified (← get).package name)

def defineFunction (name : Bytes) (callee : Callee) : Running Unit := do
  put (← sharedPlace .code name) (.code callee)

/-- Meets the signals that have come. -/
def meetPending (go : Evaluator) : Running Unit := do
  if (← get).catches then
    for signal in ← takePending do
      let name := utf8 (((signalNames.find? fun entry => entry.2 == signal).map Prod.fst).getD "")
      let table ← sharedPlace .table signalTable
      if let some address := (← tableAt table).find? name then
        if let some callee ← calleeOf? (← scalarAt address) then
          let _ ← go (.call callee (some [.value (.text name)]) .none)

/-- Waits until something holds of the machine, and meets the signals that come. `fuel` bounds them. -/
def waitMeeting (go : Evaluator) (ready : Machine → Bool) : (fuel : Nat) → Running Unit
  | 0 => hang
  | fuel + 1 => do
    if (← get).catches then
      act (Act.waitUntil fun machine => ready machine || hasPending machine)
      if ← act (Act.look ready) then return
      meetPending go
      waitMeeting go ready fuel
    else act (Act.waitUntil ready)

end Running

end ShellCompletion.Perl
