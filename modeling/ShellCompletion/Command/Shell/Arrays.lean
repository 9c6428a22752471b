import ShellCompletion.Command.Shell.Quoted
import ShellCompletion.Command.Shell.Reckoning

/-!
# Variables of the extended language

How variables and the elements of arrays get their values, and how they are shown with all that is known
of them.
-/
namespace ShellCompletion

/-- An item of a list: its value, and its subscript if it has one. -/
structure ListItem where
  subscript : Option Bytes := none
  /-- The value comes after the one that is there. -/
  appends : Bool := false
  value : Bytes
deriving DecidableEq, Repr

namespace ListItem

/-- A list as it stands among the arguments of a command, none of which holds zero bytes otherwise. -/
def spell (items : List ListItem) : Bytes :=
  0 :: items.flatMap fun item =>
    (match item.subscript with
      | none => []
      | some subscript => (if item.appends then '+'.toUInt8 else '='.toUInt8) :: subscript) ++
    0 :: item.value ++ [0]

/-- The items of parts that are subscripts and values in turn. -/
def ofParts : List Bytes → List ListItem
  | subscript :: value :: rest =>
    { subscript := if subscript.isEmpty then none else some (subscript.drop 1)
      appends := subscript.head? == some '+'.toUInt8, value } :: ofParts rest
  | _ => []

/-- The list that an argument spells. -/
def read? (text : Bytes) : Option (List ListItem) :=
  match text with
  | 0 :: rest => some (ofParts (Bytes.fields 0 rest))
  | _ => none

def spelled (item : ListItem) : Bytes :=
  match item.subscript with
  | some subscript =>
    utf8 "[" ++ subscript ++ utf8 (if item.appends then "]+=" else "]=") ++ item.value
  | none => item.value

end ListItem

namespace Shell

def casedFor (entry : Option Variable) (value : Bytes) : Bytes :=
  match entry.bind (·.upper) with
  | some true => Bytes.upper value
  | some false => Bytes.lower value
  | none => value

/-- The value that comes of a text, which may come after a value that is there. -/
def combined (entry : Option Variable) (old : Option Bytes) (appends : Bool) (text : Bytes) :
    Step Bytes := do
  if entry.any (·.integer) then
    let n ← Reckoning.value text
    let before ← if appends then Reckoning.value (old.getD []) else pure 0
    return Bytes.decimalInt (Word64.toSigned (before + n))
  else return casedFor entry ((if appends then old.getD [] else []) ++ text)

/-- Gives a variable or an element a value, or adds to the one that it has. -/
def assignTo (name : Bytes) (subscript : Option Bytes) (appends : Bool) (text : Bytes) : Step Unit := do
  let shell ← get
  let name := shell.follow 8 name
  let entry := shell.binding? name
  match subscript with
  | none =>
    let old := (Reckoning.elementsOf shell name).get? (utf8 "0")
    assign name (← combined entry old appends text)
  | some subscript =>
    if subscript.isEmpty || subscript = utf8 "@" || subscript = utf8 "*" then
      fail (name ++ utf8 "[" ++ subscript ++ utf8 "]: bad array subscript")
    let key ← Reckoning.keyOf Reckoning.depth name subscript
    let old := (Reckoning.elementsOf (← get) name).get? key
    let value ← combined entry old appends text
    assignElements name ((Reckoning.elementsOf (← get) name).set key value)

/-- Items that are names and values in turn. -/
def paired : List ListItem → List ListItem
  | name :: value :: rest =>
    { subscript := some name.spelled, value := value.spelled } :: paired rest
  | [name] => [{ subscript := some name.spelled, value := [] }]
  | [] => []

def putItems (name : Bytes) : (items : List ListItem) → (number : Nat) → Elements → Step Elements
  | [], _, elements => return elements
  | item :: rest, number, elements => do
    let entry := (← get).binding? name
    match elements with
    | .table _ =>
      match item.subscript with
      | none => fail (name ++ utf8 ": " ++ item.value ++
          utf8 ": must use subscript when assigning associative array")
      | some key =>
        let value ← combined entry (elements.get? key) item.appends item.value
        putItems name rest number (elements.set key value)
    | .row _ =>
      let number ← match item.subscript with
        | none => pure number
        | some subscript => do
          let n ← Reckoning.value subscript
          Reckoning.elementNumber name elements n
      let key := Bytes.decimal number
      let value ← combined entry (elements.get? key) item.appends item.value
      putItems name rest (number + 1) (elements.set key value)

/-- Gives an array elements, or adds them to those that it has. -/
def assignItems (name : Bytes) (appends : Bool) (items : List ListItem) : Step Unit := do
  let shell ← get
  let name := shell.follow 8 name
  let old := Reckoning.elementsOf shell name
  let start : Elements := match old with
    | .table _ => if appends then old else .table []
    | .row _ => if appends then old else .row []
  let items := match start with
    | .table _ => if (items.head?).any (·.subscript.isNone) then paired items else items
    | .row _ => items
  assignElements name (← putItems name items start.next start)

/-! ## Showing -/

def lettersOf (entry : Variable) : Bytes :=
  let put (letter : Char) (on : Bool) : Bytes := if on then [letter.toUInt8] else []
  let (row, table) := match entry.elements with
    | some (.row _) => (true, false)
    | some (.table _) => (false, true)
    | none => (false, false)
  put 'a' row ++ put 'A' table ++ put 'i' entry.integer ++ put 'n' entry.reference ++
    put 'r' entry.fixed ++ put 'x' entry.exported ++ put 'l' (entry.upper == some false) ++
    put 'u' (entry.upper == some true)

def listOf (elements : Elements) : Bytes :=
  let key (text : Bytes) : Bytes := if Quoted.needsQuotes text then Quoted.declared text else text
  let item (entry : Bytes × Bytes) : Bytes :=
    utf8 "[" ++ key entry.1 ++ utf8 "]=" ++ Quoted.declared entry.2
  let items := (elements.keys.zip elements.values).map item
  match elements with
  | .row _ => utf8 "(" ++ Bytes.join (utf8 " ") items ++ utf8 ")"
  | .table _ => utf8 "(" ++ items.flatMap (· ++ utf8 " ") ++ utf8 ")"

def valueText (quote : Bytes → Bytes) (entry : Variable) : Bytes :=
  match entry.elements, entry.value with
  | some elements, value =>
    if value.isNone && elements.values.isEmpty then [] else utf8 "=" ++ listOf elements
  | none, some value => utf8 "=" ++ quote value
  | none, none => []

def declarationOf (entry : Variable) : Bytes :=
  let letters := lettersOf entry
  utf8 "declare -" ++ (if letters.isEmpty then utf8 "-" else letters) ++ utf8 " " ++ entry.name ++
    valueText Quoted.declared entry

end Shell

end ShellCompletion
