import ShellCompletion.Command.Perl.Processes

/-!
# Functions of places, files and processes

The functions that work on variables, on files and on processes, or that run functions of the program.
-/
namespace ShellCompletion.Perl

namespace Running

/-! ## Arrays and tables -/

def isArray : Expr → Bool
  | .lexical sigil _ | .shared sigil _ | .follow sigil _ | .persistent sigil _ _ => sigil = .array
  | .arguments => true
  | .declare [(sigil, _)] _ => sigil = .array
  | .localize (.shared sigil _) => sigil = .array
  | _ => false

/-- The array that an argument stands for; without one, that of the function or of the program. -/
def arrayArgument (go : Evaluator) (arguments : List Expr) : Running Nat := do
  match arguments with
  | array :: _ => go.container .array array
  | [] =>
    if (← get).frames.isEmpty then sharedPlace .array (utf8 "main::ARGV") else return (← get).arguments

/-- Takes the first value of an array, or the last one. -/
def takeEnd (array : Nat) (first : Bool) : Running Scalar := do
  let cell ← onArray array fun items =>
    if first then (items[0]?, items.extract 1 items.size) else (items.back?, items.pop)
  match cell with
  | some address => scalarAt address
  | none => return .nothing

def addValues (array : Nat) (values : List Scalar) (first : Bool) : Running Scalar := do
  let cells ← values.mapM fun value => fresh (.scalar value)
  onArray array fun items => ((), if first then cells.toArray ++ items else cells.foldl Array.push items)
  return Scalar.ofNat (← sizeAt array)

/-- Takes a part out of an array, and puts values in its stead. -/
def splice (array : Nat) (offset length : Option Int) (values : List Scalar) : Running (List Item) := do
  let size : Int := (← sizeAt array : Nat)
  let offset : Int := offset.getD 0
  let start : Int := if offset < 0 then offset + size else min offset size
  if start < 0 then fail (utf8 "Modification of non-creatable array value attempted, subscript " ++
    Bytes.decimalInt offset)
  let ending : Int := match length with
    | none => size
    | some length => if length < 0 then max start (size + length) else min size (start + length)
  let cells ← values.mapM fun value => fresh (.scalar value)
  let taken ← onArray array fun items =>
    let taken := items.extract start.toNat ending.toNat
    (taken.toList, items.extract 0 start.toNat ++ cells.toArray ++ items.extract ending.toNat items.size)
  return taken.map .place

/-- The names of a table or the subscripts of an array. -/
def keysOf (go : Evaluator) (container : Expr) (want : Want) : Running (List Item) := do
  if isArray container then
    let size ← sizeAt (← go.container .array container)
    if want = .many then return (List.range size).map fun k => .value (Scalar.ofNat k)
    else return [.value (Scalar.ofNat size)]
  else
    let address ← go.container .table container
    onTable address fun table => ((), { table with left := none })
    let table ← tableAt address
    if want = .many then return table.entries.map fun entry => .value (.text entry.1)
    else return [.value (Scalar.ofNat table.size)]

/-- The values of a table or of an array. -/
def valuesOf (go : Evaluator) (container : Expr) (want : Want) : Running (List Item) := do
  let sigil := if isArray container then Sigil.array else .table
  let address ← go.container sigil container
  if want != .many then return [.value (Scalar.ofNat (← sizeAt address))]
  else if sigil = .array then arrayItems address
  else
    onTable address fun table => ((), { table with left := none })
    return (← tableAt address).entries.map fun entry => .place entry.2

/-- The next name of a table with its value. -/
def nextEntry (go : Evaluator) (container : Expr) (want : Want) : Running (List Item) := do
  if isArray container then
    let address ← go.container .array container
    let index := ((← get).places[address]?).getD 0
    match (← arrayAt address)[index]? with
    | some cell =>
      modify fun session => { session with places := session.places.insert address (index + 1) }
      return if want = .many then [.value (Scalar.ofNat index), .place cell] else [.value (Scalar.ofNat index)]
    | none =>
      modify fun session => { session with places := session.places.erase address }
      return if want = .many then [] else [.value .nothing]
  else
    let address ← go.container .table container
    let name ← onTable address fun table =>
      let left := match table.left with
        | some left => left
        | none => table.entries.map Prod.fst
      match left.dropWhile fun name => (table.find? name).isNone with
      | name :: rest => (some name, { table with left := some rest })
      | [] => (none, { table with left := none })
    match name with
    | some name =>
      let cell := ((← tableAt address).find? name).getD 0
      return if want = .many then [.value (.text name), .place cell] else [.value (.text name)]
    | none => return if want = .many then [] else [.value .nothing]

/-- Takes entries out of a table, or elements out of an array. -/
def deleteAt (go : Evaluator) (target : Expr) : Running (List Item) := do
  let fromTable (table : Expr) (keys : List Bytes) : Running (List Item) := do
    let address ← go.container .table table
    let items ← keys.mapM fun key => onTable address fun entries =>
      match entries.find? key with
      | some cell => (Item.place cell, entries.erase key)
      | none => (.value .nothing, entries)
    match table with
    | .shared _ name => if name = signalTable then noteSignals
    | _ => pure ()
    return items
  match target with
  | .entry table key => fromTable table [← keyText go key]
  | .entries table keys => fromTable table (← itemTexts (← go.items keys))
  | .localize (.entry table key) =>
    let value ← go.value (.entry table key)
    localizeOne go (.entry table key)
    let _ ← fromTable table [← keyText go key]
    return [.value value]
  | .element array index =>
    let address ← go.container .array array
    let index := (← go.value index).toInt
    let size := (← arrayAt address).size
    let place := if index < 0 then index + size else index
    match ← elementAt? address index with
    | none => return [.value .nothing]
    | some cell =>
      if place + 1 = size then onArray address fun items => ((), items.pop)
      else
        let empty ← fresh (.scalar .nothing)
        onArray address fun items => ((), items.setIfInBounds place.toNat empty)
      return [.place cell]
  | target => return [.value (← go.value target)]

/-- There is an entry, an element or a function. -/
def existsAt (go : Evaluator) (target : Expr) : Running Bool := do
  match target with
  | .entry table key =>
    let address ← go.container .table table
    return ((← tableAt address).find? (← keyText go key)).isSome
  | .element array index =>
    let address ← go.container .array array
    return (← elementAt? address (← go.value index).toInt).isSome
  | .call name _ _ => return (← calleeNamed? name).isSome
  | .callValue code _ => return (← calleeOf? (← go.value code)).isSome
  | target => return (← go.value target).isDefined

/-- What an expression stands for has a value. -/
def isDefinedAt (go : Evaluator) (target : Expr) : Running Bool := do
  match target with
  | .call name none none => return (← calleeNamed? name).isSome
  | .callValue code none => return (← calleeOf? (← go.value code)).isSome
  | target =>
    if isArray target then return 0 < (← sizeAt (← go.container .array target))
    else return (← go.value target).isDefined

/-- Takes the value away from what an expression stands for. -/
def undefine (go : Evaluator) (target : Expr) : Running Unit := do
  match target with
  | .lexical .table _ | .shared .table _ | .follow .table _ => refillTable (← go.container .table target) []
  | .call name _ _ => modify fun session => { session with shared := session.shared.erase (keyOf .code name) }
  | target =>
    if isArray target then fillArray (← go.container .array target) []
    else assign go target .nothing

/-! ## Texts -/

/-- Takes the ends of lines off texts, or their last bytes; says what was taken. -/
def cutEnds (go : Evaluator) (arguments : List Expr) (whole : Bool) : Running Scalar := do
  let separator ← sharedValue "/"
  let wanted ← textOf separator
  let mut count : Nat := 0
  let mut last : Bytes := []
  let items ← match arguments with
    | [argument] => if hasPlace argument then do pure [Item.place (← go.place argument)] else go.items argument
    | arguments => go.allItems arguments
  for item in items do
    if let .place address := item then
      let value ← scalarAt address
      if value.isDefined then
        let text ← textOf value
        if whole then
          if !text.isEmpty then
            last := [text.getLast?.getD 0]
            setScalar address (.text text.dropLast)
        else if separator.isDefined then
          let kept := if wanted.isEmpty then (text.reverse.dropWhile (· == 10)).reverse
            else if wanted.isSuffixOf text then text.take (text.length - wanted.length) else text
          if kept.length < text.length then
            count := count + (text.length - kept.length)
            setScalar address (.text kept)
  return if whole then .text last else Scalar.ofNat count

/-- A part of a text, which another text may take the place of. -/
def substr (go : Evaluator) (arguments : List Expr) : Running Scalar := do
  match arguments with
  | text :: offset :: rest =>
    let shown ← go.text text
    let offset := (← go.value offset).toInt
    let length ← match rest with
      | length :: _ => do
        let value ← go.value length
        pure (if value.isDefined then some value.toInt else none)
      | [] => pure none
    match partOf? shown.length offset length with
    | none =>
      if 2 ≤ rest.length then fail (utf8 "substr outside of string")
      return .nothing
    | some (start, count) =>
      let part := (shown.drop start).take count
      match rest with
      | _ :: replacement :: _ =>
        let new ← go.text replacement
        assignTo go text (.text (shown.take start ++ new ++ shown.drop (start + count)))
      | _ => pure ()
      return .text part
  | _ => return .nothing

/-! ## Handles -/

def bareName? : Expr → Option Bytes
  | .bareHandle name => some name
  | .call _ none (some (.text name)) => some name
  | .constant (.text name) => some name
  | .localize (.bareHandle name) => some name
  | _ => none

def handleOfExpr? (go : Evaluator) (expr : Expr) : Running (Option Nat) := do
  let package := (← get).package
  match bareName? expr with
  | some name => namedHandle package (if name.head? = some '*'.toUInt8 then name.drop 1 else name)
  | none => handleOf? package (← go.value expr)

def newHandle (go : Evaluator) (expr : Expr) : Running Nat := do
  match expr with
  | .localize inner => localize go inner
  | _ => pure ()
  match bareName? expr with
  | some name =>
    match ← namedHandle (← get).package name with
    | some number => return number
    | none =>
      let number ← addHandle { name }
      let full := Reading.qualified (← get).package name
      modify fun session => { session with handleNames := session.handleNames.insert full number }
      return number
  | none =>
    let address ← match expr with
      | .localize inner => go.place inner
      | _ => go.place expr
    let value ← scalarAt address
    let package := (← get).package
    match ← (if value.isDefined then handleOf? package value else pure none) with
    | some number => return number
    | none =>
      let number ← addHandle { name := [] }
      setScalar address (.handle number)
      return number

def openAny (go : Evaluator) (arguments : List Expr) : Running Scalar := do
  match arguments with
  | target :: mode :: targets =>
    let package := (← get).package
    let mode ← go.text mode
    let values ← match targets with
      | [one] => do
        match bareName? one with
        | some name =>
          match one with
          | .constant _ => pure [Scalar.text name]
          | _ => pure (match ← namedHandle package name with
            | some number => [Scalar.handle number]
            | none => [Scalar.text name])
        | none => go.allValues [one]
      | targets => go.allValues targets
    let number ← newHandle go target
    openHandle number package mode values
  | _ => return .nothing

/-- The next line of a handle, where signals may come before it. -/
def nextLine (go : Evaluator) (number : Nat) : Running (Option Bytes) := do
  if (← get).catches then
    let handle ← handleAt number
    if let some inlet := handle.inlet then
      if inlet.buffered.isEmpty && !inlet.ended then
        waitMeeting go (·.canRead inlet.descriptor) manyRounds
  readLine number

/-- The handle of the file among the arguments that is read now, or of the next one. `fuel` bounds the
    files. -/
def currentFile : (fuel : Nat) → Running (Option Nat)
  | 0 => return none
  | fuel + 1 => do
    let arguments ← sharedPlace .array (utf8 "main::ARGV")
    let number ← match ← namedHandle (utf8 "main") (utf8 "ARGV") with
      | some number => pure number
      | none => do
        let number ← addHandle { name := [] }
        modify fun session => { session with
          handleNames := session.handleNames.insert (utf8 "main::ARGV") number }
        pure number
    let openNext : Running (Option Nat) := do
      let value ← takeEnd arguments true
      let path ← textOf value
      setShared "ARGV" value
      let lines := (← handleAt number).lines
      let opened ← if path = utf8 "-" then openSame number 0 true else openFile number (utf8 "<") path
      match opened with
      | .ok handle =>
        setHandle number { handle with name := [], lines }
        modify ({ · with reading := some (some number) })
        match (← get).inPlace with
        | none => pure ()
        | some ending =>
          let output ← match ← namedHandle (utf8 "main") (utf8 "ARGVOUT") with
            | some output => pure output
            | none => do
              let output ← addHandle { name := utf8 "ARGVOUT" }
              modify fun session => { session with
                handleNames := session.handleNames.insert (utf8 "main::ARGVOUT") output }
              pure output
          if (← handleAt output).isOpen then let _ ← closeHandle output
          let inlet ← act (readRest ((handle.inlet).getD { descriptor := noDescriptor, ended := true }))
          setHandle number { handle with name := [], lines, inlet := some inlet }
          if !ending.isEmpty then
            let goal := if ending.contains '*'.toUInt8
              then ending.flatMap fun c => if c = '*'.toUInt8 then path else [c]
              else path ++ ending
            let _ ← transfer path goal false
          match ← openFile output (utf8 ">") path with
          | .ok handle => setHandle output { handle with name := utf8 "ARGVOUT" }
          | .error _ => pure ()
          modify ({ · with selected := output })
        return some number
      | .error cause =>
        setFault (causeNumber cause)
        let _ ← write 2 (utf8 "Can't open " ++ path ++ utf8 ": " ++ utf8 cause.message ++ (← whereText))
        currentFile fuel
    match (← get).reading with
    | none =>
      if (← sizeAt arguments) = 0 then
        let _ ← addValues arguments [.text (utf8 "-")] true
      openNext
    | some (some number) => return some number
    | some none =>
      if (← sizeAt arguments) = 0 then
        modify ({ · with reading := none })
        match ← namedHandle (utf8 "main") (utf8 "ARGVOUT") with
        | some output =>
          if (← get).inPlace.isSome then
            if (← handleAt output).isOpen then let _ ← closeHandle output
            modify ({ · with selected := 1 })
        | none => pure ()
        return none
      else openNext

/-- The next line of the files that are arguments. `fuel` bounds the files. -/
def nextFileLine (go : Evaluator) : (fuel : Nat) → Running (Option Bytes)
  | 0 => return none
  | fuel + 1 => do
    match ← currentFile manyRounds with
    | none => return none
    | some number =>
      match ← nextLine go number with
      | some line => return some line
      | none =>
        modify ({ · with reading := some none })
        nextFileLine go fuel

/-- All lines of the files that are arguments. `fuel` bounds them. -/
def allFileLines (go : Evaluator) : (fuel : Nat) → Running (List Bytes)
  | 0 => return []
  | fuel + 1 => do
    match ← nextFileLine go manyRounds with
    | none => return []
    | some line => return line :: (← allFileLines go fuel)

/-- The files that are arguments have come to their end: all of them, or the one that is read now. -/
def filesAtEnd (all : Bool) : Running Bool := do
  match (← get).reading with
  | some (some number) =>
    if !(← atEnd number) then return false
    if all then return (← sizeAt (← sharedPlace .array (utf8 "main::ARGV"))) = 0 else return true
  | _ =>
    if all then
      match ← currentFile manyRounds with
      | some number => atEnd number
      | none => return true
    else return true

/-- Reads bytes into a variable, at an offset. -/
def readInto (go : Evaluator) (arguments : List Expr) : Running Scalar := do
  match arguments with
  | handle :: target :: count :: rest =>
    match ← handleOfExpr? go handle with
    | none =>
      setFault 9
      return .nothing
    | some number =>
      let count := (← go.value count).toNat
      let offset ← match rest with
        | offset :: _ => do pure (← go.value offset).toInt
        | [] => pure 0
      if !(← handleAt number).isOpen then
        setFault 9
        return .nothing
      let bytes ← readBytes number (count + 2) count
      let address ← go.place target
      let old ← textOf (← scalarAt address)
      let start := if offset < 0 then (old.length + offset).toNat else offset.toNat
      let base := if rest.isEmpty then [] else old.take start ++ List.replicate (start - old.length) 0
      setScalar address (.text (base ++ bytes))
      return Scalar.ofNat bytes.length
  | _ => return .nothing

def printedText (values : List Scalar) : Running Bytes := do
  let texts ← values.mapM textOf
  let gap ← textOf (← sharedValue ",")
  let ending ← textOf (← sharedValue "\\")
  return Bytes.join gap texts ++ ending

def outputHandle (go : Evaluator) (handle : Option Expr) : Running (Option Nat) := do
  match handle with
  | none => return some (← get).selected
  | some expr => handleOfExpr? go expr

/-! ## Functions that run functions -/

/-- Whether a function of the program says yes to values, one by one, as they become the topic. -/
def firstThat (go : Evaluator) (callee : Callee) (wanted : Bool) : List Item → Running (Option Item)
  | [] => return none
  | item :: rest => do
    point topicKey (← itemPlace item)
    let found ← lastValue (← go (.call callee (some []) .one))
    if found.isTrue = wanted then return some item else firstThat go callee wanted rest

/-- The keys of the two variables that functions of two values know. -/
def pairKeys : Running (Bytes × Bytes) := do
  let package := (← get).package
  return (keyOf .scalar (package ++ utf8 "::a"), keyOf .scalar (package ++ utf8 "::b"))

/-- Runs something with cells of their own for the two variables that functions of two values know. -/
def withPair {α : Type} (body : Nat → Nat → Running α) : Running α := do
  let (first, second) ← pairKeys
  keepingName first (keepingName second do
    let a ← fresh (.scalar .nothing)
    let b ← fresh (.scalar .nothing)
    point first a
    point second b
    body a b)

/-- The function that an argument stands for. -/
def calleeArgument (go : Evaluator) (expr : Expr) : Running Callee := do
  match ← calleeOf? (← go.value expr) with
  | some callee => return callee
  | none => fail (utf8 "Not a subroutine reference")

def withFunction (go : Evaluator) (f : Function) (arguments : List Expr) (want : Want) : Running (List Item) := do
  let callee ← calleeArgument go (arguments.headD (.list []))
  let items ← go.allItems (arguments.drop 1)
  let truth (b : Bool) : List Item := [.value (Scalar.ofBool b)]
  match f with
  | .first => keepingName topicKey do return [(← firstThat go callee true items).getD (.value .nothing)]
  | .any => keepingName topicKey do return truth (← firstThat go callee true items).isSome
  | .all => keepingName topicKey do return truth (← firstThat go callee false items).isNone
  | .none_ => keepingName topicKey do return truth (← firstThat go callee true items).isNone
  | .reduce =>
    match items with
    | [] => return [.value .nothing]
    | first :: rest => withPair fun a b => do
      let mut value ← itemValue first
      for item in rest do
        setScalar a value
        setScalar b (← itemValue item)
        value ← lastValue (← go (.call callee (some []) .one))
      return [.value value]
  | _ => withPair fun a b => do
    let mut found : List (List Item) := []
    for (x, y) in inPairs items do
      setScalar a (← itemValue x)
      setScalar b (← itemValue y)
      found := (← settledItems (← go (.call callee (some []) .many))) :: found
    let all := found.reverse.flatten
    return if want = .many then all else [.value (Scalar.ofNat all.length)]

end Running

end ShellCompletion.Perl
