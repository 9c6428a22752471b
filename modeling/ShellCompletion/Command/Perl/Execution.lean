import ShellCompletion.Command.Perl.Applying

/-!
# Running Perl programs

The values of expressions, and what statements do. A program is run by an evaluator that asks itself for
the parts; none of what it is asked for takes more than some fuel.
-/
namespace ShellCompletion.Perl

namespace Running

/-! ## Expressions with one value -/

def interpolated (go : Evaluator) (parts : List Expr) : Running Scalar := do
  let texts ← parts.mapM go.text
  return .text texts.flatten

/-- The value of an element or an entry, which need not be there. -/
def partValue (go : Evaluator) (expr : Expr) : Running Scalar := do
  match expr with
  | .element array index =>
    let address ← go.container .array array
    match ← elementAt? address (← go.value index).toInt with
    | some cell => scalarAt cell
    | none => return .nothing
  | .entry table key =>
    let address ← go.container .table table
    match (← tableAt address).find? (← keyText go key) with
    | some cell => scalarAt cell
    | none => return .nothing
  | _ => return .nothing

def referenceTo (go : Evaluator) (body : Expr) : Running Scalar := do
  match body with
  | .lexical .array _ | .shared .array _ | .follow .array _ | .arguments =>
    return .reference (← go.container .array body)
  | .lexical .table _ | .shared .table _ | .follow .table _ => return .reference (← go.container .table body)
  | .declare [(sigil, slot)] _ => return .reference (← declareSlot sigil slot)
  | .call name none none => return .reference (← sharedPlace .code name)
  | .callValue code none =>
    match ← go.value code with
    | .reference address => return .reference address
    | value => return .reference (← sharedPlace .code (Reading.qualified (← get).package (← textOf value)))
  | .bareHandle name =>
    match ← namedHandle (← get).package name with
    | some number => return .handle number
    | none => return .text (utf8 "*main::" ++ name)
  | .follow .handle _ => go.value body
  | .assign target _ =>
    go.carryOut body
    return .reference (← go.place (settledTarget target))
  | .newCode _ => return .reference (← fresh (.scalar (← go.value body)))
  | body => return .reference (← go.place body)

/-- True from one condition to another one. -/
def flipFlop (go : Evaluator) (first last : Expr) (number : Nat) (exclusive : Bool) : Running Scalar := do
  let holds (expr : Expr) : Running Bool := do
    match expr with
    | .constant value =>
      let line ← readShared (utf8 "main::.")
      return value.order line == some .eq
    | expr => return (← go.value expr).isTrue
  let note (count : Option Nat) : Running Unit := modify fun session =>
    let others := session.ranges.filter (·.1 != number)
    { session with ranges := match count with
      | some count => (number, count) :: others
      | none => others }
  match (← get).ranges.lookup number with
  | none =>
    if ← holds first then
      if !exclusive then
        if ← holds last then return .text (utf8 "1E0")
      note (some 1)
      return .int 1
    else return Scalar.ofBool false
  | some count =>
    if ← holds last then
      note none
      return .text (Bytes.decimal (count + 1) ++ utf8 "E0")
    else
      note (some (count + 1))
      return Scalar.ofNat (count + 1)

def valueOf (go : Evaluator) (expr : Expr) : Running Scalar := do
  match expr with
  | .constant value => return value
  | .interpolated parts => interpolated go parts
  | .joined list =>
    let texts ← itemTexts (← go.items list)
    return .text (Bytes.join (← textOf (← sharedValue "\"")) texts)
  | .lexical .scalar slot => scalarAt (← slotPlace .scalar slot)
  | .shared .scalar name => readShared name
  | .lexical sigil _ | .shared sigil _ => return Scalar.ofNat (← sizeAt (← go.container sigil expr))
  | .capture number => groupValue number
  | .around after => aroundValue after
  | .arguments => return Scalar.ofNat (← sizeAt (← get).arguments)
  | .follow .scalar body =>
    if hasPlace body then scalarAt (← go.place expr)
    else scalarAt (← targetOf .scalar (← go.value body))
  | .follow .handle body =>
    match ← go.value body with
    | .handle number => return .handle number
    | value =>
      match ← handleOf? (← get).package value with
      | some number => return .handle number
      | none => return .text (utf8 "*main::" ++ (← textOf value))
  | .follow sigil _ => return Scalar.ofNat (← sizeAt (← go.container sigil expr))
  | .element .. | .entry .. => partValue go expr
  | .lastIndex array => return .int ((← sizeAt (← go.container .array array) : Nat) - 1)
  | .declare [(.scalar, slot)] _ => scalarAt (← declareSlot .scalar slot)
  | .persistent .scalar .. => scalarAt (← go.place expr)
  | .localize target =>
    localize go target
    return .nothing
  | .assign target value =>
    let value ← go.value value
    assign go target value
    return value
  | .assignList target value => return Scalar.ofNat (← assignList go target value)
  | .update operator target value => update go operator target value
  | .updateIf connective target value =>
    let old ← go.value target
    if decides connective old then return old
    else
      let new ← go.value value
      assign go (settledTarget target) new
      return new
  | .step target up after => step go target up after
  | .binary operator a b =>
    let first ← go.value a
    combined operator first (← go.value b)
  | .compare texts wanted a b =>
    let first ← go.value a
    compared texts wanted first (← go.value b)
  | .connect connective a b =>
    let first ← go.value a
    if decides connective first then return first else go.value b
  | .exclusive a b =>
    let first ← go.value a
    return Scalar.ofBool (first.isTrue != (← go.value b).isTrue)
  | .not body => return Scalar.ofBool (!(← go.value body).isTrue)
  | .negate body => return (← go.value body).negate
  | .complement body =>
    match ← go.value body with
    | .text text =>
      return if isNumeric text then Scalar.ofNat (largestInt.toNat - (Scalar.text text).toWord)
        else .text (text.map fun c => ~~~c)
    | value => return Scalar.ofNat (largestInt.toNat - value.toWord)
  | .choice condition yes no => if (← go.value condition).isTrue then go.value yes else go.value no
  | .range first last number exclusive => flipFlop go first last number exclusive
  | .reference body =>
    match body with
    | .list parts =>
      match parts.getLast? with
      | some part => referenceTo go part
      | none => return .nothing
    | body => referenceTo go body
  | .newArray parts => return .reference (← newArray (← go.allValues parts))
  | .newTable parts =>
    let address ← fresh (.table {})
    fillTable address (← go.allValues parts)
    return .reference address
  | .newCode code =>
    let scope := (← get).scope
    return .reference (← fresh (.code (.defined (utf8 "main::__ANON__") code scope)))
  | .print line handle arguments =>
    let values ← go.allValues arguments
    let text ← printedText values
    match ← outputHandle go handle with
    | some number => return Scalar.ofBool (← write number (if line then text ++ [10] else text))
    | none =>
      setFault 9
      return Scalar.ofBool false
  | .printFormat handle arguments =>
    let values ← go.allValues arguments
    let shown ← (values.drop 1).mapM fun value => do return (value, ← textOf value)
    let text := formatAll (← textOf (values.headD .nothing)) shown
    match ← outputHandle go handle with
    | some number => return Scalar.ofBool (← write number text)
    | none =>
      setFault 9
      return Scalar.ofBool false
  | .isMatch target pattern flags wanted =>
    return Scalar.ofBool ((← hasMatch go target pattern flags) == wanted)
  | .substitute target pattern replacement flags => substitute go target pattern replacement flags
  | .translate target translation => translateIn go target translation
  | .quotePattern pattern flags => quotedPattern go pattern flags
  | .readLine handle =>
    if bareName? handle == some (utf8 "ARGV") then
      match ← nextFileLine go manyRounds with
      | some line => return .text line
      | none => return .nothing
    else match ← handleOfExpr? go handle with
      | none => return .nothing
      | some number =>
        match ← nextLine go number with
        | some line => return .text line
        | none =>
          let handle ← handleAt number
          let wantsAll := !(← sharedValue "/").isDefined
          if !handle.inlet.isSome || handle.lines != 0 || !wantsAll then return .nothing
          setHandle number { handle with lines := 1 }
          return .text []
  | .readFiles =>
    match ← nextFileLine go manyRounds with
    | some line => return .text line
    | none => return .nothing
  | .glob pattern =>
    let text ← go.text pattern
    let session ← get
    let note (left : Option (List Bytes)) : Running Unit := modify fun session =>
      let others := session.globs.filter (·.1 != text)
      { session with globs := match left with
        | some left => (text, left) :: others
        | none => others }
    let left ← match session.globs.lookup text with
      | some left => pure left
      | none => do
        let home := ((← environment).get? (utf8 "HOME")).getD []
        let here := session.call.directory
        act (Act.look fun machine => globbed machine here home text)
    match left with
    | path :: rest =>
      note (some rest)
      return .text path
    | [] =>
      note none
      return .nothing
  | .fileTest letter file =>
    let value ← match bareName? file with
      | some name => pure (Scalar.text name)
      | none => go.value file
    testFile (← get).package letter value
  | .output command =>
    match ← outputOf (← go.text command) with
    | some text => return .text text
    | none => return .nothing
  | .leave label => throw (.leave label)
  | .again label => throw (.again label)
  | .redo label => throw (.redo label)
  | .bareHandle name =>
    match ← namedHandle (← get).package name with
    | some number => return .handle number
    | none => return .text (utf8 "*main::" ++ name)
  | .line => return Scalar.ofNat (← get).line
  | expr => lastValue (← go (.items .one expr))

/-! ## Expressions with several values -/

def sorted (go : Evaluator) (order : Option Expr) (items : List Item) : Running (List Item) := do
  let items ← settledItems items
  let fuel := items.length + 1
  match order with
  | none =>
    let isLess (a b : Item) : Running Bool := do
      let first ← textOf (← itemValue a)
      return textOrder first (← textOf (← itemValue b)) == .lt
    inOrder isLess fuel items
  | some order =>
    let ask : Running Scalar ← match order with
      | .newCode (.mk body _) => pure (do lastValue (← go (.block .one body)))
      | .reference (.call name none none) => do
        match ← calleeNamed? name with
        | some callee => pure (do lastValue (← go (.call callee (some []) .one)))
        | none => fail (utf8 "Undefined subroutine in sort")
      | order => do
        match ← calleeOf? (← go.value order) with
        | some callee => pure (do lastValue (← go (.call callee (some []) .one)))
        | none => fail (utf8 "Undefined subroutine in sort")
    withPair fun a b =>
      let isLess (x y : Item) : Running Bool := do
        setScalar a (← itemValue x)
        setScalar b (← itemValue y)
        return (← ask).toFloat < 0
      inOrder isLess fuel items

/-- What is made of values, or those of them that are selected, one by one as they become the topic. -/
def eachOf (go : Evaluator) (selects : Bool) (body : List Stmt) : List Item → (found : List (List Item)) →
    Running (List Item)
  | [], found => return found.reverse.flatten
  | item :: rest, found => do
    pause
    let address ← itemPlace item
    point topicKey address
    if selects then
      let value ← lastValue (← go (.block .one body))
      eachOf go selects body rest (if value.isTrue then [item] :: found else found)
    else
      let made ← settledItems (← go (.block .many body))
      eachOf go selects body rest (made :: found)

/-- Several values as far as they are wanted. -/
def asWanted (want : Want) (items : List Item) : Running (List Item) := do
  if want = .many then return items else return [.value (← lastValue items)]

/-- How many values there are, where one is wanted. -/
def orCount (want : Want) (items : List Item) : List Item :=
  if want = .many then items else [.value (Scalar.ofNat items.length)]

/-- Runs something, whose faults end nothing else. -/
def attempted (want : Want) (body : Running (List Item)) : Running (List Item) := do
  let before ← modifyGet fun session => (session.surroundings, session)
  try
    let items ← (do
      try body
      catch jump => match jump with
        | .giveBack items => return items
        | jump => throw jump)
    let items ← settledItems items
    setShared "@" (.text [])
    return items
  catch jump =>
    match jump with
    | .death value =>
      returnTo before
      setShared "@" value
      return if want = .many then [] else [.value .nothing]
    | jump => throw jump

/-- Runs a text as a program; the statements that come first are done by `prepare`. -/
def runText (go : Evaluator) (prepare : List Stmt → Running Unit) (want : Want) (file text : Bytes)
    (scope : List (Bytes × Nat)) (package : Bytes) : Running (List Item) := do
  match read file text scope (← get).slots package with
  | .error fault =>
    let ending : Bytes := if fault.message.getLast? = some 10 then [] else [10]
    throw (.death (.text (fault.message ++ ending)))
  | .ok program =>
    modify ({ · with slots := program.slots })
    prepare program.body
    go (.block want program.body)

def runFile (go : Evaluator) (prepare : List Stmt → Running Unit) (want : Want) (name : Bytes) (needed : Bool) :
    Running (List Item) := do
  let loaded ← sharedPlace .table (utf8 "main::INC")
  if needed && ((← tableAt loaded).find? name).isSome then return [.value (.int 1)]
  let places ← itemTexts (← arrayItems (← sharedPlace .array (utf8 "main::INC")))
  let isPlain := name.head? = some Path.slash || (utf8 "./").isPrefixOf name || (utf8 "../").isPrefixOf name
  let paths := if isPlain then [name] else places.map fun place => place ++ Path.slash :: name
  let here ← directory
  let found ← act (Act.look fun machine => paths.findSome? fun path =>
    match machine.files.find? here path with
    | .ok (.file content _) => some (path, content)
    | _ => none)
  match found with
  | none =>
    setFault 2
    if !needed then return [.value .nothing]
    let module := name.take (name.length - 3)
    let shown := (Bytes.fields Path.slash module).filter (!·.isEmpty)
    let hint : Bytes := if (utf8 ".pm").isSuffixOf name
      then utf8 " (you may need to install the " ++ Bytes.join (utf8 "::") shown ++ utf8 " module)" else []
    let listed : Bytes := if isPlain then []
      else utf8 " in @INC" ++ hint ++ utf8 " (@INC entries checked: " ++ Bytes.join [32] places ++ utf8 ")"
    fail (utf8 "Can't locate " ++ name ++ listed)
  | some (path, content) =>
    let cell ← fresh (.scalar (.text path))
    onTable loaded fun table => ((), table.insert name cell)
    let before ← modifyGet fun session => ((session.surroundings, session.file), session)
    modify ({ · with file := path, scope := [], package := utf8 "main" })
    let leave : Running Unit := do
      returnTo before.1
      modify ({ · with file := before.2 })
    let result ← (try
        let items ← (do
          try runText go prepare want path content [] (utf8 "main")
          catch jump => match jump with
            | .giveBack items => return items
            | jump => throw jump)
        settledItems items
      catch jump =>
        leave
        throw jump)
    leave
    if needed && !(← lastValue result).isTrue then
      fail (name ++ utf8 " did not return a true value")
    return result

def itemsOf (go : Evaluator) (prepare : List Stmt → Running Unit) (want : Want) (expr : Expr) :
    Running (List Item) := do
  let many := want = .many
  match expr with
  | .list parts =>
    if many then go.allItems parts
    else
      match parts.reverse with
      | [] => return []
      | last :: others =>
        others.reverse.forM go.carryOut
        go (.items want last)
  | .lexical .array _ | .shared .array _ | .follow .array _ | .arguments | .persistent .array .. =>
    if many then arrayItems (← go.container .array expr) else return [.value (← go.value expr)]
  | .lexical .table _ | .shared .table _ | .follow .table _ | .persistent .table .. =>
    if many then tableItems (← go.container .table expr) else return [.value (← go.value expr)]
  | .declare slots _ =>
    let all ← slots.mapM fun (sigil, slot) => do
      let address ← declareSlot sigil slot
      return if sigil = .scalar then [Item.place address] else []
    return all.flatten
  | .slice array subscripts =>
    let address ← go.container .array array
    let items ← (← go.allValues [subscripts]).mapM fun index => do
      match ← elementAt? address index.toInt with
      | some cell => return Item.place cell
      | none => return .value .nothing
    asWanted want items
  | .entries table keys =>
    let address ← go.container .table table
    let entries ← tableAt address
    let items := (← itemTexts (← go.items keys)).map fun key =>
      match entries.find? key with
      | some cell => Item.place cell
      | none => .value .nothing
    asWanted want items
  | .pairs container keys =>
    let keys ← go.allValues [keys]
    let items ← keys.mapM fun key => do
      let cell ← if isArray container then elementAt? (← go.container .array container) key.toInt
        else do pure ((← tableAt (← go.container .table container)).find? (← textOf key))
      return [Item.value key, match cell with
        | some cell => .place cell
        | none => .value .nothing]
    asWanted want items.flatten
  | .pick list subscripts =>
    let items := (← go.items list).toArray
    let found := (← go.allValues [subscripts]).map fun index =>
      let n : Int := index.toInt
      let place : Int := if n < 0 then n + items.size else n
      if place < 0 then Item.value .nothing else (items[place.toNat]?).getD (.value .nothing)
    if items.isEmpty && many then return [] else asWanted want found
  | .localize target =>
    localize go target
    if many then return [.value .nothing] else return []
  | .assign target _ =>
    if many then
      go.carryOut expr
      return [.place (← go.place (settledTarget target))]
    else return [.value (← valueOf go expr)]
  | .assignList target value =>
    let count ← assignList go target value
    if many then go.items (settledTarget target) else return [.value (Scalar.ofNat count)]
  | .connect connective a b =>
    let first ← go.value a
    if decides connective first then return [.value first] else go (.items want b)
  | .choice condition yes no => if (← go.value condition).isTrue then go (.items want yes) else go (.items want no)
  | .range first last _ _ =>
    if many then
      let start ← go.value first
      return (← rangeOf start (← go.value last)).map .value
    else return [.value (← valueOf go expr)]
  | .repeatList list count =>
    let items ← settledItems (← go.items list)
    let count := (← go.value count).toNat
    if many then return (List.replicate count items).flatten
    else return [.value (.text (repeatedText (← textOf (← lastValue items)) count))]
  | .reference (.list parts) =>
    if many then
      let parts := match parts with
        | [.lexical .array slot] => [Expr.lexical .array slot]
        | parts => parts
      match parts with
      | [.lexical .array slot] =>
        (← arrayItems (← slotPlace .array slot)).mapM fun item => do return .value (.reference (← itemPlace item))
      | parts => parts.mapM fun part => do return .value (← referenceTo go part)
    else return [.value (← valueOf go expr)]
  | .call name arguments fallback => callNamed go name arguments fallback want
  | .callValue code arguments =>
    match code with
    | .follow .code body => callValue go (← go.value body) arguments want
    | code => callValue go (← go.value code) arguments want
  | .method object name dynamic arguments package =>
    let value ← match bareName? object with
      | some name => pure (Scalar.text name)
      | none => go.value object
    let dynamic ← match dynamic with
      | some expr => do pure (some (← go.value expr))
      | none => pure none
    let items ← go.allItems arguments
    callMethod go value name dynamic items package want
  | .function f arguments => applied go f arguments want
  | .sort order list => return orCount want (← sorted go order (← go.items list))
  | .each selects body list =>
    let items ← go.items list
    return orCount want (← keepingName topicKey (eachOf go selects body items []))
  | .isMatch target pattern flags wanted =>
    if many && wanted then matchedItems go target pattern flags else return [.value (← valueOf go expr)]
  | .readLine handle =>
    if many then
      if bareName? handle == some (utf8 "ARGV") then
        return (← allFileLines go manyRounds).map fun line => .value (.text line)
      else match ← handleOfExpr? go handle with
        | none => return []
        | some number => return (← readLines number manyRounds).map fun line => .value (.text line)
    else return [.value (← valueOf go expr)]
  | .readFiles =>
    if many then return (← allFileLines go manyRounds).map fun line => .value (.text line)
    else return [.value (← valueOf go expr)]
  | .glob pattern =>
    if many then
      let text ← go.text pattern
      let home := ((← environment).get? (utf8 "HOME")).getD []
      let here ← directory
      let paths ← act (Act.look fun machine => globbed machine here home text)
      return paths.map fun path => .value (.text path)
    else return [.value (← valueOf go expr)]
  | .output command =>
    if many then
      match ← outputOf (← go.text command) with
      | some text => return (linesWithEnds text).map fun line => .value (.text line)
      | none => return []
    else return [.value (← valueOf go expr)]
  | .block body => go (.block want body)
  | .attempt body => attempted want (go (.block want body))
  | .evaluate text scope package =>
    let text ← go.text text
    let number := (← get).texts + 1
    modify ({ · with texts := number })
    let file := (← get).file
    let line := (← get).line
    let name := utf8 "(eval " ++ Bytes.decimal number ++ utf8 ")"
    modify ({ · with file := name })
    let result ← (try
        attempted want (runText go prepare want name text scope package)
      catch jump =>
        modify ({ · with file, line })
        throw jump)
    modify ({ · with file, line })
    return result
  | .runFile name needed => runFile go prepare want (← go.text name) needed
  | .giveBack value =>
    let wanted := (← get).want
    match value with
    | none => throw (.giveBack (if wanted = .many then [] else [.value .nothing]))
    | some value =>
      let items ← go (.items wanted value)
      throw (.giveBack items)
  | .shared .scalar name =>
    if many && (signOf? name).isNone then return [.place (← sharedPlace .scalar name)]
    else return [.value (← valueOf go expr)]
  | .lexical .scalar slot =>
    if many then return [.place (← slotPlace .scalar slot)] else return [.value (← valueOf go expr)]
  | .element array index =>
    if many then
      let address ← go.container .array array
      match ← elementAt? address (← go.value index).toInt with
      | some cell => return [.place cell]
      | none => return [.value .nothing]
    else return [.value (← valueOf go expr)]
  | .entry table key =>
    if many then
      let address ← go.container .table table
      match (← tableAt address).find? (← keyText go key) with
      | some cell => return [.place cell]
      | none => return [.value .nothing]
    else return [.value (← valueOf go expr)]
  | .follow .scalar _ | .update .. | .substitute .. | .persistent .. =>
    if many then
      match expr with
      | .substitute .. => return [.value (← valueOf go expr)]
      | expr => return [.place (← go.place expr)]
    else return [.value (← valueOf go expr)]
  | expr => return [.value (← valueOf go expr)]

/-! ## Statements -/

/-- Notes which line runs, and meets the signals that have come. -/
def atLine (go : Evaluator) (line : Nat) : Running Unit := do
  modify ({ · with line })
  meetPending go

/-- The first body whose condition holds, or the last value of a condition. -/
def chosen (go : Evaluator) (otherwise : List Stmt) : List (Expr × List Stmt) → (last : Scalar) →
    Running (Option (List Stmt) × Scalar)
  | [], last => return (if otherwise.isEmpty then none else some otherwise, last)
  | (condition, body) :: rest, _ => do
    let value ← go.value condition
    if value.isTrue then return (some body, value) else chosen go otherwise rest value

/-- Goes through the values of a loop, as the holder becomes each of them. -/
def runForEach (go : Evaluator) (label : Option Bytes) (holder : Expr) (list : Expr) (body : List Stmt) :
    Running Unit := do
  let items ← go.items list
  match holder with
  | .shared .scalar name =>
    let key := keyOf .scalar name
    keepingName key (forEach label (fun item => do
      point key (← itemPlace item)
      go.run body) items)
  | .lexical _ slot =>
    forEach label (fun item => inScope do
      let address ← itemPlace item
      modify fun session => { session with scope := (slot, address) :: session.scope }
      go.run body) items
  | holder =>
    forEach label (fun item => do
      assign go holder (← itemValue item)
      go.run body) items

/-- Runs a block once, or again as long as it asks for that. `fuel` bounds how often. -/
def runOnce (go : Evaluator) (label : Option Bytes) (body : List Stmt) : (fuel : Nat) → Running Unit
  | 0 => hang
  | fuel + 1 => do
    match ← round label (go.run body) with
    | .repeated =>
      pause
      runOnce go label body fuel
    | _ => return

def runStatement (go : Evaluator) (stmt : Stmt) : Running Unit := do
  match stmt with
  | .evaluate line value =>
    atLine go line
    go.carryOut value
  | .choose line arms otherwise =>
    atLine go line
    inScope do
      match ← chosen go otherwise arms .nothing with
      | (some body, _) => go.run body
      | (none, _) => return
  | .loop line label condition wanted body next =>
    atLine go line
    let test : Running Bool := match condition with
      | none => return true
      | some condition => do
        modify ({ · with line })
        return (← go.value condition).isTrue == wanted
    inScope (whileTrue label test (go.run body) (if next.isEmpty then return () else go.run next) manyRounds)
  | .loopAfter line condition wanted body =>
    atLine go line
    go.run body
    whileTrue none (do return (← go.value condition).isTrue == wanted) (go.run body) (return ()) manyRounds
  | .count line label first condition next body =>
    atLine go line
    inScope do
      if let some first := first then go.carryOut first
      let test : Running Bool := match condition with
        | none => return true
        | some condition => do return (← go.value condition).isTrue
      let goOn : Running Unit := match next with
        | none => return ()
        | some next => go.carryOut next
      whileTrue label test (go.run body) goOn manyRounds
  | .forEach line label holder _ list body =>
    atLine go line
    inScope (runForEach go label holder list body)
  | .block label body => runOnce go label body manyRounds
  | .define .. | .early _ | .late _ => return

/-- Runs statements; the value of the last one is the result. -/
def runStatements (go : Evaluator) (want : Want) : List Stmt → Running (List Item)
  | [] => return []
  | [.evaluate line value] => do
    atLine go line
    go (.items want value)
  | [.choose line arms otherwise] => do
    atLine go line
    inScope do
      match ← chosen go otherwise arms .nothing with
      | (some body, _) => go (.block want body)
      | (none, value) => return if want = .none then [] else [.value value]
  | [.block none body] => do
    try go (.block want body)
    catch jump => match jump with
      | .leave none | .again none => return []
      | jump => throw jump
  | stmt :: rest => do
    runStatement go stmt
    runStatements go want rest

/-- Does what a program wants to be done first: makes its functions known, and runs what is to come
    before everything else. `fuel` bounds how deep it is nested. -/
def prepareAll (go : Evaluator) : (fuel : Nat) → List Stmt → Running Unit
  | 0, _ => return
  | _, [] => return
  | fuel + 1, stmt :: rest => do
    match stmt with
    | .define name code =>
      let scope := (← get).scope
      defineFunction name (.defined name code scope)
    | .early body => inScope do
      for part in body do
        match part with
        | .define name code =>
          let scope := (← get).scope
          defineFunction name (.defined name code scope)
        | part => runStatement go part
    | .late body =>
      modify fun session => { session with late := (body, session.scope) :: session.late }
    | .block _ body => prepareAll go fuel body
    | .choose _ arms otherwise =>
      for (_, body) in arms do prepareAll go fuel body
      prepareAll go fuel otherwise
    | .loop _ _ _ _ body _ | .forEach _ _ _ _ _ body | .count _ _ _ _ _ body => prepareAll go fuel body
    | _ => pure ()
    prepareAll go fuel rest

/-! ## Evaluators -/

/-- Does what is asked for, with another evaluator for the parts. -/
def perform (go : Evaluator) : Evaluator
  | .value expr => do return [.value (← valueOf go expr)]
  | .items want expr => itemsOf go (prepareAll go manyRounds) want expr
  | .place expr => do return [.place (← placeOfExpr go expr)]
  | .container sigil expr => do return [.place (← containerOf go sigil expr)]
  | .block want body => inScope (runStatements go want body)
  | .call callee arguments want =>
    match callee with
    | .defined name code scope => invoke go name code scope arguments want
    | .known f => do
      let exprs ← (arguments.getD []).mapM fun item => do return Expr.constant (← itemValue item)
      applied go f exprs want

/-- Does what is asked for. `fuel` bounds how deep that is nested. -/
def evaluator : (fuel : Nat) → Evaluator
  | 0 => fun _ => hang
  | fuel + 1 => perform (evaluator fuel)

end Running

end ShellCompletion.Perl
