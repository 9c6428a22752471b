import ShellCompletion.Command.Perl.Builtin

/-!
# Functions by name

Each function with what it does to its arguments. Most take the values of their arguments; some look at
the arguments themselves.
-/
namespace ShellCompletion.Perl

namespace Running

def takesOneEach (f : Function) : Bool :=
  [Function.index, .rindex, .atan2, .fmod, .rename, .link, .symlink, .mkdir, .unpack, .waitpid, .truncate, .seek,
    .flock, .strtol, .dupTo, .copyFile, .moveFile, .bless].contains f

/-- The functions of an expression that need no list. -/
def takesOne (f : Function) : Bool :=
  [Function.abs, .alarm, .caller, .chdir, .chr, .cos, .exit, .exp, .fc, .gmtime, .hex, .int, .lc, .lcfirst, .length,
    .localtime, .log, .lstat, .oct, .ord, .quotemeta, .rand, .readlink, .ref, .rmdir, .sin, .sleep, .sqrt, .srand,
    .stat, .uc, .ucfirst, .umask, .ceil, .floor, .blessed, .reftype, .looksLikeNumber, .refaddr, .dirname, .absPath,
    .isatty, .exitNow, .usleep, .nanosleep, .sleepHires, .decodeBase64, .isExited, .exitStatus, .isSignaled,
    .termSignal].contains f

def argumentValues (go : Evaluator) (f : Function) (arguments : List Expr) : Running (List Scalar) :=
  if takesOneEach f || takesOne f then arguments.mapM go.value
  else match f, arguments with
    | .sprintf, first :: rest => do
      match first with
      | .lexical .array _ | .shared .array _ | .follow .array _ | .arguments => go.allValues (first :: rest)
      | first =>
        let format ← go.value first
        return format :: (← go.allValues rest)
    | _, arguments => go.allValues arguments

/-- What a value leads to, without its class. -/
def plainKind (value : Scalar) : Running Scalar := do
  match value with
  | .reference address => return .text (← kindAt address)
  | .handle _ => return .text (utf8 "GLOB")
  | .pattern _ => return .text (utf8 "REGEXP")
  | _ => return .nothing

def kindOf (value : Scalar) : Running Scalar := do
  match value with
  | .reference address =>
    match (← get).classes[address]? with
    | some name => return .text name
    | none => plainKind value
  | .pattern _ => return .text (utf8 "Regexp")
  | .handle _ => plainKind value
  | _ => return .text []

/-- Who has called the function that runs. -/
def callerItems (arguments : List Scalar) (want : Want) : Running (List Scalar) := do
  let session ← get
  let depth := (arguments.headD .nothing).toNat
  match session.frames[depth]? with
  | none => return if want = .many then [] else [.nothing]
  | some frame =>
    if want != .many then return [.text frame.package]
    let base := [Scalar.text frame.package, .text session.file, Scalar.ofNat frame.line]
    if arguments.isEmpty then return base
    let wanted : Scalar := match frame.want with
      | .many => .int 1
      | .one => .int 0
      | .none => .nothing
    return base ++ [.text frame.name, .int 1, wanted]

def onHandles? (go : Evaluator) (f : Function) (arguments : List Expr) (want : Want) :
    Option (Running (List Item)) :=
  let one (value : Scalar) : Running (List Item) := return [.value value]
  let truth (b : Bool) : Running (List Item) := return [.value (Scalar.ofBool b)]
  let handle : Running (Option Nat) := match arguments with
    | expr :: _ => handleOfExpr? go expr
    | [] => return none
  match f with
  | .open_ => some do one (← openAny go arguments)
  | .close => some do
    match arguments with
    | [] => truth (← closeHandle (← get).selected)
    | _ =>
      match ← handle with
      | some number => truth (← closeHandle number)
      | none =>
        setFault 9
        truth false
  | .binmode => some do truth ((← handle).isSome)
  | .fileno => some do
    match ← handle with
    | none => one .nothing
    | some number =>
      let handle ← handleAt number
      match handle.memory, handle.descriptor? with
      | some _, _ => one (.int (-1))
      | none, some descriptor => one (Scalar.ofNat (shownDescriptor descriptor))
      | none, none => one .nothing
  | .eof => some do
    match arguments with
    | [] =>
      match (← get).reading, (← get).lastRead with
      | none, some number => truth (← atEnd number)
      | _, _ => truth (← filesAtEnd false)
    | _ =>
      if (arguments.head?.bind bareName?) == some (utf8 "ARGV") then truth (← filesAtEnd false)
      else match ← handle with
        | some number => truth (← atEnd number)
        | none => truth true
  | .select => some do
    match arguments with
    | [_, _, _, duration] =>
      let seconds := (← go.value duration).toFloat
      let _ ← sleepFor go (Format.truncated 0 1000000000000000 (seconds * 1000000.0)).toNat
      one (.int 0)
    | _ =>
      let session ← get
      let name := (session.handles.getD session.selected default).name
      let old : Scalar := if name.isEmpty then .handle session.selected else .text (utf8 "main::" ++ name)
      match arguments with
      | [] => one old
      | _ =>
        if let some number ← handle then modify ({ · with selected := number })
        one old
  | .read | .sysread => some do one (← readInto go arguments)
  | .syswrite => some do
    match ← handle with
    | none => one .nothing
    | some number =>
      let text ← go.text ((arguments[1]?).getD (.list []))
      let text ← match arguments[2]? with
        | some count => do pure (text.take (← go.value count).toNat)
        | none => pure text
      let _ ← flushHandle number
      let fine ← write number text
      let sent ← flushHandle number
      if fine && sent then one (Scalar.ofNat text.length) else one .nothing
  | .getc => some do
    match ← (if arguments.isEmpty then pure (some 0) else handle) with
    | none => one .nothing
    | some number =>
      let bytes ← readBytes number 4 1
      one (if bytes.isEmpty then .nothing else .text bytes)
  | .seek => some do
    match ← handle with
    | none => truth false
    | some number =>
      let place := (← go.value ((arguments[1]?).getD (.list []))).toInt
      let start := (← go.value ((arguments[2]?).getD (.list []))).toNat
      truth (← seek number place start)
  | .tell => some do
    match ← handle with
    | none => one (.int (-1))
    | some number => one (.int (← tell number))
  | .truncate => some do
    let size := (← go.value ((arguments[1]?).getD (.list []))).toNat
    let isPath ← match arguments.head?.bind bareName? with
      | some name => do pure (← namedHandle (← get).package name).isNone
      | none => do
        match ← go.value (arguments.headD (.list [])) with
        | .text _ => pure true
        | _ => pure false
    if isPath then truth (← changeAt (← go.text (arguments.headD (.list []))) fun place => truncateAt place size)
    else match ← handle with
      | none => truth false
      | some number =>
        let _ ← flushHandle number
        match ← nodeOfHandle number with
        | some (place, _) =>
          act (truncateAt place size)
          truth true
        | none => truth false
  | .flock => some (truth true)
  | .opendir => some do
    match arguments with
    | [target, path] =>
      let path ← go.text path
      truth (← openDirectory (← newHandle go target) path)
    | _ => truth false
  | .readdir => some do
    match ← handle with
    | none => return if want = .many then [] else [.value .nothing]
    | some number =>
      let handle ← handleAt number
      let left := (handle.names.getD []).drop handle.read
      if want = .many then
        setHandle number { handle with read := handle.read + left.length }
        return left.map fun name => .value (.text name)
      else
        setHandle number { handle with read := handle.read + 1 }
        match left with
        | name :: _ => one (.text name)
        | [] => one .nothing
  | .rewinddir => some do
    if let some number ← handle then
      let handle ← handleAt number
      setHandle number { handle with read := 0 }
    truth true
  | .closedir => some do
    match ← handle with
    | none => truth false
    | some number =>
      let handle ← handleAt number
      setHandle number { handle with names := none }
      truth handle.names.isSome
  | .pipe => some do
    match arguments with
    | [reader, writer] =>
      let reader ← newHandle go reader
      openPair reader (← newHandle go writer)
      truth true
    | _ => truth false
  | .stat | .lstat => some do
    let found ← match arguments with
      | [] => nodeAt (← get).tested true
      | expr :: _ => do
        let named ← match bareName? expr with
          | some name => do
            match expr with
            | .constant _ => pure none
            | _ => if name = utf8 "_" then pure none else namedHandle (← get).package name
          | none => pure none
        let value ← match named with
          | some number => pure (Scalar.handle number)
          | none => go.value expr
        match value with
        | .handle number | .reference number => do
          match ← nodeOfHandle number with
          | some found => pure (Except.ok found)
          | none => pure (Except.error FileCause.badDescriptor)
        | value => do
          let name ← textOf value
          let last := (← get).tested
          let path := if name = utf8 "_" then last else name
          modify ({ · with tested := path })
          nodeAt path (f = .stat)
    match found with
    | .ok (place, node) =>
      if want = .many then return (← statusOf place node).map .value else truth true
    | .error cause =>
      setFault (causeNumber cause)
      if want = .many then return [] else truth false
  | _ => none

/-- The functions of files and processes that take values; none if it is another one. -/
def onSystem? (go : Evaluator) (f : Function) (values : List Scalar) : Option (Running (List Item)) :=
  let one (value : Scalar) : Running (List Item) := return [.value value]
  let truth (b : Bool) : Running (List Item) := return [.value (Scalar.ofBool b)]
  let text (index : Nat) : Running Bytes := textOf (values.getD index .nothing)
  let number (index : Nat) : Nat := (values.getD index .nothing).toNat
  let status := ((values.headD .nothing).toInt % 256).toNat
  let texts (count : Nat) : Running (List Bytes) := (values.drop count).mapM textOf
  match f with
  | .unlink => some do
    let paths ← if values.isEmpty then do pure [← textOf (← readShared (utf8 "main::_"))] else texts 0
    one (← countFine paths removeFile)
  | .mkdir => some do truth (← makeDirectory (← text 0) ((values[1]?).map Scalar.toNat))
  | .rmdir => some do truth (← removeDirectory (← text 0))
  | .rename => some do
    let source ← text 0
    truth (← transfer source (← text 1) true)
  | .moveFile | .copyFile => some do
    let source ← text 0
    let goal ← text 1
    let here ← directory
    let isFolder ← act (Act.look fun machine => machine.files.isDirectory here goal)
    let goal := if isFolder then goal ++ Path.slash :: Path.fileName source else goal
    truth (← transfer source goal (f = .moveFile))
  | .link => some do
    let source ← text 0
    truth (← transfer source (← text 1) false)
  | .symlink => some do
    let target ← text 0
    truth (← makeLink target (← text 1))
  | .readlink => some do
    match ← nodeAt (← text 0) false with
    | .ok (_, .link target) => one (.text target)
    | .ok _ =>
      setFault 22
      one .nothing
    | .error cause =>
      setFault (causeNumber cause)
      one .nothing
  | .chmod => some do
    one (← countFine (← texts 1) fun path => changeAt path fun place => Utility.setMode place (number 0))
  | .utime => some do
    let now ← act (Act.look (·.clock))
    let time := match (values[1]?).getD Scalar.nothing with
      | .nothing => now
      | value => Format.truncated (-1000000000000000000) 1000000000000000000 (value.toFloat * 1000000.0)
    one (← countFine (← texts 2) fun path => changeAt path fun place => Utility.setTime place time)
  | .chdir => some do
    let path ← if values.isEmpty then do pure (((← environment).get? (utf8 "HOME")).getD []) else text 0
    truth (← changeDirectory path)
  | .umask => some (one (.int 18))
  | .getcwd => some do one (.text (← directory))
  | .absPath => some do
    let path ← if values.isEmpty then pure Path.dot else text 0
    let here ← directory
    match ← act (Act.look fun machine => Utility.canonical machine here path) with
    | .ok path => one (.text path)
    | .error _ => one .nothing
  | .makePath => some do
    let paths ← texts 0
    let here ← directory
    for path in paths do
      let start : Bytes := if path.head? = some Path.slash then [Path.slash] else []
      let _ ← act (Utility.makePath here (fun _ => return ()) start (Bytes.fields Path.slash path))
    one (Scalar.ofNat paths.length)
  | .removeTree => some do
    let counts ← (← texts 0).mapM removeAll
    one (Scalar.ofNat (counts.foldl (· + ·) 0))
  | .fork => some do one (← forkHere)
  | .wait => some do one (← waitFor go none true)
  | .waitpid => some do
    let wanted := (values.getD 0 .nothing).toInt
    one (← waitFor go (if 0 < wanted then some wanted.toNat else none) (number 1 % 2 = 0))
  | .kill => some do
    let count ← sendSignal values
    meetPending go
    one count
  | .sleep => some do
    if values.isEmpty then hang
    let passed ← sleepFor go (1000000 * number 0)
    one (Scalar.ofNat ((passed + 500000) / 1000000))
  | .sleepHires => some do
    let duration := (Format.truncated 0 1000000000000000 ((values.headD .nothing).toFloat * 1000000.0)).toNat
    let passed ← sleepFor go duration
    one (.float (floatOfInt passed / 1000000.0))
  | .usleep => some do one (Scalar.ofNat (← sleepFor go (number 0)))
  | .nanosleep => some do
    let _ ← sleepFor go (number 0 / 1000)
    one (Scalar.ofNat (number 0))
  | .alarm => some do
    let duration := (Format.truncated 0 1000000000000000 ((values.headD .nothing).toFloat * 1000000.0)).toNat
    one (Scalar.ofNat (((← setAlarm duration) + 999999) / 1000000))
  | .system => some do one (← runCommand (← texts 0))
  | .exec => some do one (← takePlace (← texts 0))
  | .getppid => some do
    one (Scalar.ofNat (← act (Act.look fun machine =>
      ((machine.process? machine.current).map (·.parent)).getD 0)))
  | .exit => some (throw (.exit status))
  | .exitNow => some do throw (.abort status)
  | .dupTo => some do
    let (source, goal) := (number 0, number 1)
    flushAll
    let found ← act (Act.access fun machine =>
      match machine.descriptors.lookup source with
      | some channel => (true, machine.point goal channel)
      | none => (false, machine))
    if found then one (Scalar.ofNat goal) else one .nothing
  | .tempfile => some do
    let path := utf8 "/tmp/" ++ (Bytes.decimal ((← act Act.self) * 7919 + 1000003)).map fun c => c + 49
    let number ← addHandle { name := [] }
    let _ ← openHandle number [] (utf8 "+>") [.text path]
    return [.value (.handle number), .value (.text path)]
  | _ => none

def applied (go : Evaluator) (f : Function) (arguments : List Expr) (want : Want) : Running (List Item) := do
  let one (value : Scalar) : Running (List Item) := return [.value value]
  let truth (b : Bool) : Running (List Item) := return [.value (Scalar.ofBool b)]
  let subject := arguments.headD Reading.topic
  match onHandles? go f arguments want with
  | some result => return ← result
  | none => pure ()
  match f with
  | .defined => truth (← isDefinedAt go subject)
  | .exists => truth (← existsAt go subject)
  | .delete =>
    let items ← deleteAt go subject
    if want = .many then return items else one (← lastValue items)
  | .scalar => one (← go.value subject)
  | .undef =>
    if !arguments.isEmpty then undefine go subject
    one .nothing
  | .push | .unshift =>
    let array ← arrayArgument go arguments
    let values ← go.allValues (arguments.drop 1)
    one (← addValues array values (f = .unshift))
  | .pop | .shift => one (← takeEnd (← arrayArgument go arguments) (f = .shift))
  | .splice =>
    let array ← arrayArgument go arguments
    let number (index : Nat) : Running (Option Int) := match arguments[index]? with
      | some expr => do return some (← go.value expr).toInt
      | none => return none
    let offset ← number 1
    let length ← number 2
    let items ← splice array offset length (← go.allValues (arguments.drop 3))
    if want = .many then return items else one (← lastValue items)
  | .keys => keysOf go subject want
  | .values => valuesOf go subject want
  | .each => nextEntry go subject want
  | .chomp | .chop => one (← cutEnds go (if arguments.isEmpty then [Reading.topic] else arguments) (f = .chop))
  | .substr => one (← substr go arguments)
  | .length =>
    match ← go.value subject with
    | .nothing => one .nothing
    | value => one (Scalar.ofNat (← textOf value).length)
  | .pos =>
    match ← positionOf (← go.place subject) with
    | some (place, _) => one (Scalar.ofNat place)
    | none => one .nothing
  | .split =>
    let parts ← splitText go arguments
    if want = .many then return parts.map .value else one (Scalar.ofNat parts.length)
  | .vec =>
    let values ← arguments.mapM go.value
    let text ← textOf (values.getD 0 .nothing)
    let (offset, bits) := ((values.getD 1 .nothing).toNat, (values.getD 2 (.int 8)).toNat)
    if 8 ≤ bits then
      let bytes := (text.drop (offset * (bits / 8))).take (bits / 8)
      one (Scalar.ofNat (bytes.foldl (fun n c => 256 * n + c.toNat) 0))
    else
      let byte := (text.getD (offset * bits / 8) 0).toNat
      one (Scalar.ofNat (byte >>> (offset * bits % 8) % (1 <<< bits)))
  | .wantarray =>
    match (← get).want with
    | .many => one (.int 1)
    | .one => one (.int 0)
    | .none => one .nothing
  | .first | .any | .all | .none_ | .reduce | .pairmap => withFunction go f arguments want
  | _ =>
    let values ← argumentValues go f arguments
    match onSystem? go f values with
    | some result => result
    | none =>
      match f with
      | .ref => one (← kindOf (values.headD .nothing))
      | .reftype => one (← plainKind (values.headD .nothing))
      | .blessed =>
        match values.headD .nothing with
        | .reference address =>
          match (← get).classes[address]? with
          | some name => one (.text name)
          | none => one .nothing
        | .pattern _ => one (.text (utf8 "Regexp"))
        | _ => one .nothing
      | .refaddr =>
        match values.headD .nothing with
        | .reference address => one (Scalar.reference address).number
        | _ => one .nothing
      | .bless =>
        let object := values.headD .nothing
        let name ← match values with
          | _ :: name :: _ => textOf name
          | _ => do pure (← get).package
        match object with
        | .reference address =>
          modify fun session => { session with classes := session.classes.insert address name }
          one object
        | _ => fail (utf8 "Can't bless non-reference value")
      | .caller => return (← callerItems values want).map .value
      | .die =>
        match values with
        | [.reference address] => die go (.reference address)
        | values => die go (.text (← messageOf values "Died" whereText))
      | .warn =>
        warn go (← messageOf values "Warning: something's wrong" whereText)
        one (.int 1)
      | .croak | .confess =>
        match values with
        | [.reference address] => die go (.reference address)
        | values => die go (.text (← messageOf values "Died" callerText))
      | .carp =>
        warn go (← messageOf values "Warning: something's wrong" callerText)
        one (.int 1)
      | f =>
        match ← listed? f values want with
        | some values => return values.map .value
        | none => fail (utf8 "Unsupported function")

end Running

end ShellCompletion.Perl
