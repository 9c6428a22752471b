import ShellCompletion.Command.Calendar
import ShellCompletion.Command.Condition
import ShellCompletion.Command.Permissions
import ShellCompletion.Command.Format
import ShellCompletion.Command.Utility.Basic

/-!
# Utilities for files

The standard programs that look at files and at their names, and those that make, move and remove
files.
-/
namespace ShellCompletion.Utility

/-! ## Names -/

def withoutEnding (name ending : Bytes) : Bytes :=
  if !ending.isEmpty && Bytes.endsWith name ending && name != ending then
    name.take (name.length - ending.length)
  else name

def lastName (path : Bytes) : Bytes :=
  if path.isEmpty then []
  else if Path.hasNames path then Path.fileName (Path.dropSlashes path)
  else [Path.slash]

def baseName : Utility := fun call =>
  call.withOptions { flags := "az", valued := "s", anywhere := false } 1 fun given => do
    let several := given.has 'a' || given.has 's'
    match given.operands with
    | [] => call.misuse (utf8 "missing operand") 1
    | path :: rest =>
      if several then
        let ending := (given.value? 's').getD []
        call.print (textOfLines (given.operands.map fun path => withoutEnding (lastName path) ending))
      else match rest with
        | _ :: extra :: _ => call.misuse (utf8 "extra operand " ++ quotedName extra) 1
        | _ => call.print (textOfLines [withoutEnding (lastName path) (rest.headD [])])

def directoryName (path : Bytes) : Bytes :=
  let above := Bytes.throughLast Path.slash (Path.dropSlashes path)
  if Path.hasNames above then Path.dropSlashes above
  else if above.isEmpty && (Path.hasNames path || path.isEmpty) then Path.dot
  else [Path.slash]

def dirName : Utility := fun call =>
  call.withOptions { flags := "z" } 1 fun given => do
    if given.operands.isEmpty then call.misuse (utf8 "missing operand") 1
    else call.print (textOfLines (given.operands.map directoryName))

def pwd : Utility := fun call =>
  call.withOptions { flags := "LP" } 1 fun _ => do
    let tree ← Act.look (·.files)
    call.print (textOfLines [tree.physicalPath call.directory])

/-- The place of the name that a path ends in, with what lies there, a link not being followed. -/
def entryAt (machine : Machine) (directory path : Bytes) :
    Except FileCause (List Bytes × Option FileNode) := do
  let name := Path.fileName (Path.dropSlashes path)
  let isDirectory := path.getLast? == some Path.slash
  let follow (_ : Unit) : Except FileCause (List Bytes × Option FileNode) := do
    let place ← machine.files.locate directory path
    return (place, machine.files.node? place)
  if name.isEmpty || name == Path.dot || name == Path.dotDot then follow ()
  else
    let (place, name) ← machine.parentPlace directory path
    let place := place ++ [name]
    match machine.files.node? place with
    | some (.link target) => if isDirectory then follow () else return (place, some (.link target))
    | some .directory => return (place, some .directory)
    | some node => if isDirectory then .error .notDirectory else return (place, some node)
    | none => return (place, none)

/-- The path without links that a path leads to, whose last name need not be there. -/
def canonical (machine : Machine) (directory path : Bytes) : Except FileCause Bytes := do
  match machine.files.locate directory path with
  | .ok place => return Machine.pathOf place
  | .error .notFound =>
    let place ← machine.targetPlace directory path
    return Machine.pathOf place
  | .error cause => .error cause

def readLink : Utility := fun call =>
  call.withOptions { flags := "fenmqsvz" } 1 fun given => do
    if given.operands.isEmpty then call.misuse (utf8 "missing operand") 1
    else
      let machine ← Act.look id
      let follows := given.has 'f' || given.has 'e' || given.has 'm'
      let found := given.operands.map fun path =>
        if follows then
          (canonical machine call.directory path).toOption.filter fun target =>
            !given.has 'e' || machine.files.exists? [Path.slash] target
        else match entryAt machine call.directory path with
          | .ok (_, some (.link target)) => some target
          | _ => none
      let text := Bytes.join [10] (found.filterMap id)
      let ending := if given.has 'n' || (found.filterMap id).isEmpty then [] else [10]
      call.print (text ++ ending) (if found.all Option.isSome then 0 else 1)

def realPath : Utility := fun call =>
  call.withOptions { flags := "emsqz" } 1 fun given => do
    if given.operands.isEmpty then call.misuse (utf8 "missing operand") 1
    else
      let mut status := 0
      for path in given.operands do
        let machine ← Act.look id
        let found := canonical machine call.directory path
        let isMissing := given.has 'e' && !machine.files.exists? call.directory path
        match if isMissing then .error .notFound else found with
        | .ok target => let _ ← call.put (textOfLines [target])
        | .error cause =>
          if !given.has 'q' then call.complainOf path cause
          status := 1
      return status

/-! ## Looking -/

/-- Tells whether a condition holds; with `bracket`, a closing bracket is the last word. -/
def test (bracket : Bool) : Utility := fun call => do
  let isOpen := bracket && call.arguments.getLast? != some (utf8 "]")
  if isOpen then
    call.complain (utf8 "missing ']'")
    return 2
  else
    let setting : Condition.Setting :=
      { machine := ← Act.look id, directory := call.directory, doubled := true }
    match Condition.evaluate setting (if bracket then call.arguments.dropLast else call.arguments) with
    | .ok true => return 0
    | .ok false => return 1
    | .error fault =>
      call.complain fault.message
      return 2

/-! ## Making -/

def putNode (place : List Bytes) (node : FileNode) : Act Unit :=
  Act.change fun machine => machine.store place node

/-- Does something to each operand, and says what went wrong. -/
def forOperands (call : Call) (given : Given) (start : String)
    (act : Bytes → Act (Except FileCause Unit)) : Act Nat := do
  let mut status := 0
  for path in given.operands do
    if let .error cause := ← act path then
      call.complain (utf8 start ++ utf8 " " ++ quotedName path ++ utf8 ": " ++ utf8 cause.message)
      status := 1
  return status

def setTime (place : List Bytes) (time : Int) : Act Unit := Act.change (·.touch place time)

def setMode (place : List Bytes) (mode : Nat) : Act Unit := Act.change fun machine =>
  let tree := match machine.tree.node? place with
    | some (.file content _) => machine.tree.put place (.file content (Permissions.isExecutable mode))
    | _ => machine.tree
  { machine with tree }.note place ⟨some mode, machine.changedAt place⟩

/-- The moment that a text of digits says, with the seconds after a point. -/
def readStamp (now : Calendar.Moment) (text : Bytes) : Option Calendar.Moment :=
  let digits := Bytes.before '.'.toUInt8 text
  let rest := text.drop digits.length
  let second := if rest.isEmpty then utf8 "00" else rest.drop 1
  let full := if digits.length = 8 then Bytes.decimal now.date.year.toNat ++ digits
    else if digits.length = 10 then
      (if Bytes.digitsValue (digits.take 2) < 69 then utf8 "20" else utf8 "19") ++ digits
    else digits
  if full.length ≠ 12 || !Bytes.allDigits full || second.length ≠ 2 || !Bytes.allDigits second then none
  else
    let part (start count : Nat) : Bytes := (full.drop start).take count
    Calendar.read now (Bytes.join (utf8 "-") [part 0 4, part 4 2, part 6 2] ++ [32] ++
      Bytes.join (utf8 ":") [part 8 2, part 10 2, second])

def touch : Utility := fun call =>
  let table : OptionTable :=
    { flags := "acmfh", valued := "drt"
      long := [("no-create", 'c'), ("date", 'd'), ("no-dereference", 'h'), ("reference", 'r')]
      longOnly := [("time", .required)] }
  call.withOptions table 1 fun given => do
    let machine ← Act.look id
    let now : Calendar.Moment :=
      { seconds := machine.clock.fdiv 1000000
        nanoseconds := ((machine.clock.fmod 1000000) * 1000).toNat }
    let exact (moment : Calendar.Moment) : Int :=
      moment.seconds * 1000000 + (moment.nanoseconds / 1000 : Nat)
    let wanted : Except Bytes (Option Int) :=
      match given.value? 'r', given.value? 'd', given.value? 't' with
      | some name, _, _ => match machine.files.locate call.directory name with
        | .ok place => .ok (some (machine.changedAt place))
        | .error cause => .error (utf8 "failed to get attributes of " ++ quotedName name ++ utf8 ": " ++
            utf8 cause.message)
      | none, some text, _ => match Calendar.read now text with
        | some moment => .ok (some (exact moment))
        | none => .error (utf8 "invalid date format " ++ quotedName text)
      | none, none, some text => match readStamp now text with
        | some moment => .ok (some (exact moment))
        | none => .error (utf8 "invalid date format " ++ quotedName text)
      | none, none, none => .ok none
    match wanted with
    | .error text =>
      call.complain text
      return 1
    | .ok wanted =>
      if given.operands.isEmpty then call.misuse (utf8 "missing file operand") 1
      else forOperands call given "cannot touch" fun path => do
        let machine ← Act.look id
        let time := wanted.getD machine.clock
        match machine.files.locate call.directory path with
        | .ok place =>
          setTime place time
          return .ok ()
        | .error .notFound =>
          if given.has 'c' then return .ok ()
          else match machine.targetPlace call.directory path with
            | .ok place =>
              if path.getLast? = some Path.slash then return .error .notFound
              putNode place (.file [] false)
              setTime place time
              return .ok ()
            | .error cause => return .error cause
        | .error cause => return .error cause

/-- Makes directories, those above them too, and does something after each. -/
def makePath (directory : Bytes) (after : Bytes → Act Unit) (made : Bytes) :
    List Bytes → Act (Except FileCause Unit)
  | [] => return .ok ()
  | part :: rest => do
    let path := made ++ part
    let machine ← Act.look id
    let next := path ++ [Path.slash]
    if part.isEmpty || machine.files.isDirectory directory path then makePath directory after next rest
    else match entryAt machine directory path with
      | .ok (place, none) =>
        putNode place .directory
        after path
        makePath directory after next rest
      | .ok (_, some _) => return .error (if rest.all List.isEmpty then .occupied else .notDirectory)
      | .error cause => return .error cause

def askedMode (given : Given) (isDirectory : Bool) : Except Bytes (Option Nat) :=
  match given.value? 'm' with
  | none => .ok none
  | some text => match Permissions.read 18 text with
    | some change => .ok (some (change isDirectory (if isDirectory then 511 else 438)))
    | none => .error (utf8 "invalid mode " ++ quotedName text)

/-- Goes on with the permissions that an option asks for. -/
def withMode (call : Call) (given : Given) (isDirectory : Bool) (run : Option Nat → Act Nat) :
    Act Nat := do
  match askedMode given isDirectory with
  | .error text =>
    call.complain text
    return 1
  | .ok mode => run mode

def mkdir : Utility := fun call =>
  let table : OptionTable :=
    { flags := "pv", valued := "m"
      long := [("parents", 'p'), ("mode", 'm'), ("verbose", 'v')] }
  call.withOptions table 1 fun given => withMode call given true fun mode => do
    let tell (path : Bytes) : Act Unit := do
      if given.has 'v' then
        let _ ← call.put (call.name ++ utf8 ": created directory " ++ quotedName path ++ utf8 "\n")
    let made (path : Bytes) : Act (Except FileCause Unit) := do
      if let some mode := mode then
        if let .ok (place, _) := entryAt (← Act.look id) call.directory path then setMode place mode
      return .ok ()
    if given.operands.isEmpty then call.misuse (utf8 "missing operand") 1
    else forOperands call given "cannot create directory" fun path => do
      if given.has 'p' then
        let isThere ← Act.look fun machine => machine.files.isDirectory call.directory path
        match ← makePath call.directory tell [] (Path.parts path) with
        | .error cause => return .error cause
        | .ok () => if isThere then return .ok () else made path
      else match entryAt (← Act.look id) call.directory path with
        | .ok (place, none) =>
          putNode place .directory
          tell path
          made path
        | .ok (_, some _) => return .error .occupied
        | .error cause => return .error cause

def mkfifo : Utility := fun call =>
  call.withOptions { valued := "m", long := [("mode", 'm')] } 1 fun given =>
   withMode call given false fun mode => do
    if given.operands.isEmpty then call.misuse (utf8 "missing operand") 1
    else forOperands call given "cannot create fifo" fun path => do
      match entryAt (← Act.look id) call.directory path with
      | .ok (place, none) =>
        putNode place .pipe
        if let some mode := mode then setMode place mode
        return .ok ()
      | .ok (_, some _) => return .error .occupied
      | .error cause => return .error cause

/-- Makes a file or directory that is not there yet, and says how it is called. -/
def mktemp : Utility := fun call =>
  call.withOptions { flags := "dqtu", valued := "p" } 1 fun given => do
    let machine ← Act.look id
    let above := (given.value? 'p').getD ((call.environment.get? (utf8 "TMPDIR")).getD (utf8 "/tmp"))
    let start (n : Nat) : Bytes :=
      let digits := Bytes.decimal (machine.current + n)
      List.replicate (10 - digits.length) 'x'.toUInt8 ++ digits
    let path (n : Nat) : Bytes := match given.operands with
      | [] => Path.append above (utf8 "tmp." ++ start n)
      | template :: _ =>
        let stem := (template.reverse.dropWhile (· == 'X'.toUInt8)).reverse
        let count := template.length - stem.length
        stem ++ (start n).drop (10 - count)
    let isFree (n : Nat) : Bool := !machine.files.exists? call.directory (path n)
    let path := path (((List.range 1000).find? isFree).getD 0)
    match entryAt machine call.directory path with
    | .ok (place, _) =>
      putNode place (if given.has 'd' then .directory else .file [] false)
      call.print (textOfLines [path])
    | .error cause =>
      call.complain (utf8 "failed to create file via template " ++ quotedName path ++ utf8 ": " ++
        utf8 cause.message)
      return 1

def placesBelow (machine : Machine) (place : List Bytes) : List (List Bytes × FileNode) :=
  machine.tree.nodes.filter fun entry => place.isPrefixOf entry.1

def chmod : Utility := fun call => do
  let isMode (word : Bytes) : Bool :=
    word.head? == some '-'.toUInt8 && 1 < word.length && (word.drop 1).all (utf8 "rwxXst").contains
  let words := if call.arguments.head?.any isMode then utf8 "--" :: call.arguments else call.arguments
  let table : OptionTable :=
    { flags := "Rcfv", long := [("recursive", 'R'), ("changes", 'c'), ("silent", 'f'), ("quiet", 'f'),
        ("verbose", 'v')], longOnly := [("reference", .required)] }
  ({ call with arguments := words } : Call).withOptions table 1 fun given => do
    let machine ← Act.look id
    let (mode, paths) : Option (Bool → Nat → Nat) × List Bytes := match given.named? "reference" with
      | some name =>
        let change := (machine.files.locate call.directory name).toOption.bind fun place =>
          (machine.files.node? place).map fun node (_ : Bool) (_ : Nat) => machine.modeAt place node
        (change, given.operands)
      | none => (Permissions.read 18 (given.operands.headD []), given.operands.drop 1)
    match given.operands, paths, mode with
    | [], _, _ => call.misuse (utf8 "missing operand") 1
    | [mode], [], _ => call.misuse (utf8 "missing operand after " ++ quotedName mode) 1
    | mode :: _, _, none => call.misuse (utf8 "invalid mode: " ++ quotedName mode) 1
    | _, paths, some change =>
      forOperands call { given with operands := paths } "cannot access" fun path => do
        let machine ← Act.look id
        match machine.files.locate call.directory path with
        | .error cause => return .error cause
        | .ok place =>
          let all := if given.has 'R' then placesBelow machine place
            else ((machine.files.node? place).map ((place, ·))).toList
          for (place, node) in all do
            match node with
            | .link _ => pure ()
            | node => setMode place (change (node == .directory) (machine.modeAt place node))
          return .ok ()

/-! ## Moving and removing -/

/-- Takes away what lies at a place, with everything below it. -/
def removePlace (place : List Bytes) : Act Unit := Act.change (·.erase place)

def isEmptyAt (tree : FileTree) (place : List Bytes) : Bool := (tree.namesIn place).isEmpty

def rm : Utility := fun call =>
  let table : OptionTable :=
    { flags := "rRfdivI", long := [("recursive", 'r'), ("force", 'f'), ("dir", 'd')] }
  call.withOptions table 1 fun given => do
    let recursive := given.has 'r' || given.has 'R'
    if given.operands.isEmpty then
      if given.has 'f' then return 0 else call.misuse (utf8 "missing operand") 1
    else forOperands call given "cannot remove" fun path => do
      let machine ← Act.look id
      match entryAt machine call.directory path with
      | .ok (place, some .directory) =>
        if recursive then
          removePlace place
          return .ok ()
        else if !given.has 'd' then return .error .isDirectory
        else if isEmptyAt machine.files place then
          removePlace place
          return .ok ()
        else return .error .notEmpty
      | .ok (place, some _) =>
        removePlace place
        return .ok ()
      | .ok (_, none) => return if given.has 'f' then .ok () else .error .notFound
      | .error cause =>
        return if given.has 'f' ∧ (cause = .notFound ∨ cause = .notDirectory) then .ok () else .error cause

def rmdir : Utility := fun call =>
  call.withOptions { flags := "pv" } 1 fun given => do
    if given.operands.isEmpty then call.misuse (utf8 "missing operand") 1
    else forOperands call given "failed to remove" fun path => do
      let machine ← Act.look id
      match entryAt machine call.directory path with
      | .ok (place, some .directory) =>
        if isEmptyAt machine.files place then
          removePlace place
          return .ok ()
        else return .error .notEmpty
      | .ok (_, some _) => return .error .notDirectory
      | .ok (_, none) => return .error .notFound
      | .error cause => return .error cause

/-- Puts all that lies at a place and below it to another place as well. What is known of it goes
    along if it is to be kept. -/
def copyPlace (source target : List Bytes) (keep : Bool) : Act Unit := Act.change fun machine =>
  let below := machine.tree.nodes.filter fun entry => source.isPrefixOf entry.1
  below.foldl (fun machine (place, node) =>
    let goal := target ++ place.drop source.length
    let node := match machine.tree.node? goal, node with
      | some (.file _ executable), .file content _ => if keep then node else .file content executable
      | _, node => node
    let isThere := machine.tree.node? goal == some .directory && node == .directory
    let mode := (machine.attributes.lookup place).bind (·.mode)
    let machine := if isThere then machine else machine.store goal node
    if keep then machine.note goal ⟨mode, machine.changedAt place⟩
    else if isThere then machine
    else machine.note goal
      ⟨((machine.attributes.lookup goal).bind (·.mode)).or mode, machine.clock⟩) machine

/-- What is to be put where: each source with the path that it goes to, or a fault. -/
def destinations (call : Call) (given : Given) : Act (Except Bytes (List (Bytes × Bytes))) := do
  let machine ← Act.look id
  let isDirectory (path : Bytes) : Bool := machine.files.isDirectory call.directory path
  let into (above : Bytes) (sources : List Bytes) : List (Bytes × Bytes) :=
    sources.map fun source => (source, Path.append above (lastName source))
  match given.value? 't', given.operands with
  | some above, sources => return .ok (into above sources)
  | none, [source, target] =>
    return .ok (if isDirectory target && !given.has 'T' then into target [source] else [(source, target)])
  | none, operands =>
    let above := operands.getLast?.getD []
    if isDirectory above then return .ok (into above operands.dropLast)
    else return .error (utf8 "target " ++ quotedName above ++ utf8 ": " ++
      utf8 (if machine.files.exists? call.directory above then "Not a directory"
        else "No such file or directory"))

/-- Does something with each source and the path that it goes to. -/
def forPairs (call : Call) (given : Given) (missing : String)
    (act : Bytes → Bytes → Act Bool) : Act Nat := do
  match given.operands with
  | [] => call.misuse (utf8 ("missing " ++ missing ++ "file operand")) 1
  | [path] =>
    if given.has 't' then run else
      call.misuse (utf8 "missing destination file operand after " ++ quotedName path) 1
  | _ => run
where
  run : Act Nat := do
    match ← destinations call given with
    | .error text =>
      call.complain text
      return 1
    | .ok pairs =>
      let mut status := 0
      for (source, target) in pairs do
        if !(← act source target) then status := 1
      return status

def cp : Utility := fun call =>
  let table : OptionTable :=
    { flags := "rRafpnvuTLPd", valued := "t", long := [("recursive", 'r'), ("archive", 'a')] }
  call.withOptions table 1 fun given => forPairs call given "" fun source target => do
    let machine ← Act.look id
    let recursive := given.has 'r' || given.has 'R' || given.has 'a'
    let fail (text : Bytes) : Act Bool := do
      call.complain text
      return false
    match if recursive then entryAt machine call.directory source
      else (machine.files.locate call.directory source).map fun place =>
        (place, machine.files.node? place) with
    | .error cause =>
      fail (utf8 "cannot stat " ++ quotedName source ++ utf8 ": " ++ utf8 cause.message)
    | .ok (_, none) =>
      fail (utf8 "cannot stat " ++ quotedName source ++ utf8 ": No such file or directory")
    | .ok (place, some node) =>
      if node = .directory ∧ !recursive then
        fail (utf8 "-r not specified; omitting directory " ++ quotedName source)
      else
        let isOpen := target.getLast? = some Path.slash && node != .directory
        let goal : Except FileCause (List Bytes) := match machine.files.locate call.directory target with
          | .ok place => .ok place
          | .error .notFound =>
            if isOpen then .error .notDirectory else machine.targetPlace call.directory target
          | .error cause => .error cause
        match goal with
        | .error cause =>
          fail (utf8 "cannot create regular file " ++ quotedName target ++ utf8 ": " ++ utf8 cause.message)
        | .ok goal =>
          if goal = place then
            fail (quotedName source ++ utf8 " and " ++ quotedName target ++ utf8 " are the same file")
          else
            if !(given.has 'n' && (machine.files.node? goal).isSome) then
              copyPlace place goal (given.has 'p' || given.has 'a')
            return true

def mv : Utility := fun call =>
  call.withOptions { flags := "fnivuT", valued := "t" } 1 fun given =>
    forPairs call given "" fun source target => do
      let machine ← Act.look id
      match entryAt machine call.directory source, entryAt machine call.directory target with
      | .ok (place, some node), .ok (goal, old) =>
        if place = goal then
          call.complain (quotedName source ++ utf8 " and " ++ quotedName target ++
            utf8 " are the same file")
          return false
        else if old = some .directory ∧ node ≠ .directory then
          call.complain (utf8 "cannot overwrite directory " ++ quotedName target ++
            utf8 " with non-directory")
          return false
        else
          if !(given.has 'n' && old.isSome) then
            removePlace goal
            copyPlace place goal true
            removePlace place
          return true
      | .ok (_, some _), .error cause =>
        call.complain (utf8 "cannot move " ++ quotedName source ++ utf8 " to " ++ quotedName target ++
          utf8 ": " ++ utf8 cause.message)
        return false
      | .ok (_, none), _ =>
        call.complain (utf8 "cannot stat " ++ quotedName source ++ utf8 ": No such file or directory")
        return false
      | .error cause, _ =>
        call.complain (utf8 "cannot stat " ++ quotedName source ++ utf8 ": " ++ utf8 cause.message)
        return false

def ln : Utility := fun call =>
  call.withOptions { flags := "sfnTvr", valued := "t", long := [("symbolic", 's'), ("force", 'f')] } 1
    fun given =>
      let given := match given.operands with
        | [path] => { given with operands := [path, Path.dot] }
        | _ => given
      forPairs call given "" fun source target => do
        let machine ← Act.look id
        let start := utf8 (if given.has 's' then "failed to create symbolic link "
          else "failed to create hard link ") ++ quotedName target
        match entryAt machine call.directory target with
        | .error cause =>
          call.complain (start ++ utf8 ": " ++ utf8 cause.message)
          return false
        | .ok (place, old) =>
          if old.isSome ∧ !given.has 'f' then
            call.complain (start ++ utf8 ": File exists")
            return false
          else
            if given.has 's' then
              putNode place (.link source)
              return true
            else match machine.files.find? call.directory source with
              | .ok (.file content executable) =>
                putNode place (.file content executable)
                return true
              | .ok _ =>
                call.complain (quotedName source ++ utf8 ": hard link not allowed for directory")
                return false
              | .error cause =>
                call.complain (utf8 "failed to access " ++ quotedName source ++ utf8 ": " ++
                  utf8 cause.message)
                return false

/-- The utilities of this kind by name. -/
def filing : List (String × Utility) :=
  [("[", test true), ("basename", baseName), ("chmod", chmod), ("cp", cp), ("dirname", dirName),
   ("ln", ln), ("mkdir", mkdir), ("mkfifo", mkfifo), ("mktemp", mktemp), ("mv", mv),
   ("pwd", pwd), ("readlink", readLink), ("realpath", realPath), ("rm", rm), ("rmdir", rmdir),
   ("test", test false), ("touch", touch)]

end ShellCompletion.Utility
