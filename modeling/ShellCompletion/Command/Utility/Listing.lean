import ShellCompletion.Command.Pattern
import ShellCompletion.Command.Utility.Files
import ShellCompletion.Command.Version

/-!
# Listing directories

The standard programs that show the names of files in rows and columns, what is known of them, and how
much room they take.
-/
namespace ShellCompletion.Utility

/-- A file that is listed. -/
structure Listed where
  name : Bytes
  place : List Bytes
  node : FileNode
  /-- What a link leads to. -/
  target : Option FileNode := none

namespace Listed

def size (entry : Listed) : Nat :=
  match entry.node with
  | .file content _ => content.length
  | .directory => 4096
  | .link target => target.length
  | .pipe => 0

/-- How many blocks of 1024 bytes it takes. -/
def blocks (entry : Listed) : Nat :=
  match entry.node with
  | .link _ => 0
  | _ => (entry.size + 4095) / 4096 * 4

/-- How many names lead to it. -/
def links (machine : Machine) (entry : Listed) : Nat :=
  match entry.node with
  | .directory => 2 + ((machine.files.namesIn entry.place).filter fun name =>
      machine.files.node? (entry.place ++ [name]) == some .directory).length
  | _ => 1

def isDirectory (entry : Listed) : Bool := entry.node == .directory

/-- The part of a name from its last dot on. -/
def ending (entry : Listed) : Bytes :=
  if entry.name.contains '.'.toUInt8 then '.'.toUInt8 :: Bytes.afterLast '.'.toUInt8 entry.name else []

end Listed

namespace Listing

/-- A size in units that fit it, with one digit after the point below ten. -/
def humanSize (base : Nat) (n : Nat) : Bytes :=
  let units := utf8 "KMGTPEZY"
  let rec scale : (fuel : Nat) → (unit power : Nat) → Bytes
    | 0, _, _ => Bytes.decimal n
    | fuel + 1, unit, power =>
      let next := power * base
      let tenths := (10 * n + power - 1) / power
      if tenths < 100 then
        Bytes.decimal (tenths / 10) ++ utf8 "." ++ Bytes.decimal (tenths % 10) ++
          [units.getD unit 0]
      else
        let whole := (n + power - 1) / power
        if whole < base then Bytes.decimal whole ++ [units.getD unit 0] else scale fuel (unit + 1) next
  if n < base then Bytes.decimal n else scale 8 0 base

def shown (given : Given) (name : Bytes) : Bytes :=
  let style := given.named? "quoting-style"
  let escaped (quotes : Bool) (name : Bytes) : Bytes := name.flatMap fun c =>
    if c = 92 then [92, 92]
    else if c = 34 && quotes then [92, 34]
    else if c = 32 && !quotes then [92, 32]
    else match [(7, 'a'), (8, 'b'), (12, 'f'), (10, 'n'), (13, 'r'), (9, 't'), (11, 'v')].lookup c with
      | some letter => [92, letter.toUInt8]
      | none => if 32 ≤ c && c < 127 then [c]
        else 92 :: (Nat.toDigits 8 (512 + c.toNat)).tail.map Char.toUInt8
  if given.has 'Q' || style == some (utf8 "c") then utf8 "\"" ++ escaped true name ++ utf8 "\""
  else if given.has 'b' || style == some (utf8 "escape") then escaped false name
  else if style == some (utf8 "shell") then shownName name
  else if style == some (utf8 "shell-always") then quotedName name
  else if given.has 'q' then name.map fun c => if 32 ≤ c && c < 127 then c else '?'.toUInt8
  else name

def nameMark (machine : Machine) (given : Given) (entry : Listed) : Bytes :=
  let style := given.named? "indicator-style"
  let classifies := given.has 'F' || style == some (utf8 "classify")
  let typed := classifies || given.hasNamed "file-type" || style == some (utf8 "file-type")
  let slashes := typed || given.has 'p' || style == some (utf8 "slash")
  match entry.node with
  | .directory => if slashes then [Path.slash] else []
  | .link _ => if typed then utf8 "@" else []
  | .pipe => if typed then utf8 "|" else []
  | node => if classifies && Permissions.isExecutable (machine.modeAt entry.place node) then utf8 "*" else []

/-- Where each name belongs in the order that is asked for. -/
def sorted (machine : Machine) (given : Given) (entries : List Listed) : List Listed :=
  let wanted := given.named? "sort"
  let way := match wanted, given.lastOf? "StUXvf" with
    | some name, _ =>
      [("size", 'S'), ("time", 't'), ("none", 'U'), ("extension", 'X'), ("version", 'v')].findSome?
        fun (word, letter) => if utf8 word = name then some letter else none
    | none, way => way
  let names (a b : Listed) : Ordering :=
    if a.name = b.name then .eq else if Bytes.le a.name b.name then .lt else .gt
  let order (a b : Listed) : Ordering := match way with
    | some 'S' => (compareOfLessAndEq b.size a.size).then (names a b)
    | some 't' =>
      (compareOfLessAndEq (machine.changedAt b.place) (machine.changedAt a.place)).then (names a b)
    | some 'X' =>
      (if a.ending = b.ending then Ordering.eq
        else if Bytes.le a.ending b.ending then .lt else .gt).then (names a b)
    | some 'v' => (Version.compare a.name b.name).then (names a b)
    | _ => names a b
  let entries := entries.mergeSort fun a b => order a b != .gt
  let entries := if given.has 'r' then entries.reverse else entries
  if given.hasNamed "group-directories-first" then
    let isFirst (entry : Listed) : Bool := entry.isDirectory || entry.target == some .directory
    entries.filter isFirst ++ entries.filter (!isFirst ·)
  else entries

def entriesIn (machine : Machine) (given : Given) (place : List Bytes) : List Listed :=
  let all := given.has 'a' || given.has 'f'
  let isHidden (name : Bytes) : Bool := name.head? == some '.'.toUInt8
  let isIgnored (name : Bytes) : Bool :=
    (given.has 'B' && name.getLast? == some '~'.toUInt8) ||
      (given.values 'I').any (fun pattern => (Pattern.ofText pattern).accepts name) ||
      (!all && !given.has 'A' &&
        (given.namedValues "hide").any fun pattern => (Pattern.ofText pattern).accepts name)
  let names := (machine.files.namesIn place).filter fun name =>
    (all || given.has 'A' || !isHidden name) && !isIgnored name
  let inner := names.filterMap fun name =>
    let place := place ++ [name]
    (machine.files.node? place).map fun node =>
      let target := match node with
        | .link _ => (machine.files.find? (Machine.pathOf place.dropLast) name).toOption
        | _ => none
      match given.has 'L', target with
      | true, some target => ({ name, place, node := target } : Listed)
      | _, target => { name, place, node, target }
  let dots := if all then
      [({ name := Path.dot, place, node := .directory } : Listed),
        { name := Path.dotDot, place := place.dropLast, node := .directory }]
    else []
  sorted machine given (dots ++ inner)

def timeText (machine : Machine) (given : Given) (time : Int) : Bytes :=
  let moment : Calendar.Moment :=
    { seconds := time.fdiv 1000000, nanoseconds := ((time.fmod 1000000) * 1000).toNat }
  let style := if given.hasNamed "full-time" then some (utf8 "full-iso") else given.named? "time-style"
  let age := machine.clock - time
  let isRecent := age < 15778476000000 && -1000000 ≤ age
  match style with
  | some style =>
    if style = utf8 "full-iso" then moment.text (utf8 "%Y-%m-%d %H:%M:%S.%N %z")
    else if style = utf8 "long-iso" then moment.text (utf8 "%Y-%m-%d %H:%M")
    else if style = utf8 "iso" then moment.text (utf8 (if isRecent then "%m-%d %H:%M" else "%Y-%m-%d "))
    else if style.head? = some '+'.toUInt8 then moment.text (style.drop 1)
    else moment.text (utf8 (if isRecent then "%b %e %H:%M" else "%b %e  %Y"))
  | none => moment.text (utf8 (if isRecent then "%b %e %H:%M" else "%b %e  %Y"))

def fileNumber (entry : Listed) : Nat := 1000 + entry.place.flatten.foldl (fun n c => n + c.toNat) 0

def padLeft (width : Nat) (text : Bytes) : Bytes := List.replicate (width - text.length) 32 ++ text

def padRight (width : Nat) (text : Bytes) : Bytes := text ++ List.replicate (width - text.length) 32

def widest (texts : List Bytes) : Nat := (texts.map List.length).foldl max 0

def sizeText (given : Given) (n : Nat) : Bytes :=
  if given.has 'h' then humanSize 1024 n
  else if given.hasNamed "si" then humanSize 1000 n
  else Bytes.decimal n

/-- What stands before each name if that is asked for: numbers and blocks. -/
def fronts (given : Given) (entries : List Listed) : List Bytes :=
  let numbers := entries.map fun entry => Bytes.decimal (fileNumber entry)
  let blocks := entries.map fun entry =>
    if given.has 'h' then sizeText given (1024 * entry.blocks) else Bytes.decimal entry.blocks
  let column (isShown : Bool) (texts : List Bytes) : List Bytes :=
    texts.map fun text => if isShown then padLeft (widest texts) text ++ [32] else []
  ((column (given.has 'i') numbers).zip (column (given.has 's') blocks)).map fun (a, b) => a ++ b

/-- The lines that tell all of some files. -/
def longLines (machine : Machine) (given : Given) (entries : List Listed) : List Bytes :=
  let column (right : Bool) (text : Listed → Bytes) : List Bytes :=
    let texts := entries.map text
    let width := widest texts
    texts.map fun text => if right then padLeft width text else padRight width text
  let columns : List (List Bytes) := [
    entries.map fun entry => Permissions.letters (Permissions.kindOf entry.node)
      (machine.modeAt entry.place entry.node),
    column true fun entry => Bytes.decimal (entry.links machine)] ++
    (if given.has 'g' then [] else
      [column false fun _ => utf8 (if given.has 'n' then "0" else "root")]) ++
    (if given.has 'o' || given.has 'G' then [] else
      [column false fun _ => utf8 (if given.has 'n' then "0" else "root")]) ++
    [column true fun entry => sizeText given entry.size,
     column true fun entry => timeText machine given (machine.changedAt entry.place)]
  let names := entries.map fun entry =>
    match entry.node with
    | .link target =>
      let mark := match entry.target with
        | some node => nameMark machine given { entry with node }
        | none => []
      shown given entry.name ++ utf8 " -> " ++ shown given target ++ mark
    | _ => shown given entry.name ++ nameMark machine given entry
  ((fronts given entries).zip names).zipIdx.map fun ((front, name), index) =>
    front ++ Bytes.join [32] (columns.map (·.getD index []) ++ [name])

/-- The columns in which names fit best: the widths. -/
def columnWidths (byRows : Bool) (width : Nat) (lengths : List Nat) : List Nat :=
  let count := lengths.length
  let most := max 1 (min count (max 1 (width / 3)))
  let widths (columns : Nat) : List Nat :=
    let rows := (count + columns - 1) / columns
    (List.range columns).map fun column =>
      let own := lengths.zipIdx.filter fun (_, index) =>
        (if byRows then index % columns else index / rows) == column
      let longest := (own.map Prod.fst).foldl max 0
      if column + 1 = columns then max 3 longest else max 3 (longest + 2)
  let fits (columns : Nat) : Bool := (widths columns).foldl (· + ·) 0 < width
  let best := ((List.range most).map (· + 1)).reverse.find? fits
  widths (best.getD 1)

/-- Blanks and tabs from one column to another. -/
def indent (start goal : Nat) : (fuel : Nat) → Bytes
  | 0 => []
  | fuel + 1 =>
    if goal ≤ start then []
    else if (start + 1) / 8 < goal / 8 then 9 :: indent ((start / 8 + 1) * 8) goal fuel
    else 32 :: indent (start + 1) goal fuel

def inColumns (byRows : Bool) (width : Nat) (names : List Bytes) : List Bytes :=
  let widths := columnWidths byRows width (names.map List.length)
  let columns := widths.length
  let rows := (names.length + columns - 1) / columns
  (List.range rows).map fun row =>
    let indices := if byRows then (List.range columns).map (· + row * columns)
      else (List.range columns).map fun column => row + column * rows
    let cells := indices.filterMap (names[·]?)
    (cells.zipIdx.foldl (fun (line, used, start) (cell, column) =>
      (line ++ indent used start (start + 1) ++ cell, start + cell.length,
        start + widths.getD column 0)) (([] : Bytes), 0, 0)).1

/-- Names with commas between them, on lines that are not too wide. -/
def withCommas (width : Nat) (names : List Bytes) : Bytes :=
  let (text, _, _) := names.foldl (fun (text, column, isFirst) name =>
    if isFirst then (text ++ name, name.length, false)
    else if width = 0 ∨ column + name.length + 2 < width then
      (text ++ utf8 ", " ++ name, column + name.length + 2, false)
    else (text ++ utf8 ",\n" ++ name, name.length, false)) (([] : Bytes), 0, true)
  if names.isEmpty then [] else text ++ [10]

def text (machine : Machine) (given : Given) (width : Nat) (entries : List Listed) : Bytes :=
  let format := match given.named? "format", given.lastOf? "1lgonCxm" with
    | some name, _ =>
      ([("long", 'l'), ("verbose", 'l'), ("commas", 'm'), ("horizontal", 'x'), ("across", 'x'),
        ("vertical", 'C'), ("single-column", '1')].findSome? fun (word, letter) =>
        if utf8 word = name then some letter else none).getD '1'
    | none, some letter => letter
    | none, none => if given.hasNamed "full-time" then 'l' else '1'
  let names := ((fronts given entries).zip entries).map fun (front, entry) =>
    front ++ shown given entry.name ++ nameMark machine given entry
  let isLong := (utf8 "lgon").contains format.toUInt8 ||
    (format == '1' && (given.has 'l' || given.has 'g' || given.has 'o' || given.has 'n'))
  if isLong then textOfLines (longLines machine given entries)
  else if format = 'm' then withCommas width names
  else if (format = 'C' ∨ format = 'x') ∧ width ≠ 0 then
    textOfLines (inColumns (format == 'x') width names)
  else if format = 'C' ∨ format = 'x' then
    if names.isEmpty then [] else Bytes.join (utf8 "  ") names ++ [10]
  else textOfLines names

/-- The sum of the blocks of some files, where that is shown. -/
def total (given : Given) (entries : List Listed) : Bytes :=
  let isLong := given.has 'l' || given.has 'g' || given.has 'o' || given.has 'n' || given.has 's' ||
    given.hasNamed "full-time"
  let sum := (entries.map Listed.blocks).foldl (· + ·) 0
  if isLong then
    utf8 "total " ++ (if given.has 'h' then sizeText given (1024 * sum) else Bytes.decimal sum) ++ [10]
  else []

/-- Lists directories one after the other, with those below them if that is wanted. -/
def blocks (machine : Machine) (given : Given) (width : Nat) :
    (fuel : Nat) → List (Bytes × List Bytes) → List (Bytes × Bytes)
  | 0, _ => []
  | _, [] => []
  | fuel + 1, (name, place) :: rest =>
    let entries := entriesIn machine given place
    let below := entries.filter fun entry =>
      entry.isDirectory && entry.name != Path.dot && entry.name != Path.dotDot
    let deeper := if given.has 'R' then
        below.map fun entry => (Path.append name entry.name, entry.place)
      else []
    (name, total given entries ++ text machine given width entries) ::
      blocks machine given width fuel (deeper ++ rest)

end Listing

def listTable : OptionTable :=
  { flags := "1aAbBcCdfFgGhHiklLmnNopqQrRsStuUvxXZ", valued := "ITw"
    long := [("all", 'a'), ("almost-all", 'A'), ("escape", 'b'), ("ignore-backups", 'B'),
      ("directory", 'd'), ("no-group", 'G'), ("human-readable", 'h'), ("inode", 'i'), ("ignore", 'I'),
      ("kibibytes", 'k'), ("dereference", 'L'), ("numeric-uid-gid", 'n'), ("literal", 'N'),
      ("hide-control-chars", 'q'), ("quote-name", 'Q'), ("reverse", 'r'), ("recursive", 'R'),
      ("size", 's'), ("tabsize", 'T'), ("width", 'w')]
    longOnly := [("classify", .optional), ("color", .optional), ("file-type", .none),
      ("format", .required), ("full-time", .none), ("group-directories-first", .none),
      ("hide", .required), ("indicator-style", .required), ("quoting-style", .required),
      ("show-control-chars", .none), ("si", .none), ("sort", .required), ("time", .required),
      ("time-style", .required), ("zero", .none), ("author", .none), ("hyperlink", .optional),
      ("dereference-command-line", .none)] }

/-- The program that lists directories, in a format if none is asked for. -/
def listing (usual : String) : Utility := fun call =>
  let arguments := if usual.isEmpty then call.arguments else utf8 usual :: call.arguments
  ({ call with arguments } : Call).withOptions listTable 2 fun given => do
    let given := if given.hasNamed "classify" then { given with options := given.options ++ [(70, [])] }
      else given
    let machine ← Act.look id
    let width := ((given.number? 'w').or
      (((call.environment.get? (utf8 "COLUMNS")).filter Bytes.allDigits).map Bytes.digitsValue)).getD 80
    let names := if given.operands.isEmpty then [Path.dot] else given.operands
    let mut status := 0
    let mut files : List Listed := []
    let mut directories : List Listed := []
    let isLong := given.has 'l' || given.has 'g' || given.has 'o' || given.has 'n'
    for name in names do
      let found : Except FileCause (List Bytes × Option FileNode) :=
        match if given.has 'F' || given.has 'd' || (isLong && !given.has 'H' && !given.has 'L')
          then .error .notFound
          else machine.files.locate call.directory name with
        | .ok place => .ok (place, machine.files.node? place)
        | .error cause => match entryAt machine call.directory name with
          | .ok (place, some node) => .ok (place, some node)
          | .ok (_, none) => .error .notFound
          | .error _ => .error cause
      match found with
      | .ok (place, some node) =>
        let target := match node with
          | .link _ => (machine.files.find? call.directory name).toOption
          | _ => none
        let entry : Listed := { name, place, node, target }
        if node = .directory ∧ !given.has 'd' then directories := directories ++ [entry]
        else files := files ++ [entry]
      | .ok (_, none) =>
        call.complain (utf8 "cannot access " ++ quotedName name ++ utf8 ": No such file or directory")
        status := 2
      | .error cause =>
        call.complain (utf8 "cannot access " ++ quotedName name ++ utf8 ": " ++ utf8 cause.message)
        status := 2
    let single := Listing.sorted machine given files
    let places := (Listing.sorted machine given directories).map fun entry => (entry.name, entry.place)
    let blocks := Listing.blocks machine given width 10000 places
    let titled := 1 < names.length || given.has 'R'
    let texts := (if single.isEmpty then [] else [Listing.text machine given width single]) ++
      blocks.map fun (name, text) => (if titled then name ++ utf8 ":\n" else []) ++ text
    let output := Bytes.join [10] texts
    call.print (if given.hasNamed "zero" then output.map fun c => if c = 10 then 0 else c else output)
      status

/-! ## What is known of a file -/

/-- The text of a format for a file. `fuel` bounds the bytes. -/
def statText (machine : Machine) (escapes : Bool) (entry : Listed) : (fuel : Nat) → Bytes → Bytes
  | 0, _ => []
  | _, [] => []
  | fuel + 1, c :: rest =>
    if c = 92 ∧ escapes then
      match Format.readEscape { afterZero := false, hex := true, plain := [34], ends := false } rest with
      | .bytes bytes rest => bytes ++ statText machine escapes entry fuel rest
      | .ends | .faulty _ => []
    else if c ≠ '%'.toUInt8 then c :: statText machine escapes entry fuel rest
    else
      let flags := rest.takeWhile fun d => (utf8 "-+ #0.").contains d || Bytes.isDigit d
      match rest.drop flags.length with
      | [] => c :: rest
      | d :: more =>
        let mode := machine.modeAt entry.place entry.node
        let time := machine.changedAt entry.place
        let moment : Calendar.Moment :=
          { seconds := time.fdiv 1000000, nanoseconds := ((time.fmod 1000000) * 1000).toNat }
        let decimal (n : Nat) : Option Bytes := some (Bytes.decimal n)
        let kind := Permissions.kindOf entry.node
        let stamp := moment.text (utf8 "%Y-%m-%d %H:%M:%S.%N %z")
        let kindBits : Nat := match kind with
          | 'd' => 16384
          | 'l' => 40960
          | 'p' => 4096
          | _ => 32768
        let found : Option Bytes := match Char.ofNat d.toNat with
          | 'a' => some (Permissions.digits mode)
          | 'A' => some (Permissions.letters kind mode)
          | 'b' => decimal (2 * entry.blocks)
          | 'B' => decimal 512
          | 'd' => decimal 64
          | 'f' => some ((Nat.toDigits 16 (kindBits + mode)).map Char.toUInt8)
          | 'F' => some (utf8 (match entry.node with
            | .file content _ => if content.isEmpty then "regular empty file" else "regular file"
            | .directory => "directory"
            | .link _ => "symbolic link"
            | .pipe => "fifo"))
          | 'g' | 'u' => some (utf8 "0")
          | 'G' | 'U' => some (utf8 "root")
          | 'h' => decimal (entry.links machine)
          | 'i' => decimal (Listing.fileNumber entry)
          | 'n' => some entry.name
          | 'N' => some (quotedName entry.name ++ match entry.node with
            | .link target => utf8 " -> " ++ quotedName target
            | _ => [])
          | 'o' => decimal 4096
          | 's' => decimal entry.size
          | 't' | 'T' => some (utf8 "0")
          | 'x' | 'y' | 'z' => some stamp
          | 'X' | 'Y' | 'Z' => some (moment.text (utf8 "%s"))
          | 'w' => some (utf8 "-")
          | 'W' => some (utf8 "0")
          | '%' => some (utf8 "%")
          | _ => none
        match found with
        | some text =>
          let width := Bytes.digitsValue (flags.dropWhile fun d => !Bytes.isDigit d || d == 48)
          let fill := List.replicate (width - text.length)
            (if flags.head? = some '0'.toUInt8 then (48 : UInt8) else 32)
          (if flags.contains '-'.toUInt8 then text ++ fill else fill ++ text) ++
            statText machine escapes entry fuel more
        | none => 63 :: statText machine escapes entry fuel more

/-- What is shown of a file without a format. -/
def statUsual : Bytes :=
  utf8 "  File: %N\n  Size: %-10s\tBlocks: %-10b IO Block: %-6o %F\nDevice: 0,%d\tInode: %-11i Links: %h\n" ++
    utf8 "Access: (%04a/%10A)  Uid: (%5u/%8U)   Gid: (%5g/%8G)\nAccess: %x\nModify: %y\nChange: %z\n" ++
    utf8 " Birth: %w\n"

def stat : Utility := fun call =>
  let table : OptionTable :=
    { flags := "Lft", valued := "c", long := [("dereference", 'L'), ("file-system", 'f'), ("format", 'c'),
        ("terse", 't')], longOnly := [("printf", .required)] }
  call.withOptions table 1 fun given => do
    if given.operands.isEmpty then call.misuse (utf8 "missing operand") 1
    else
      let mut status := 0
      for name in given.operands do
        let machine ← Act.look id
        let found : Except FileCause (List Bytes × Option FileNode) :=
          if given.has 'L' then
            (machine.files.locate call.directory name).map fun place => (place, machine.files.node? place)
          else entryAt machine call.directory name
        let fail (cause : FileCause) : Act Unit :=
          call.complain (utf8 "cannot statx " ++ quotedName name ++ utf8 ": " ++ utf8 cause.message)
        match found with
        | .ok (place, some node) =>
          let entry : Listed := { name, place, node }
          let text (escapes : Bool) (format : Bytes) : Bytes :=
            statText machine escapes entry (format.length + 1) format
          let _ ← call.put (match given.named? "printf", given.value? 'c' with
            | some format, _ => text true format
            | none, some format => text false format ++ [10]
            | none, none => text false statUsual)
        | .ok (_, none) =>
          fail .notFound
          status := 1
        | .error cause =>
          fail cause
          status := 1
      return status

/-! ## Room -/

/-- The sizes of directories and files, those below come first. -/
def diskSizes (machine : Machine) (given : Given) : (fuel : Nat) → (depth : Nat) → (path : Bytes) →
    (place : List Bytes) → Nat × List (Nat × Nat × Bytes)
  | 0, _, _, _ => (0, [])
  | fuel + 1, depth, path, place =>
    match machine.files.node? place with
    | none => (0, [])
    | some node =>
      let entry : Listed := { name := path, place, node }
      let apparent := given.has 'b' || given.hasNamed "apparent-size"
      let own := if !apparent then 1024 * entry.blocks
        else if node = .directory then 0 else entry.size
      let names := (machine.files.namesIn place).mergeSort Bytes.le
      let (sum, rows) := names.foldl (fun (sum, rows) name =>
        let (size, more) := diskSizes machine given fuel (depth + 1) (Path.append path name)
          (place ++ [name])
        (sum + size, rows ++ more)) (own, [])
      let isShown := node == .directory || given.has 'a' || depth == 0
      (sum, if isShown then rows ++ [(depth, sum, path)] else rows)

def du : Utility := fun call =>
  let table : OptionTable :=
    { flags := "abchHklLmPsSx0", valued := "dBt"
      long := [("all", 'a'), ("bytes", 'b'), ("total", 'c'), ("human-readable", 'h'), ("summarize", 's'),
        ("max-depth", 'd'), ("block-size", 'B'), ("null", '0')]
      longOnly := [("apparent-size", .none), ("si", .none), ("exclude", .required)] }
  call.withOptions table 1 fun given => do
    let machine ← Act.look id
    let names := if given.operands.isEmpty then [Path.dot] else given.operands
    let most := if given.has 's' then some 0 else given.number? 'd'
    let unit := if given.has 'b' then 1 else if given.has 'm' then 1048576 else 1024
    let shown (n : Nat) : Bytes :=
      if given.has 'h' then Listing.humanSize 1024 n else Bytes.decimal ((n + unit - 1) / unit)
    let mut status := 0
    let mut total := 0
    let mut seen : List (List Bytes) := []
    for name in names do
      match entryAt machine call.directory name with
      | .ok (place, some _) =>
        if seen.any (·.isPrefixOf place) then continue
        seen := place :: seen
        let (sum, rows) := diskSizes machine given 100 0 name place
        total := total + sum
        for (depth, size, path) in rows do
          if most.all (depth ≤ ·) then
            let _ ← call.put (shown size ++ [9] ++ path ++ [if given.has '0' then 0 else 10])
      | .ok (_, none) =>
        call.complain (utf8 "cannot access " ++ quotedName name ++ utf8 ": No such file or directory")
        status := 1
      | .error cause =>
        call.complain (utf8 "cannot access " ++ quotedName name ++ utf8 ": " ++ utf8 cause.message)
        status := 1
    if given.has 'c' then let _ ← call.put (shown total ++ utf8 "\ttotal\n")
    return status

/-- The utilities of this kind by name. -/
def listings : List (String × Utility) :=
  [("dir", listing "-C"), ("du", du), ("ls", listing ""), ("stat", stat), ("vdir", listing "-l")]

end ShellCompletion.Utility
