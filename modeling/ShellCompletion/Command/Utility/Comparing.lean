import ShellCompletion.Command.Calendar
import ShellCompletion.Command.Utility.Basic

/-!
# Comparing files

The standard programs that tell whether two files are the same, byte by byte or line by line, and how
one can be made out of the other. The lines that two files have in common are as many as can be.
-/
namespace ShellCompletion.Utility

/-! ## Lines in common -/

/-- The lengths of the longest common parts of two lists of lines from each pair of places on. -/
def commonLengths (a b : Array Bytes) : Array (Array Nat) :=
  let empty : Array Nat := Array.replicate (b.size + 1) 0
  let (rows, _) := (List.range a.size).reverse.foldl (fun (rows, below) i =>
    let row := (List.range b.size).reverse.foldl (fun (row : Array Nat) j =>
      let length := if a[i]? == b[j]? then (below : Array Nat)[j + 1]?.getD 0 + 1
        else max (below[j]?.getD 0) (row[j + 1]?.getD 0)
      row.set! j length) empty
    (row :: rows, row)) ([empty], empty)
  rows.toArray

/-- Which lines of two files are not in common. -/
def changedLines (a b : Array Bytes) (lengths : Array (Array Nat)) : (fuel i j : Nat) →
    List Nat × List Nat
  | 0, _, _ => ([], [])
  | fuel + 1, i, j =>
    let length (i j : Nat) : Nat := (lengths[i]?.getD #[])[j]?.getD 0
    if a.size ≤ i then ([], (List.range (b.size - j)).map (· + j))
    else if b.size ≤ j then ((List.range (a.size - i)).map (· + i), [])
    else if a[i]? == b[j]? then changedLines a b lengths fuel (i + 1) (j + 1)
    else if length i (j + 1) ≤ length (i + 1) j then
      let (first, second) := changedLines a b lengths fuel (i + 1) j
      (i :: first, second)
    else
      let (first, second) := changedLines a b lengths fuel i (j + 1)
      (first, j :: second)

/-- A part that differs: lines of the first file, from one up to another, and lines of the second. -/
structure Difference where
  first : Nat
  firstEnd : Nat
  second : Nat
  secondEnd : Nat
deriving Repr

/-- The parts in which the lines that are not in common lie. -/
def differences (first second : List Nat) (sizeA sizeB : Nat) : (fuel i j : Nat) → List Difference
  | 0, _, _ => []
  | fuel + 1, i, j =>
    if sizeA ≤ i ∧ sizeB ≤ j then []
    else
      let runA := ((List.range (sizeA - i)).map (· + i)).takeWhile first.contains
      let runB := ((List.range (sizeB - j)).map (· + j)).takeWhile second.contains
      if runA.isEmpty && runB.isEmpty then differences first second sizeA sizeB fuel (i + 1) (j + 1)
      else
        ⟨i, i + runA.length, j, j + runB.length⟩ ::
          differences first second sizeA sizeB fuel (i + runA.length) (j + runB.length)

/-- A part that only one file has is moved on as long as the line after it is the one it starts with. -/
def slide (a : Array Bytes) (limit : Nat) : (fuel start ending moved : Nat) → Nat
  | 0, _, _, moved => moved
  | fuel + 1, start, ending, moved =>
    if ending < limit && a[start]? == a[ending]? then slide a limit fuel (start + 1) (ending + 1) (moved + 1)
    else moved

/-- The parts with those that only one file has moved to the latest places. -/
def settled (a b : Array Bytes) : List Difference → List Difference
  | [] => []
  | part :: rest =>
    let (limitA, limitB) := match rest with
      | next :: _ => (next.first, next.second)
      | [] => (a.size, b.size)
    let moved := if part.second = part.secondEnd then slide a limitA a.size part.first part.firstEnd 0
      else if part.first = part.firstEnd then slide b limitB b.size part.second part.secondEnd 0
      else 0
    let part : Difference :=
      ⟨part.first + moved, part.firstEnd + moved, part.second + moved, part.secondEnd + moved⟩
    match settled a b rest with
    | next :: more =>
      if part.firstEnd = next.first ∧ part.secondEnd = next.second then
        ⟨part.first, next.firstEnd, part.second, next.secondEnd⟩ :: more
      else part :: next :: more
    | [] => [part]

/-- The parts in which two lists of lines differ. -/
def differencesOf (a b : Array Bytes) : List Difference :=
  let (first, second) := changedLines a b (commonLengths a b) (a.size + b.size + 1) 0 0
  settled a b (differences first second a.size b.size (a.size + b.size + 1) 0 0)

/-! ## Showing differences -/

/-- The lines of a text, and whether the last one has no line feed. -/
def linesAndEnd (text : Bytes) : Array Bytes × Bool :=
  ((linesOf text).toArray, !text.isEmpty && text.getLast? != some 10)

def markedLines (lines : Array Bytes × Bool) (mark : Bytes) (start ending : Nat) : Bytes :=
  (List.range (ending - start)).flatMap fun k =>
    let index := start + k
    mark ++ lines.1[index]?.getD [] ++ [10] ++
      if lines.2 && index + 1 == lines.1.size then utf8 "\\ No newline at end of file\n" else []

/-- The numbers of lines from one up to another; of none, the one before. -/
def lineRange (start ending : Nat) : Bytes :=
  if ending = start then Bytes.decimal start
  else if ending = start + 1 then Bytes.decimal ending
  else Bytes.decimal (start + 1) ++ [44] ++ Bytes.decimal ending

def normalText (a b : Array Bytes × Bool) (parts : List Difference) : Bytes :=
  parts.flatMap fun part =>
    let hasFirst := part.first < part.firstEnd
    let hasSecond := part.second < part.secondEnd
    let letter := if hasFirst && hasSecond then 'c' else if hasFirst then 'd' else 'a'
    lineRange part.first part.firstEnd ++ [letter.toUInt8] ++ lineRange part.second part.secondEnd ++
      [10] ++ markedLines a (utf8 "< ") part.first part.firstEnd ++
      (if hasFirst && hasSecond then utf8 "---\n" else []) ++
      markedLines b (utf8 "> ") part.second part.secondEnd

/-- Parts that are shown together, as the lines around them meet. -/
def hunks (context : Nat) : List Difference → List (List Difference)
  | [] => []
  | part :: rest =>
    match hunks context rest with
    | (next :: more) :: others =>
      if next.first ≤ part.firstEnd + 2 * context then (part :: next :: more) :: others
      else [part] :: (next :: more) :: others
    | others => [part] :: others

/-- The numbers of lines with how many they are. -/
def hunkRange (start ending : Nat) : Bytes :=
  if ending = start + 1 then Bytes.decimal ending
  else if ending = start then Bytes.decimal start ++ utf8 ",0"
  else Bytes.decimal (start + 1) ++ [44] ++ Bytes.decimal (ending - start)

def unifiedText (context : Nat) (a b : Array Bytes × Bool) (parts : List Difference) : Bytes :=
  (hunks context parts).flatMap fun hunk =>
    match hunk.head?, hunk.getLast? with
    | some first, some last =>
      let before := min context first.first
      let after := min context (a.1.size - last.firstEnd)
      let header := utf8 "@@ -" ++ hunkRange (first.first - before) (last.firstEnd + after) ++ utf8 " +" ++
        hunkRange (first.second - before) (last.secondEnd + after) ++ utf8 " @@\n"
      let (body, place) := hunk.foldl (fun (body, place) part =>
        (body ++ markedLines a [32] place part.first ++
          markedLines a [45] part.first part.firstEnd ++
          markedLines b [43] part.second part.secondEnd, part.firstEnd))
        (([] : Bytes), first.first - before)
      header ++ body ++ markedLines a [32] place (last.firstEnd + after)
    | _, _ => []

/-- One side of a part that is shown with the lines around it. -/
def contextSide (lines : Array Bytes × Bool) (start ending : Nat) (ranges : List (Nat × Nat × Bool))
    (mark : UInt8) : Bytes :=
  if ranges.all fun (first, last, _) => first = last then []
  else
    let (body, place) := ranges.foldl (fun (body, place) (first, last, both) =>
      (body ++ markedLines lines (utf8 "  ") place first ++
        markedLines lines [if both then 33 else mark, 32] first last, last)) (([] : Bytes), start)
    body ++ markedLines lines (utf8 "  ") place ending

def contextText (context : Nat) (a b : Array Bytes × Bool) (parts : List Difference) : Bytes :=
  (hunks context parts).flatMap fun hunk =>
    match hunk.head?, hunk.getLast? with
    | some first, some last =>
      let before := min context first.first
      let after := min context (a.1.size - last.firstEnd)
      let both (part : Difference) : Bool := part.first < part.firstEnd && part.second < part.secondEnd
      let range (start ending : Nat) : Bytes :=
        if ending ≤ start + 1 then Bytes.decimal ending
        else Bytes.decimal (start + 1) ++ [44] ++ Bytes.decimal ending
      utf8 "***************\n*** " ++ range (first.first - before) (last.firstEnd + after) ++ utf8 " ****\n" ++
        contextSide a (first.first - before) (last.firstEnd + after)
          (hunk.map fun part => (part.first, part.firstEnd, both part)) 45 ++
        utf8 "--- " ++ range (first.second - before) (last.secondEnd + after) ++ utf8 " ----\n" ++
        contextSide b (first.second - before) (last.secondEnd + after)
          (hunk.map fun part => (part.second, part.secondEnd, both part)) 43
    | _, _ => []

def countedLine (given : Given) (line : Bytes) : Bytes :=
  let line := if given.has 'i' then Bytes.lower line else line
  if given.has 'w' then line.filter (!Bytes.isSpace ·)
  else if given.has 'b' then
    let trimmed := (line.reverse.dropWhile Bytes.isSpace).reverse
    (trimmed.splitBy fun a b => Bytes.isSpace a == Bytes.isSpace b).flatMap fun part =>
      if part.head?.any Bytes.isSpace then [32] else part
  else if given.has 'Z' then (line.reverse.dropWhile Bytes.isSpace).reverse
  else line

def diffTable : OptionTable :=
  { flags := "abBcdeEiNnpqrsTtuwyZ0123456789", valued := "CIUxLFW"
    long := [("brief", 'q'), ("report-identical-files", 's'), ("ignore-case", 'i'),
      ("ignore-all-space", 'w'), ("ignore-space-change", 'b'), ("ignore-blank-lines", 'B'),
      ("ignore-trailing-space", 'Z'), ("recursive", 'r'), ("new-file", 'N'), ("text", 'a'),
      ("minimal", 'd'), ("label", 'L'), ("exclude", 'x')]
    longOnly := [("unified", .optional), ("context", .optional), ("normal", .none),
      ("color", .optional), ("strip-trailing-cr", .none), ("side-by-side", .none)] }

/-- A file that is compared: its name, its text, and when it was changed. -/
structure Compared where
  name : Bytes
  text : Bytes
  time : Int

def compareTexts (given : Given) (shownOptions : Bytes) (first second : Compared) : Bytes × Nat :=
  let isBinary (text : Bytes) : Bool := !given.has 'a' && text.contains 0
  let (a, b) := (linesAndEnd first.text, linesAndEnd second.text)
  let key (lines : Array Bytes × Bool) : Array Bytes :=
    let keys := lines.1.map (countedLine given)
    let ignoresEnd := given.has 'w' || given.has 'b' || given.has 'Z'
    if lines.2 && !ignoresEnd then keys.modify (keys.size - 1) (· ++ [10, 0]) else keys
  let same := utf8 "Files " ++ first.name ++ utf8 " and " ++ second.name
  if first.text = second.text then
    (if given.has 's' then same ++ utf8 " are identical\n" else [], 0)
  else if isBinary first.text || isBinary second.text then
    (if given.has 'q' then same ++ utf8 " differ\n"
      else utf8 "Binary files " ++ first.name ++ utf8 " and " ++ second.name ++ utf8 " differ\n", 1)
  else
    let parts := differencesOf (key a) (key b)
    let isBlank (lines : Array Bytes) (start ending : Nat) : Bool :=
      (List.range (ending - start)).all fun k => (lines[start + k]?.getD []).isEmpty
    let parts := if given.has 'B' then parts.filter fun part =>
        !(isBlank a.1 part.first part.firstEnd && isBlank b.1 part.second part.secondEnd)
      else parts
    if parts.isEmpty then (if given.has 's' then same ++ utf8 " are identical\n" else [], 0)
    else if given.has 'q' then (same ++ utf8 " differ\n", 1)
    else
      let number (text : Option Bytes) : Option Nat := (text.filter Bytes.allDigits).map Bytes.digitsValue
      let digits := (given.options.map Prod.fst).filter Bytes.isDigit
      let context := ((number (given.value? 'U')).or ((number (given.named? "unified")).or
        ((number (given.value? 'C')).or ((number (given.named? "context")).or
        (if digits.isEmpty then none else some (Bytes.digitsValue digits)))))).getD 3
      let labels := given.values 'L'
      let header (mark : String) (index : Nat) (file : Compared) : Bytes :=
        let moment : Calendar.Moment :=
          { seconds := file.time.fdiv 1000000, nanoseconds := ((file.time.fmod 1000000) * 1000).toNat }
        utf8 mark ++ (labels[index]?).getD
          (file.name ++ [9] ++ moment.text (utf8 "%Y-%m-%d %H:%M:%S.%N %z")) ++ [10]
      let text := if given.has 'u' || given.has 'U' || given.hasNamed "unified" then
          header "--- " 0 first ++ header "+++ " 1 second ++ unifiedText context a b parts
        else if given.has 'c' || given.has 'C' || given.hasNamed "context" then
          header "*** " 0 first ++ header "--- " 1 second ++ contextText context a b parts
        else normalText a b parts
      (shownOptions ++ text, 1)

def comparedFile (call : Call) (given : Given) (name : Bytes) : Act (Except FileCause Compared) := do
  let time ← Act.look fun machine => match machine.files.locate call.directory name with
    | .ok place => machine.changedAt place
    | .error _ => machine.clock
  match ← call.contentOf name with
  | .ok text => return .ok ⟨name, text, time⟩
  | .error cause =>
    if cause = .notFound ∧ given.has 'N' then return .ok ⟨name, [], 0⟩ else return .error cause

def compareFiles (call : Call) (given : Given) (shownOptions first second : Bytes) : Act Nat := do
  match ← comparedFile call given first, ← comparedFile call given second with
  | .ok a, .ok b =>
    let (text, status) := compareTexts given shownOptions a b
    if !text.isEmpty then let _ ← call.put text
    return status
  | a, b =>
    for (name, result) in [(first, a), (second, b)] do
      if let .error cause := result then call.complainOf name cause
    return 2

def compareDirectories (call : Call) (given : Given) (shown : Bytes) : (fuel : Nat) →
    (first second : Bytes) → Act Nat
  | 0, _, _ => return 2
  | fuel + 1, first, second => do
    let tree ← Act.look (·.files)
    let names (path : Bytes) : List Bytes := match tree.locate call.directory path with
      | .ok place => tree.namesIn place
      | .error _ => []
    let (namesA, namesB) := (names first, names second)
    let all := ((namesA ++ namesB).eraseDups).mergeSort Bytes.le
    let all := all.filter fun name => !(given.values 'x').contains name
    let mut status := 0
    for name in all do
      let (a, b) := (Path.append first name, Path.append second name)
      let only (directory : Bytes) : Act Unit := do
        let _ ← call.put (utf8 "Only in " ++ directory ++ utf8 ": " ++ name ++ [10])
      let code ← if !namesB.contains name && !given.has 'N' then do
          only first
          pure 1
        else if !namesA.contains name && !given.has 'N' then do
          only second
          pure 1
        else
          let isDirectory (path : Bytes) : Bool := tree.isDirectory call.directory path
          if isDirectory a && isDirectory b then
            if given.has 'r' then compareDirectories call given shown fuel a b
            else do
              let _ ← call.put (utf8 "Common subdirectories: " ++ a ++ utf8 " and " ++ b ++ [10])
              pure 0
          else if isDirectory a != isDirectory b then do
            let kind (path : Bytes) : Bytes :=
              utf8 (if isDirectory path then "directory" else "regular file")
            let _ ← call.put (utf8 "File " ++ a ++ utf8 " is a " ++ kind a ++ utf8 " while file " ++ b ++
              utf8 " is a " ++ kind b ++ [10])
            pure 1
          else
            compareFiles call given (utf8 "diff" ++ shown ++ [32] ++ a ++ [32] ++ b ++ [10]) a b
      status := max status code
    return status

def diff : Utility := fun call =>
  call.withOptions diffTable 2 fun given => do
    match given.operands with
    | [] => call.misuse (utf8 "missing operand after 'diff'") 2
    | [name] => call.misuse (utf8 "missing operand after " ++ quotedName name) 2
    | [first, second] =>
      let tree ← Act.look (·.files)
      let isDirectory (path : Bytes) : Bool := tree.isDirectory call.directory path
      if isDirectory first && isDirectory second then
        let shown := (call.arguments.takeWhile fun word => word.head? == some 45).flatMap (32 :: ·)
        compareDirectories call given shown 50 first second
      else
        let inside (directory name : Bytes) : Bytes := Path.append directory (Path.fileName name)
        let (a, b) := if isDirectory first then (inside first second, second)
          else if isDirectory second then (first, inside second first)
          else (first, second)
        compareFiles call given [] a b
    | _ :: _ :: extra :: _ => call.misuse (utf8 "extra operand " ++ quotedName extra) 2

/-! ## Bytes -/

def cmpTable : OptionTable :=
  { flags := "bls", valued := "in"
    long := [("print-bytes", 'b'), ("verbose", 'l'), ("quiet", 's'), ("silent", 's'), ("bytes", 'n'),
      ("ignore-initial", 'i')] }

def cmp : Utility := fun call =>
  call.withOptions cmpTable 2 fun given => do
    match given.operands with
    | [] => call.misuse (utf8 "missing operand after 'cmp'") 2
    | first :: rest =>
      let second := rest.headD (utf8 "-")
      match ← call.contentOf first, ← call.contentOf second with
      | .ok a, .ok b =>
        let skipped (index : Nat) : Nat :=
          let parts := Bytes.fields 58 ((given.value? 'i').getD (utf8 "0"))
          Bytes.digitsValue (parts.getD index (parts.headD []))
        let limit (text : Bytes) : Bytes := match given.number? 'n' with
          | some n => text.take n
          | none => text
        let (a, b) := (limit (a.drop (skipped 0)), limit (b.drop (skipped 1)))
        let pairs := (a.zip b).zipIdx
        let wrong := pairs.filter fun ((c, d), _) => c != d
        let octal (c : UInt8) : Bytes :=
          let digits := (Nat.toDigits 8 c.toNat).map Char.toUInt8
          List.replicate (3 - digits.length) 32 ++ digits
        let width := (Bytes.decimal (min a.length b.length)).length
        if given.has 's' then return if a = b then 0 else 1
        else if a = b then return 0
        else
          let short := if a.length < b.length then some (first, a.length, a)
            else if b.length < a.length then some (second, b.length, b)
            else none
          if given.has 'l' then
            let _ ← call.put (wrong.flatMap fun ((c, d), index) =>
              let digits := Bytes.decimal (index + 1)
              List.replicate (width - digits.length) 32 ++ digits ++ [32] ++ octal c ++ [32] ++ octal d ++
                [10])
            if let some (name, size, _) := short then
              call.complain (utf8 "EOF on " ++ name ++ utf8 " after byte " ++ Bytes.decimal size)
            return 1
          else match wrong.head?, short with
            | some ((c, d), index), _ =>
              let line := (a.take index).count 10 + 1
              let more := if given.has 'b' then
                  utf8 " is " ++ octal c ++ [32, c, 32] ++ octal d ++ [32, d]
                else []
              call.print (first ++ [32] ++ second ++ utf8 " differ: " ++
                utf8 (if given.has 'b' then "byte " else "byte ") ++
                Bytes.decimal (index + 1) ++ utf8 ", line " ++ Bytes.decimal line ++ more ++ [10]) 1
            | none, some (name, size, text) =>
              if size = 0 then call.complain (utf8 "EOF on " ++ shownEmpty name ++ utf8 " which is empty")
              else
                let lines := text.count 10
                let place := if text.getLast? = some 10 then
                    utf8 ", line " ++ Bytes.decimal lines
                  else utf8 ", in line " ++ Bytes.decimal (lines + 1)
                call.complain (utf8 "EOF on " ++ shownEmpty name ++ utf8 " after byte " ++
                  Bytes.decimal size ++ place)
              return 1
            | none, none => return 1
      | a, b =>
        let faults := [(first, a), (second, b)].filterMap fun (name, result) => match result with
          | .error cause => some (name, cause)
          | .ok _ => none
        if !given.has 's' then
          if let some (name, cause) := faults.head? then call.complainOf name cause
        return 2
where
  shownEmpty (name : Bytes) : Bytes := name

/-- The utilities of this kind by name. -/
def comparing : List (String × Utility) := [("cmp", cmp), ("diff", diff)]

end ShellCompletion.Utility
