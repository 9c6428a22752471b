import ShellCompletion.Command.Pattern
import ShellCompletion.Command.Regex.Perl
import ShellCompletion.Command.Utility.Basic

/-!
# Searching lines

The standard program that shows the lines of files in which an expression matches, with the lines
around them, or that tells how many there are and in which files.
-/
namespace ShellCompletion.Utility

/-- How lines are searched and shown. -/
structure Searching where
  regex : Regex
  preference : Regex.Preference := .longest
  inverted : Bool := false
  /-- Only what matches is shown, or nothing is. -/
  only : Bool := false
  silent : Bool := false
  /-- The search is over after so many lines, or after the first one. -/
  most : Option Nat := none
  brief : Bool := false
  /-- How many lines before and after one are shown. -/
  before : Nat := 0
  after : Nat := 0
  /-- What stands between groups of lines that do not follow one another, if there are groups. -/
  groupMark : Option Bytes := none
  numbers : Bool := false
  offsets : Bool := false
  colored : Bool := false
  /-- A tab stands in front of lines. -/
  tabbed : Bool := false
  /-- The byte that ends lines. -/
  ending : UInt8 := 10
  /-- A file with zero bytes is shown like others. -/
  text : Bool := false
  /-- The name that is shown in front of lines, and what stands after it. -/
  title : Option Bytes := none
  titleEnd : Option UInt8 := none

/-- What a search has come to. -/
structure SearchState where
  number : Nat := 0
  offset : Nat := 0
  /-- How many lines have been selected. -/
  count : Nat := 0
  /-- The lines before the next one, with their numbers and offsets, the last one first. -/
  waiting : List (Nat × Nat × Bytes) := []
  /-- How many of the next lines are still shown. -/
  left : Nat := 0
  /-- The last line that was shown. -/
  shown : Option Nat := none
  /-- A zero byte has been seen. -/
  binary : Bool := false
  done : Bool := false

namespace Searching

def painted (search : Searching) (color : String) (text : Bytes) : Bytes :=
  if search.colored && !text.isEmpty then
    utf8 "\x1b[" ++ utf8 color ++ utf8 "m\x1b[K" ++ text ++ utf8 "\x1b[m\x1b[K"
  else text

/-- What stands in front of a line or of a part of it. -/
def front (search : Searching) (separator : Char) (number offset : Nat) : Bytes :=
  let mark := search.painted "36" [separator.toUInt8]
  let name := match search.title with
    | none => []
    | some name => search.painted "35" name ++ match search.titleEnd with
      | some c => [c]
      | none => mark
  let part (isShown : Bool) (n : Nat) : Bytes :=
    if isShown then search.painted "32" (Bytes.decimal n) ++ mark else []
  let whole := name ++ part search.numbers number ++ part search.offsets offset
  if search.tabbed && !whole.isEmpty then whole ++ [9] else whole

def paintedLine (search : Searching) (line : Bytes) : Bytes :=
  let found := (search.regex.occurrences search.preference line).filter fun found => found.1 < found.2.1
  let (text, place) := found.foldl (fun (text, place) (start, ending, _) =>
    (text ++ (line.drop place).take (start - place) ++
      search.painted "01;31" ((line.drop start).take (ending - start)), ending)) (([] : Bytes), 0)
  text ++ line.drop place

def shownLine (search : Searching) (selected : Bool) (number offset : Nat) (line : Bytes) : Bytes :=
  let separator := if selected then ':' else '-'
  if search.only then
    if !selected || search.inverted then []
    else (search.regex.occurrences search.preference line).flatMap fun (start, ending, _) =>
      if start = ending then []
      else search.front separator number (offset + start) ++
        search.painted "01;31" ((line.drop start).take (ending - start)) ++ [search.ending]
  else
    let body := if search.colored && selected != search.inverted then search.paintedLine line else line
    search.front separator number offset ++ body ++ [search.ending]

/-- Looks at the next line. -/
def step (search : Searching) (state : SearchState) (line : Bytes) : SearchState × Bytes :=
  let number := state.number + 1
  let offset := state.offset
  let state := { state with number, offset := offset + line.length + 1 }
  let selected := search.regex.accepts line != search.inverted
  let isFull := search.most.any (· ≤ state.count)
  if selected && !isFull then
    let state := { state with count := state.count + 1 }
    let isLast := search.brief || search.most.any (· ≤ state.count)
    let done := isLast && (search.silent || search.after == 0)
    if search.silent then ({ state with done }, [])
    else
      let first := match state.waiting.getLast? with
        | some (first, _) => first
        | none => number
      let separator := match search.groupMark with
        | some mark =>
          if state.shown.any (· + 1 < first) then search.painted "36" mark ++ [10] else []
        | none => []
      let before := state.waiting.reverse.flatMap fun (number, offset, line) =>
        search.shownLine false number offset line
      ({ state with waiting := [], left := search.after, shown := some number, done },
        separator ++ before ++ search.shownLine true number offset line)
  else if isFull && selected then ({ state with done := true }, [])
  else if 0 < state.left && !search.silent then
    ({ state with left := state.left - 1, shown := some number, done := isFull && state.left == 1 },
      search.shownLine false number offset line)
  else if isFull then ({ state with done := true }, [])
  else
    ({ state with waiting := ((number, offset, line) :: state.waiting).take search.before }, [])

/-- Looks at lines until the search is over. Of a file with zero bytes, only the first selected line
    counts, and it is not shown. -/
def steps (search : Searching) (state : SearchState) (lines : List Bytes) : SearchState × Bytes :=
  let isHidden := state.binary && !search.text && !search.silent
  let search := if isHidden then { search with silent := true, brief := true } else search
  let (state, output) := lines.foldl (fun (state, output) line =>
    if state.done then (state, output)
    else
      let (state, more) := search.step state line
      (state, more :: output)) (state, [])
  (state, output.reverse.flatten)

/-- Searches what is read at a descriptor. `rest` is the start of the next line. -/
def run (search : Searching) (call : Call) (descriptor : Nat) : (fuel : Nat) → (rest : Bytes) →
    SearchState → Act (Except FileCause SearchState)
  | 0, _, _ => Act.hang
  | fuel + 1, rest, state => do
    match ← Act.read descriptor Act.portion with
    | .error cause => return .error cause
    | .ok bytes =>
      let state := { state with binary := state.binary || (search.ending != 0 && bytes.contains 0) }
      let parts := Bytes.fields search.ending (rest ++ bytes)
      let (lines, rest) := if bytes.isEmpty then
          (if parts.getLast? = some [] then parts.dropLast else parts, [])
        else (parts.dropLast, parts.getLast?.getD [])
      let (state, output) := search.steps state lines
      let written ← if output.isEmpty then pure true else call.put output
      if bytes.isEmpty || state.done || !written then return .ok state
      else run search call descriptor fuel rest state

end Searching

def narrowed (lines words : Bool) (regex : Regex) : Regex :=
  let isFree (c : Option UInt8) : Bool := !c.any Regex.isWordByte
  if lines then .both Regex.atStart (.both regex Regex.atEnd)
  else if words then
    .both (.edge fun text place => isFree (Regex.before? text place))
      (.both regex (.edge fun text place => isFree text[place]?))
  else regex

def filesBelow (tree : FileTree) (skips : Bytes → Bool) : (fuel : Nat) → (path : Bytes) →
    (place : List Bytes) → List Bytes
  | 0, _, _ => []
  | fuel + 1, path, place =>
    ((tree.namesIn place).mergeSort Bytes.le).flatMap fun name =>
      let inner := if path.isEmpty then name else Path.append path name
      match tree.node? (place ++ [name]) with
      | some .directory =>
        if skips name then [] else filesBelow tree skips fuel inner (place ++ [name])
      | some (.file ..) => [inner]
      | _ => []

def matchesAnyGlob (patterns : List Bytes) (name : Bytes) : Bool :=
  patterns.any fun pattern =>
    let pattern := Pattern.ofText pattern
    pattern.accepts name || pattern.accepts (Path.fileName name)

def grepTable : OptionTable where
  flags := "EFGPabchHilLnoqsvwxyzrRUIZT"
  valued := "efmABCdD"
  long := [("extended-regexp", 'E'), ("fixed-strings", 'F'), ("basic-regexp", 'G'),
    ("perl-regexp", 'P'), ("regexp", 'e'), ("file", 'f'), ("max-count", 'm'), ("count", 'c'),
    ("ignore-case", 'i'), ("invert-match", 'v'), ("line-number", 'n'), ("only-matching", 'o'),
    ("quiet", 'q'), ("silent", 'q'), ("no-messages", 's'), ("word-regexp", 'w'), ("line-regexp", 'x'),
    ("files-with-matches", 'l'), ("files-without-match", 'L'), ("no-filename", 'h'),
    ("with-filename", 'H'), ("text", 'a'), ("byte-offset", 'b'), ("after-context", 'A'),
    ("before-context", 'B'), ("context", 'C'), ("recursive", 'r'), ("dereference-recursive", 'R'),
    ("null", 'Z'), ("null-data", 'z'), ("initial-tab", 'T'), ("directories", 'd'), ("devices", 'D'),
    ("binary", 'U')]
  longOnly := [("color", .optional), ("colour", .optional), ("include", .required),
    ("exclude", .required), ("exclude-dir", .required), ("label", .required), ("line-buffered", .none),
    ("no-ignore-case", .none), ("binary-files", .required), ("group-separator", .required),
    ("no-group-separator", .none)]

/-- The arguments with one such as `-3` spelled as an option. -/
def withContextCounts (arguments : List Bytes) : List Bytes :=
  arguments.map fun word =>
    match word with
    | 45 :: digits => if Bytes.allDigits digits then utf8 "-C" ++ digits else word
    | word => word

def readPattern (given : Given) (extended plain ignoreCase : Bool) (text : Bytes) :
    Except Bytes Regex :=
  if given.has 'P' then
    (Regex.Perl.read { ignoreCase } text).map (·.regex)
  else if plain then .ok (Regex.plain ignoreCase text)
  else match Regex.read { extended, ignoreCase, lenient := true } text with
    | .ok regex => .ok regex
    | .error fault => .error (utf8 fault.message)

def grep (extended plain : Bool) : Utility := fun call =>
  let call := { call with arguments := withContextCounts call.arguments }
  call.withOptions grepTable 2 fun given => do
    let listed := given.values 'e'
    let mut fromFiles : List Bytes := []
    for name in given.values 'f' do
      match ← call.contentOf name with
      | .ok text => fromFiles := fromFiles ++ linesOf text
      | .error cause =>
        call.complainOf name cause
        return 2
    let ignoreCase := given.has 'i' || given.has 'y'
    let kind := given.lastOf? "EFGP"
    let isPlain := kind == some 'F' || (plain && kind.isNone)
    let isExtended := kind == some 'E' || (extended && kind.isNone)
    let isGiven := given.has 'e' || given.has 'f'
    if !isGiven && given.operands.isEmpty then
      let _ ← Act.write 2 (utf8 "Usage: grep [OPTION]... PATTERNS [FILE]...\n")
      call.misuse [] 2
    else
      let (patterns, names) := if isGiven then (listed, given.operands)
        else (given.operands.take 1, given.operands.drop 1)
      let texts := patterns.flatMap (Bytes.fields 10) ++ fromFiles
      match texts.mapM (readPattern given isExtended isPlain ignoreCase) with
      | .error text =>
        call.complain text
        return 2
      | .ok regexes =>
        let regex := match regexes with
          | [] => Regex.one fun _ => false
          | first :: rest => rest.foldl Regex.either first
        let recursive := given.has 'r' || given.has 'R'
        let context := given.number? 'C'
        let search : Searching :=
          { regex := narrowed (given.has 'x') (given.has 'w') regex
            preference := if given.has 'P' then .first else .longest
            inverted := given.has 'v', only := given.has 'o'
            silent := given.has 'q' || given.has 'c' || given.has 'l' || given.has 'L'
            most := given.number? 'm'
            brief := given.has 'q' || given.has 'l' || given.has 'L'
            before := ((given.number? 'B').or context).getD 0
            after := ((given.number? 'A').or context).getD 0
            groupMark := if !given.has 'A' && !given.has 'B' && !given.has 'C' then none
              else if given.hasNamed "no-group-separator" then none
              else some ((given.named? "group-separator").getD (utf8 "--"))
            tabbed := given.has 'T'
            numbers := given.has 'n', offsets := given.has 'b'
            colored := ((given.named? "color").or (given.named? "colour")) == some (utf8 "always")
            ending := if given.has 'z' then 0 else 10
            text := given.has 'a' || given.named? "binary-files" == some (utf8 "text")
            titleEnd := if given.has 'Z' then some 0 else none }
        let withoutBinary := given.has 'I' || given.named? "binary-files" == some (utf8 "without-match")
        let tree ← Act.look (·.files)
        let starts := if names.isEmpty then [if recursive then [] else utf8 "-"] else names
        let (includes, excludes) := (given.namedValues "include", given.namedValues "exclude")
        let skips (name : Bytes) : Bool := matchesAnyGlob (given.namedValues "exclude-dir") name
        let isWanted (name : Bytes) : Bool :=
          (includes.isEmpty || matchesAnyGlob includes name) && !matchesAnyGlob excludes name
        let files := starts.flatMap fun start =>
          match if recursive then tree.locate call.directory (if start.isEmpty then Path.dot else start)
            else .error .notFound with
          | .ok place =>
            if tree.node? place == some .directory then
              (filesBelow tree skips 100 start place).filter isWanted
            else [start]
          | .error _ => [start]
        let files := if recursive then files
          else files.filter fun name => name == utf8 "-" || isWanted name
        let isSeveral := 1 < names.length || (recursive && starts.any fun start =>
          start.isEmpty || tree.isDirectory call.directory start)
        let titled := given.lastOf? "Hh" == some 'H' || (isSeveral && given.lastOf? "Hh" != some 'h')
        let label := (given.named? "label").getD (utf8 "(standard input)")
        let mut found := false
        let mut faulty := false
        for name in files do
          let shown := if name = utf8 "-" then label else name
          let search := { search with title := if titled then some shown else none }
          match ← call.withInput name fun descriptor => do
              if search.most == some 0 then return .ok { number := 0 }
              else search.run call descriptor Act.maxText [] {} with
          | .ok state =>
            let matched := 0 < state.count && !(state.binary && withoutBinary)
            if matched then found := true
            if given.has 'q' then if matched then return 0
            let nameEnd : UInt8 := if given.has 'Z' then 0 else 10
            if given.has 'q' then pure ()
            else if given.has 'l' || given.has 'L' then
              if matched != given.has 'L' then
                let _ ← call.put (search.painted "35" shown ++ [nameEnd])
            else if given.has 'c' then
              let front := { search with numbers := false, offsets := false }.front ':' 0 0
              let _ ← call.put (front ++ Bytes.decimal state.count ++ [10])
            else if matched && state.binary && !search.text then
              call.complain (shown ++ utf8 ": binary file matches")
          | .error cause =>
            if !given.has 's' then call.complainOf name cause
            faulty := true
        return if faulty then 2 else if found then 0 else 1

/-- The utilities of this kind by name. -/
def searching : List (String × Utility) :=
  [("egrep", grep true false), ("fgrep", grep false true), ("grep", grep false false),
   ("rgrep", fun call => grep false false { call with arguments := utf8 "-r" :: call.arguments })]

end ShellCompletion.Utility
