import ShellCompletion.Command.Pattern
import ShellCompletion.Command.Shell.Basic

/-!
# Expansion

The pieces of a word expand to parts, which know whether they were quoted and whether they may be cut
at separators. Parts make fields, and a field that is a pattern stands for the files that it matches.
-/
namespace ShellCompletion.Shell

/-- A part of an expanded word. -/
inductive Part where
  | byte (c : UInt8) (quoted splits : Bool)
  /-- The border between two fields. -/
  | border
  /-- Nothing, which was quoted: its field is there even if it is empty. -/
  | present
deriving DecidableEq, Repr

def ofValue (quoted : Bool) (value : Bytes) : List Part :=
  value.map (Part.byte · quoted (!quoted))

def textOf (parts : List Part) : Bytes :=
  parts.filterMap fun part => match part with
    | .byte c _ _ => some c
    | _ => none

/-- The bytes of parts with their quoting. -/
def patternOf (parts : List Part) : Pattern :=
  parts.filterMap fun part => match part with
    | .byte c quoted _ => some (c, quoted)
    | _ => none

/-! ## Fields -/

def isWhite (c : UInt8) : Bool := c == 32 || c == 9 || c == 10 || c == 0

def isSeparator (separators : Bytes) (c : UInt8) : Bool := c == 0 || separators.contains c

/-- What separated the last field from what follows. -/
inductive Separation where
  | none
  | white
  | mark
deriving DecidableEq, Repr

/-- The fields so far, the last one first, and the bytes of the one that has begun, in the order from
    the last one. -/
structure Splitting where
  fields : List Pattern := []
  current : Option Pattern := none
  separation : Separation := .none

namespace Splitting

def finish (splitting : Splitting) (separation : Separation) : Splitting :=
  { fields := (splitting.current.getD []).reverse :: splitting.fields, separation }

def add (splitting : Splitting) (bytes : Pattern) : Splitting :=
  { splitting with current := some (bytes ++ splitting.current.getD []), separation := .none }

/-- Takes a separator. White space at the start of a field does not count, nor does one other
    separator with white space before it. -/
def separate (splitting : Splitting) (c : UInt8) : Splitting :=
  if splitting.current.isNone && isWhite c then splitting
  else if splitting.current.isNone && splitting.separation = .white then
    { splitting with separation := .mark }
  else splitting.finish (if isWhite c then .white else .mark)

def step (separators : Bytes) (splitting : Splitting) : Part → Splitting
  | .border => (splitting.finish .none).add []
  | .present => splitting.add []
  | .byte c quoted splits =>
    if splits && isSeparator separators c then splitting.separate c else splitting.add [(c, quoted)]

end Splitting

def fieldsOf (separators : Bytes) (parts : List Part) : List Pattern :=
  let splitting := parts.foldl (Splitting.step separators) {}
  (splitting.current.toList.map List.reverse ++ splitting.fields).reverse

/-- The reading of a line into variables: the fields of all but the last one, and for that one the
    rest of the line without the separators at its end. -/
structure LineReading where
  splitting : Splitting := {}
  /-- How many variables are still to get a field. -/
  left : Nat
  /-- What goes to the last variable, from its last byte, once it is more than a field. -/
  tail : Option Bytes := none
  /-- The length at which that is cut. -/
  cut : Option Nat := none
  white : Bool := false

namespace LineReading

def step (separators : Bytes) (reading : LineReading) (c : UInt8) (quoted : Bool) : LineReading :=
  let separates := !quoted && isSeparator separators c
  let white := separates && isWhite c
  match reading.tail with
  | some tail =>
    let cut := if white then some (reading.cut.getD tail.length)
      else if separates && reading.white then reading.cut
      else none
    { reading with tail := some (c :: tail), cut, white := white && reading.white }
  | none =>
    if !separates then { reading with splitting := reading.splitting.add [(c, quoted)] }
    else
      let next := reading.splitting.separate c
      if next.fields.length = reading.splitting.fields.length then { reading with splitting := next }
      else if reading.left ≤ 1 then
        let field := (reading.splitting.current.getD []).map Prod.fst
        { reading with tail := some (c :: field), cut := some field.length, white }
      else { reading with splitting := next, left := reading.left - 1 }

def fields (reading : LineReading) : List Bytes :=
  let before := reading.splitting.fields.reverse.map Pattern.text
  match reading.tail with
  | some tail =>
    let text := tail.reverse
    before ++ [text.take (reading.cut.getD text.length)]
  | none =>
    before ++ (reading.splitting.current.toList.map fun field => Pattern.text field.reverse)

end LineReading

/-- The values that so many variables get from a line. -/
def fieldsOfLine (separators : Bytes) (count : Nat) (line : List PatternByte) : List Bytes :=
  (line.foldl (fun reading p => reading.step separators p.1 p.2)
    ({ left := count } : LineReading)).fields

/-! ## Home directories -/

/-- The home directory of a user, who is nobody if the one of the shell is meant. In the extended
    language, two signs mean the current directory and the last one. -/
def homeOf? (shell : Shell) (user : Bytes) : Option Bytes :=
  if user.isEmpty then shell.value? (utf8 "HOME")
  else if user = utf8 "root" then some (utf8 "/root")
  else if shell.extended && user == utf8 "+" then shell.value? (utf8 "PWD")
  else if shell.extended && user == utf8 "-" then shell.value? (utf8 "OLDPWD")
  else none

/-- The parts of text outside of quotes. A tilde at its start, and with `all` after a colon, stands
    for a home directory; `ends` tells whether the word ends after the text. -/
def expandTildes (shell : Shell) (all ends splits : Bool) : (fuel : Nat) → (start : Bool) → Bytes →
    List Part
  | 0, _, _ => []
  | _, _, [] => []
  | fuel + 1, start, c :: rest =>
    let colon := ':'.toUInt8
    let plain := Part.byte c false splits :: expandTildes shell all ends splits fuel (all && c == colon) rest
    if start && c == '~'.toUInt8 then
      let user := rest.takeWhile fun d => d != Path.slash && !(all && d == colon)
      let after := rest.drop user.length
      match if after.isEmpty && !ends then none else homeOf? shell user with
      | some home =>
        home.map (Part.byte · true false) ++ expandTildes shell all ends splits fuel false after
      | none => plain
    else plain

/-! ## Files -/

/-- Something lies at a path, be it a link that leads nowhere. -/
def isThere (machine : Machine) (directory path : Bytes) : Bool :=
  machine.files.exists? directory path || match machine.parentPlace directory path with
    | .ok (place, name) =>
      path.getLast? != some Path.slash && (machine.files.node? (place ++ [name])).isSome
    | .error _ => false

/-- How paths are looked for. -/
structure Globbing where
  /-- A name matches a part of a pattern. -/
  accepts : Pattern → Bytes → Bool := Pattern.accepts
  /-- A part of a pattern may match something else than its own text. -/
  isOpen : Pattern → Bool := Pattern.isOpen
  /-- A pattern that starts with a dot also matches the directory itself and the one above. -/
  dots : Bool := true
  /-- A dot at the start of a name does not have to be spelled. -/
  hidden : Bool := false
  /-- Two stars match any directories below one another. -/
  deep : Bool := false

def namesMatching (globbing : Globbing) (machine : Machine) (directory path : Bytes) (pattern : Pattern) :
    List Bytes :=
  match machine.files.locate directory (if path.isEmpty then Path.dot else path) with
  | .error _ => []
  | .ok place =>
    let hidden := (pattern.head?.map Prod.fst) == some '.'.toUInt8
    let dots := if hidden && globbing.dots then [Path.dot, Path.dotDot] else []
    (machine.files.namesIn place ++ dots).filter fun name =>
      (hidden || globbing.hidden || name.head? != some '.'.toUInt8) && globbing.accepts pattern name

/-- The paths of all that lies below a directory, or only of the directories there. `fuel` bounds how
    deep that is. -/
def below (globbing : Globbing) (machine : Machine) (directory : Bytes) (folders : Bool) :
    (fuel : Nat) → (path : Bytes) → List Bytes
  | 0, _ => []
  | fuel + 1, path =>
    (namesMatching globbing machine directory path [Pattern.star]).flatMap fun name =>
      let inner := path ++ name
      let isLink := match machine.parentPlace directory inner with
        | .ok (place, name) => match machine.files.node? (place ++ [name]) with
          | some (.link _) => true
          | _ => false
        | .error _ => false
      let isFolder := machine.files.isDirectory directory inner && !isLink
      let self : List Bytes := if folders then if isFolder then [inner ++ [Path.slash]] else [] else [inner]
      self ++ if isFolder then below globbing machine directory folders fuel (inner ++ [Path.slash]) else []

/-- How many directories lie in one another at most. -/
def maxDepth : Nat := 64

/-- The paths that match a pattern, of which `found` are the ones for what comes before `parts`. -/
def matchParts (globbing : Globbing) (machine : Machine) (directory : Bytes) : (parts : List Pattern) →
    (found : List Bytes) → List Bytes
  | [], found => found
  | part :: rest, found =>
    let slash : Bytes := if rest.isEmpty then [] else [Path.slash]
    let next :=
      if globbing.deep && part == [Pattern.star, Pattern.star] then
        found.flatMap fun path =>
          let all := below globbing machine directory (!rest.isEmpty) maxDepth path
          if path.isEmpty && rest.isEmpty then all else path :: all
      else if globbing.isOpen part then
        found.flatMap fun path =>
          (namesMatching globbing machine directory path part).map fun name => path ++ name ++ slash
      else found.map fun path => path ++ Pattern.text part ++ slash
    let next := if rest.isEmpty then next.filter (isThere machine directory) else next
    matchParts globbing machine directory rest next

def patternParts : Pattern → List Pattern
  | [] => [[]]
  | p :: rest =>
    if p.1 = Path.slash then [] :: patternParts rest
    else match patternParts rest with
      | [] => [[p]]
      | part :: parts => (p :: part) :: parts

def pathsMatching (globbing : Globbing) (machine : Machine) (directory : Bytes) (field : Pattern) :
    List Bytes :=
  (matchParts globbing machine directory (patternParts field) [[]]).mergeSort Bytes.le

/-- The paths that a field stands for, in order; its own text if it is no pattern, or none match. -/
def pathsOf (machine : Machine) (directory : Bytes) (field : Pattern) : List Bytes :=
  if !Pattern.isOpen field then [Pattern.text field]
  else match pathsMatching {} machine directory field with
    | [] => [Pattern.text field]
    | found => found

/-! ## Matching in the extended language -/

/-- A text matches a pattern, in which groups may be read, and cases may not count. -/
def acceptsExtended (groups folds : Bool) (pattern : Pattern) (text : Bytes) : Bool :=
  let pattern := pattern.withCarets
  let fold (pattern : Pattern) : Pattern := pattern.map fun (c, quoted) => (Bytes.lowerByte c, quoted)
  let (pattern, text) := if folds then (fold pattern, Bytes.lower text) else (pattern, text)
  if groups then Pattern.acceptsWithGroups pattern text else Pattern.accepts pattern text

def acceptsPattern (shell : Shell) (pattern : Pattern) (text : Bytes) : Bool :=
  if shell.extended then
    acceptsExtended (shell.hasSetting "extglob") (shell.hasSetting "nocasematch") pattern text
  else Pattern.accepts pattern text

/-- How the shell looks for paths. -/
def globbing (shell : Shell) : Globbing :=
  if shell.extended then
    let groups := shell.hasSetting "extglob"
    { accepts := acceptsExtended groups (shell.hasSetting "nocaseglob")
      isOpen := fun pattern => Pattern.isOpen pattern || (groups && Pattern.hasGroup pattern)
      dots := false, hidden := shell.hasSetting "dotglob", deep := shell.hasSetting "globstar" }
  else {}

def pathsExtended? (shell : Shell) (machine : Machine) (field : Pattern) : Option (List Bytes) :=
  let globbing := globbing shell
  if !globbing.isOpen field then some [Pattern.text field]
  else match pathsMatching globbing machine shell.directory field with
    | [] =>
      if shell.hasSetting "failglob" then none
      else some (if shell.hasSetting "nullglob" then [] else [Pattern.text field])
    | found => some found

/-! ## Parameters -/

/-- The value of a parameter that is no list. -/
def parameter? (shell : Shell) (name : Bytes) : Option Bytes :=
  match name with
  | [c] =>
    if c = '?'.toUInt8 then some (Bytes.decimal shell.status)
    else if c = '$'.toUInt8 then some (Bytes.decimal shell.root)
    else if c = '!'.toUInt8 then shell.background.map Bytes.decimal
    else if c = '#'.toUInt8 then some (Bytes.decimal shell.arguments.length)
    else if c = '-'.toUInt8 then
      let letters := if shell.extended then utf8 "abefhikmnptuvxBCEHPTcs" else optionLetters
      some (letters.filter shell.options.contains)
    else if c = '0'.toUInt8 then some shell.name
    else if Bytes.isDigit c then shell.arguments[c.toNat - 49]?
    else shell.value? name
  | name =>
    if Bytes.allDigits name then
      match Bytes.digitsValue name with
      | 0 => some shell.name
      | n + 1 => shell.arguments[n]?
    else shell.value? name

/-- The parts of several values. In quotes each of them is a field of its own, or with `star` they are
    one; outside of quotes they are cut. A word that is no list of fields holds them as one, with
    `between` in between. -/
def ofValues (values : List Bytes) (between : Bytes) (star quoted whole : Bool) : List Part :=
  let between : List Part :=
    if quoted then if star || whole then between.map (Part.byte · true false) else [.border]
    else if whole then between.map (Part.byte · false false)
    else [.byte 0 false true]
  let start : List Part := if quoted && !star && !whole && !values.isEmpty then [.present] else []
  start ++ ((values.map (ofValue quoted)).intersperse between).flatten

/-- What stands between several values that are one text. -/
def betweenValues (shell : Shell) (star : Bool) : Bytes :=
  if shell.extended && !star then [32] else shell.separators.take 1

def ofArguments (shell : Shell) (star quoted whole : Bool) : List Part :=
  ofValues shell.arguments (betweenValues shell star) star quoted whole

/-- A text without a part at its start or end that matches a pattern. The pattern sees the text as
    `sight`, and of a list, where zero bytes stand between the arguments, only one argument. -/
def cutMatch (atEnd longest : Bool) (pattern : Pattern) (sight text : Bytes) : Bytes :=
  let seen (bytes : Bytes) : Bytes := bytes.takeWhile (· != 0)
  let isCut (position : Nat) : Bool :=
    Pattern.accepts pattern (seen (if atEnd then sight.drop position else sight.take position))
  let cut := if atEnd == longest then (List.range ((seen sight).length + 1)).find? isCut
    else ((List.range (min sight.length text.length + 1)).find? fun left =>
      isCut (sight.length - left)).map (text.length - ·)
  match cut with
  | none => text
  | some position => if atEnd then text.take position else text.drop position

/-- The arguments, cut as a list. In quotes, what could mean something in a pattern is seen with a
    mark before it, unless there is such a byte in the first argument, which alone is seen then. -/
def cutArguments (quoted atEnd longest : Bool) (pattern : Pattern) (arguments : List Bytes) :
    List Bytes :=
  let first := arguments.headD []
  let text := Bytes.join [0] arguments
  let isMarked (c : UInt8) : Bool := quoted && (utf8 "\\!*?[=~:/-]").contains c
  let sight := if first.any isMarked then first
    else text.flatMap fun c => if isMarked c then [129, c] else [c]
  if arguments.isEmpty then []
  else Bytes.fields 0 (cutMatch atEnd longest pattern sight text)

/-- The value, unless it is none or as good as none. -/
def present? (orEmpty : Bool) (value : Option Bytes) : Option Bytes :=
  if orEmpty then value.filter (!·.isEmpty) else value

end ShellCompletion.Shell
