import ShellCompletion.Command.Utility.Translating

/-!
# Laying out texts

The standard programs that break texts into lines: one breaks the words of paragraphs into lines that
are about equally long, and one cuts lines that are too long.
-/
namespace ShellCompletion.Utility

/-! ## Paragraphs -/

/-- A word of a paragraph. -/
structure ParagraphWord where
  text : Bytes
  /-- How many blanks stand after it on the same line. -/
  space : Nat
  /-- It starts with a bracket or quote. -/
  opens : Bool
  /-- It ends with a punctuation mark, maybe with one that ends sentences. -/
  punctuated : Bool
  period : Bool
  /-- It ends a sentence. -/
  final : Bool
deriving Inhabited

/-- How paragraphs are broken. -/
structure Fitting where
  width : Nat := 75
  goal : Nat := 70
  /-- Only lines that are too long are broken. -/
  split : Bool := false
  /-- One blank stands between words, and two between sentences. -/
  uniform : Bool := false
  /-- The first line of a paragraph is indented like the second, or unlike it. -/
  crown : Bool := false
  tagged : Bool := false

/-- The cost of the best way to break the words from one on: the word with which the next line starts,
    and how long the line is. -/
structure Break where
  cost : Int
  next : Nat
  length : Nat
deriving Inhabited

namespace Fitting

def square (n : Int) : Int := n * n

/-- The cost of a line that differs so much from the goal. -/
def shortCost (n : Int) : Int := square (n * 10)

/-- The cost of a line that differs so much from the next one. -/
def raggedCost (n : Int) : Int := shortCost n / 2

def isPunctuation (c : UInt8) : Bool :=
  32 < c && c < 127 && !Bytes.isAlpha c && !Bytes.isDigit c

def word (fitting : Fitting) (text : Bytes) (space : Nat) (ends closes : Bool) : ParagraphWord :=
  let isClosing (c : UInt8) : Bool := (utf8 ")]'\"").contains c
  let core := text.reverse.dropWhile isClosing
  let last := (core.head?).getD (text.headD 0)
  let period := (utf8 ".?!").contains last
  let final := closes || (period && (ends || 1 < space))
  { text
    space := if ends || closes || fitting.uniform then (if final then 2 else 1) else space
    opens := text.head?.any (utf8 "(['\x60\"").contains
    punctuated := text.getLast?.any isPunctuation
    period, final }

def baseCost (words : Array ParagraphWord) (k : Nat) : Int :=
  let this := words[k]!
  let before : Int :=
    if k = 0 then 0
    else
      let last := words[k - 1]!
      if last.period then (if last.final then -2500 else 360000)
      else if last.punctuated then -1600
      else if 1 < k ∧ (words[k - 2]!).final then 40000 / (last.text.length + 2 : Int)
      else 0
  let own : Int := if this.opens then -1600
    else if this.final then 22500 / (this.text.length + 2 : Int)
    else 0
  4900 + before + own

/-- The best way to break the words from one on, if the next lines are broken in the best ways. `k` is
    where a line may end, and `length` how long it is then. -/
def bestBreak (fitting : Fitting) (words : Array ParagraphWord) (breaks : Array Break) :
    (fuel k length : Nat) → (best : Option Break) → Option Break
  | 0, _, _, best => best
  | fuel + 1, k, length, best =>
    let next := breaks[k]!
    let line : Int :=
      if k = words.size then 0
      else
        let ragged : Int :=
          if next.next = words.size then 0 else raggedCost ((length : Int) - next.length)
        shortCost ((fitting.goal : Int) - length) + ragged
    let cost := line + next.cost
    let best := if best.all (cost < ·.cost) then some ⟨cost, k, length⟩ else best
    if k = words.size then best
    else
      let length := length + (words[k - 1]!).space + (words[k]!).text.length
      if length < fitting.width then bestBreak fitting words breaks fuel (k + 1) length best else best

def breaks (fitting : Fitting) (words : Array ParagraphWord) (first other : Nat) : Array Break :=
  (List.range words.size).reverse.foldl (fun breaks k =>
    let length := (if k = 0 then first else other) + (words[k]!).text.length
    let best := (bestBreak fitting words breaks (words.size + 1) (k + 1) length none).getD default
    breaks.set! k { best with cost := best.cost + baseCost words k })
    (Array.replicate (words.size + 1) ⟨0, 0, 0⟩)

def linesFrom (words : Array ParagraphWord) (breaks : Array Break) (other : Nat) :
    (fuel k indent : Nat) → List Bytes
  | 0, _, _ => []
  | fuel + 1, k, indent =>
    if words.size ≤ k then []
    else
      let next := (breaks[k]!).next
      let line := (List.range (next - k)).flatMap fun i =>
        let word := words[k + i]!
        word.text ++ if k + i + 1 < next then List.replicate word.space 32 else []
      (List.replicate indent 32 ++ line) :: linesFrom words breaks other fuel next other

def paragraph (fitting : Fitting) (words : List ParagraphWord) (first other : Nat) : List Bytes :=
  let words := words.toArray
  let words := words.modify (words.size - 1) ({ · with period := true, final := true })
  linesFrom words (fitting.breaks words first other) other (words.size + 1) 0 first

def lineWords (fitting : Fitting) (closes : Bool) : (fuel : Nat) → Bytes → List ParagraphWord
  | 0, _ => []
  | fuel + 1, line =>
    let text := line.takeWhile (!Bytes.isSpace ·)
    let rest := line.drop text.length
    let space := rest.takeWhile Bytes.isSpace
    let rest := rest.drop space.length
    if text.isEmpty then []
    else fitting.word text space.length rest.isEmpty (closes && rest.isEmpty) ::
      lineWords fitting closes fuel rest

/-- The lines of a text after it has been laid out. `lines` are those that are left, with their
    indents. -/
def fitted (fitting : Fitting) : (fuel : Nat) → List (Nat × Bytes) → List Bytes
  | 0, _ => []
  | _, [] => []
  | fuel + 1, (first, line) :: rest =>
    if line.isEmpty then [] :: fitted fitting fuel rest
    else
      let isSame (other : Nat) (entry : Nat × Bytes) : Bool := !entry.2.isEmpty && entry.1 == other
      let next := rest.head?.filter (!·.2.isEmpty)
      let (other, more) :=
        if fitting.split then (first, [])
        else if fitting.crown || fitting.tagged then
          match next with
          | some (other, _) =>
            if fitting.tagged && other == first then (if first = 0 then 3 else 0, [])
            else (other, rest.takeWhile (isSame other))
          | none => (if fitting.tagged then (if first = 0 then 3 else 0) else first, [])
        else (first, rest.takeWhile (isSame first))
      let left := rest.drop more.length
      let lines := line :: more.map Prod.snd
      let words := lines.zipIdx.flatMap fun (line, index) =>
        fitting.lineWords (left.isEmpty && index + 1 == lines.length) (line.length + 1) line
      fitting.paragraph words first other ++ fitted fitting fuel left

end Fitting

/-- What is said of a number that is too large or too small. -/
def outOfRange : Bytes := utf8 ": Numerical result out of range"

/-- A line with tabs in the place of the blanks that reach a stop, where there are two or more. -/
def tabbedLine : (column : Nat) → (blanks : Nat) → Bytes → Bytes
  | column, blanks, [] => gap column blanks
  | column, blanks, c :: rest =>
    if c = 32 then tabbedLine column (blanks + 1) rest
    else gap column blanks ++ c :: tabbedLine (column + blanks + 1) 0 rest
where
  /-- So many blanks from a column on. -/
  gap (column blanks : Nat) : Bytes :=
    let target := column + blanks
    let stop := target / 8 * 8
    if column + 1 < stop then
      List.replicate (stop / 8 - column / 8) 9 ++ List.replicate (target - stop) 32
    else List.replicate blanks 32

/-- The number of columns that an option gives, or why it gives none. -/
def readColumns (what : String) (text : Bytes) : Except Bytes Nat :=
  let fault := utf8 "invalid " ++ utf8 what ++ utf8 ": " ++ quotedName text
  if !Bytes.allDigits text then .error fault
  else if 2500 < Bytes.digitsValue text then .error (fault ++ outOfRange)
  else .ok (Bytes.digitsValue text)

def fmt : Utility := fun call => do
  let arguments := match call.arguments with
    | (45 :: c :: rest) :: more =>
      if Bytes.isDigit c then (utf8 "-w" ++ c :: rest) :: more else call.arguments
    | arguments => arguments
  let table : OptionTable :=
    { flags := "cstu", valued := "gpw"
      long := [("crown-margin", 'c'), ("split-only", 's'), ("tagged-paragraph", 't'),
        ("uniform-spacing", 'u'), ("goal", 'g'), ("prefix", 'p'), ("width", 'w')] }
  ({ call with arguments } : Call).withOptions table 1 fun given => do
    let setup : Except Bytes (Option Nat × Option Nat) := do
      let read (what : String) (letter : Char) : Except Bytes (Option Nat) :=
        match given.value? letter with
        | none => .ok none
        | some text => (readColumns what text).map some
      return (← read "width" 'w', ← read "goal" 'g')
    match setup with
    | .error text =>
      call.complain text
      return 1
    | .ok (width, goal) =>
      let (width, goal) := match width, goal with
        | some width, some goal => (width, goal)
        | some width, none => (width, width * 187 / 200)
        | none, some goal => (goal + 10, goal)
        | none, none => (75, 70)
      let fitting : Fitting :=
        { width, goal, split := given.has 's', uniform := given.has 'u', crown := given.has 'c'
          tagged := given.has 't' }
      let start := (given.value? 'p').getD []
      let (found, fine) ← call.contentsOf given.operands fun name cause =>
        call.complain (utf8 "cannot open " ++ quotedName name ++ utf8 " for reading: " ++
          utf8 cause.message)
      let output := found.flatMap fun text =>
        let tabbed (line : Bytes) : Bytes := if text.contains 9 then tabbedLine 0 0 line else line
        let lines := (linesOf text).map fun line =>
          let line := expandLine ⟨[], 8⟩ false line
          let body := line.dropWhile Bytes.isSpace
          (line.length - body.length, body)
        if start.isEmpty then (fitting.fitted (lines.length + 1) lines).map tabbed
        else
          let isMarked (entry : Nat × Bytes) : Bool := start.isPrefixOf entry.2
          let groups := lines.splitBy fun a b => isMarked a == isMarked b && a.1 == b.1
          groups.flatMap fun group =>
            if group.head?.any isMarked then
              let indent := (group.headD (0, [])).1
              let inner := group.map fun (_, line) =>
                let line := line.drop start.length
                let body := line.dropWhile Bytes.isSpace
                (indent + start.length + (line.length - body.length), body)
              (fitting.fitted (inner.length + 1) inner).map fun line =>
                if line.isEmpty then List.replicate indent 32 ++ (start.reverse.dropWhile (· == 32)).reverse
                else List.replicate indent 32 ++ start ++ line.drop (indent + start.length)
            else group.map fun (indent, line) => List.replicate indent 32 ++ line
      call.print (textOfLines output) (if fine then 0 else 1)

/-! ## Folding -/

def columnAfter (bytes : Bool) (column : Nat) (c : UInt8) : Nat :=
  if bytes then column + 1
  else if c = 8 then column - 1
  else if c = 13 then 0
  else if c = 9 then (column / 8 + 1) * 8
  else column + 1

/-- The pieces of a line that are not wider than some columns. They may end only after blanks, where
    there are any. `start` is what of the piece has been read, the last byte first. -/
def foldLine (bytes spaces : Bool) (width : Nat) : (fuel : Nat) → (start : Bytes) → (column : Nat) →
    Bytes → List Bytes
  | 0, start, _, rest => [start.reverse ++ rest]
  | _, start, _, [] => [start.reverse]
  | fuel + 1, start, column, c :: rest =>
    let next := columnAfter bytes column c
    if next ≤ width || start.isEmpty then foldLine bytes spaces width fuel (c :: start) next rest
    else
      let after := start.takeWhile fun d => d != 32 && d != 9
      if spaces && after.length < start.length then
        let left := after.reverse
        (start.drop after.length).reverse ::
          foldLine bytes spaces width fuel after (left.foldl (columnAfter bytes) 0) (c :: rest)
      else start.reverse :: foldLine bytes spaces width fuel [] 0 (c :: rest)

def fold : Utility := fun call => do
  let arguments := call.arguments.map fun word => match word with
    | 45 :: c :: rest => if Bytes.isDigit c then utf8 "-w" ++ c :: rest else word
    | word => word
  let table : OptionTable :=
    { flags := "bs", valued := "w", long := [("width", 'w'), ("bytes", 'b'), ("spaces", 's')] }
  ({ call with arguments } : Call).withOptions table 1 fun given => do
    let text := (given.value? 'w').getD (utf8 "80")
    let width := if Bytes.allDigits text then Bytes.digitsValue text else 0
    if width = 0 then
      call.complain (utf8 "invalid number of columns: " ++ quotedName text ++
        if Bytes.allDigits text then outOfRange else [])
      return 1
    else mapLines call given.operands call.complainOf fun line =>
      Bytes.join [10] (foldLine (given.has 'b') (given.has 's') width (3 * line.length + 3) [] 0 line)

/-- The utilities of this kind by name. -/
def layingOut : List (String × Utility) := [("fmt", fmt), ("fold", fold)]

end ShellCompletion.Utility
