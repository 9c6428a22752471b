import ShellCompletion.Command.Arithmetic
import ShellCompletion.Command.Shell.Basic

/-!
# Reckoning

Integer expressions of the extended language. Their names are those of variables and of elements of
arrays, whose values are expressions again; they can be given values, and be counted up and down.
-/
namespace ShellCompletion.Reckoning

/-- What an expression is made of. -/
inductive Term where
  | number (value : Int)
  | name (name : Bytes) (subscript : Option Bytes)
  | signed (operator : String) (body : Term)
  | operation (operator : String) (first second : Term)
  | both (first second : Term)
  | either (first second : Term)
  | choice (condition yes no : Term)
  | assign (operator : Option String) (name : Bytes) (subscript : Option Bytes) (value : Term)
  /-- Adds a number to a variable; the value is the one from before or after that. -/
  | step (name : Bytes) (subscript : Option Bytes) (size : Int) (after : Bool)
  | sequence (first second : Term)

inductive Token where
  | number (value : Int)
  | name (name : Bytes) (subscript : Option Bytes)
  | operator (text : String)
deriving DecidableEq

/-- What is wrong with an expression: a text, and where in it. -/
structure Fault where
  text : String
  token : Bytes
deriving DecidableEq

def Fault.message (fault : Fault) (expression : Bytes) : Bytes :=
  expression ++ utf8 ": " ++ utf8 fault.text ++ utf8 " (error token is \"" ++ fault.token ++ utf8 "\")"

/-! ## Tokens -/

def operators : List String :=
  ["<<=", ">>=", "**", "<<", ">>", "<=", ">=", "==", "!=", "&&", "||", "+=", "-=", "*=", "/=", "%=",
   "&=", "|=", "^=", "++", "--", "=", "<", ">", "|", "&", "!", "(", ")", "*", "/", "%", "+", "-", "~",
   "^", "?", ":", ","]

/-- The value of a digit in bases up to 64. -/
def digit? (base : Nat) (c : UInt8) : Option Nat :=
  let value := if Bytes.isDigit c then c.toNat - 48
    else if Bytes.isLower c then c.toNat - 87
    else if Bytes.isUpper c then (if base ≤ 36 then c.toNat - 55 else c.toNat - 29)
    else if c = '@'.toUInt8 then 62
    else if c = '_'.toUInt8 then 63
    else 64
  if value < base then some value else none

/-- The number that a word of letters and digits denotes: its base is eight after a zero, sixteen after
    `0x`, or stands before a number sign. -/
def number? (word : Bytes) : Except Fault Int :=
  let base := Bytes.before '#'.toUInt8 word
  let (base, digits) :=
    if base.length < word.length then (Bytes.digitsValue base, word.drop (base.length + 1))
    else match word with
      | 48 :: 120 :: digits | 48 :: 88 :: digits => (16, digits)
      | 48 :: digit :: digits => (8, digit :: digits)
      | digits => (10, digits)
  if base < 2 ∨ 64 < base then .error ⟨"invalid arithmetic base", word⟩
  else match digits.mapM (digit? base) with
    | some values => .ok (Word64.toSigned ((values.foldl (fun n digit => n * base + digit) 0 : Nat)))
    | none => .error ⟨"value too great for base", word⟩

/-- The text up to the bracket that closes, and what follows. -/
def untilBracket : (depth : Nat) → Bytes → Option (Bytes × Bytes)
  | _, [] => none
  | depth, c :: rest =>
    if c = ']'.toUInt8 ∧ depth = 0 then some ([], rest)
    else
      let depth := if c = '['.toUInt8 then depth + 1 else if c = ']'.toUInt8 then depth - 1 else depth
      (untilBracket depth rest).map fun (text, rest) => (c :: text, rest)

/-- The tokens of a text, each with what is left of the text where it starts. -/
def tokens : (fuel : Nat) → Bytes → Except Fault (List (Token × Bytes))
  | 0, _ => .ok []
  | _, [] => .ok []
  | fuel + 1, c :: rest =>
    let text := c :: rest
    if Bytes.isSpace c then tokens fuel rest
    else if Bytes.isDigit c then do
      let isPart (c : UInt8) : Bool := isNameByte c || c == '#'.toUInt8 || c == '@'.toUInt8
      let word := text.takeWhile isPart
      let value ← number? word
      return (.number value, text) :: (← tokens fuel (text.drop word.length))
    else if isNameStart c then do
      let name := text.takeWhile isNameByte
      match text.drop name.length with
      | 91 :: after =>
        match untilBracket 0 after with
        | none => throw ⟨"bad array subscript", text⟩
        | some (subscript, rest) =>
          return (.name name (some subscript), text) :: (← tokens fuel rest)
      | rest => return (.name name none, text) :: (← tokens fuel rest)
    else match operators.find? fun operator => (utf8 operator).isPrefixOf text with
      | some operator => do
        return (.operator operator, text) ::
          (← tokens fuel (text.drop (utf8 operator).length))
      | none => .error ⟨"syntax error: operand expected", text⟩

/-! ## Reading -/

abbrev Reading := StateT (List (Token × Bytes)) (Except Fault)

/-- The operators on two numbers by how tightly they bind, the loosest first. -/
def levels : List (List String) :=
  [["|"], ["^"], ["&"], ["==", "!="], ["<", "<=", ">", ">="], ["<<", ">>"], ["+", "-"],
   ["*", "/", "%"]]

def assigning : List String := ["=", "<<=", ">>=", "+=", "-=", "*=", "/=", "%=", "&=", "|=", "^="]

def unexpected {α : Type} (text : String) : Reading α := do
  throw ⟨text, ((← get).head?.map Prod.snd).getD []⟩

/-- Takes an operator of a list if one comes next. -/
def accept (wanted : List String) : Reading (Option String) := do
  match ← get with
  | (.operator operator, _) :: rest =>
    if wanted.contains operator then
      set rest
      return some operator
    else return none
  | _ => return none

mutual

def sequence : (fuel : Nat) → Reading Term
  | 0 => unexpected "expression recursion level exceeded"
  | fuel + 1 => do
    let first ← assignment fuel
    match ← accept [","] with
    | some _ => return .sequence first (← sequence fuel)
    | none => return first

def assignment : (fuel : Nat) → Reading Term
  | 0 => unexpected "expression recursion level exceeded"
  | fuel + 1 => do
    match ← get with
    | (.name name subscript, _) :: (.operator operator, place) :: rest =>
      if assigning.contains operator then
        set rest
        if rest.isEmpty then throw ⟨"syntax error: operand expected", place⟩
        let value ← assignment fuel
        let operator := if operator = "=" then none else some (operator.dropEnd 1).toString
        return .assign operator name subscript value
      else conditional fuel
    | _ => conditional fuel

def conditional : (fuel : Nat) → Reading Term
  | 0 => unexpected "expression recursion level exceeded"
  | fuel + 1 => do
    let condition ← disjunction fuel
    match ← accept ["?"] with
    | none => return condition
    | some _ =>
      let yes ← sequence fuel
      match ← accept [":"] with
      | none => unexpected "':' expected for conditional expression"
      | some _ => return .choice condition yes (← conditional fuel)

def disjunction : (fuel : Nat) → Reading Term
  | 0 => unexpected "expression recursion level exceeded"
  | fuel + 1 => do
    let first ← conjunction fuel
    match ← accept ["||"] with
    | some _ => return .either first (← disjunction fuel)
    | none => return first

def conjunction : (fuel : Nat) → Reading Term
  | 0 => unexpected "expression recursion level exceeded"
  | fuel + 1 => do
    let first ← level fuel levels
    match ← accept ["&&"] with
    | some _ => return .both first (← conjunction fuel)
    | none => return first

def level : (fuel : Nat) → List (List String) → Reading Term
  | 0, _ => unexpected "expression recursion level exceeded"
  | fuel + 1, [] => power fuel
  | fuel + 1, wanted :: tighter => do
    let first ← level fuel tighter
    operations fuel wanted tighter first

def operations : (fuel : Nat) → List String → List (List String) → Term → Reading Term
  | 0, _, _, _ => unexpected "expression recursion level exceeded"
  | fuel + 1, wanted, tighter, first => do
    match ← accept wanted with
    | some operator =>
      let second ← level fuel tighter
      operations fuel wanted tighter (.operation operator first second)
    | none => return first

def power : (fuel : Nat) → Reading Term
  | 0 => unexpected "expression recursion level exceeded"
  | fuel + 1 => do
    let base ← prefixed fuel
    match ← accept ["**"] with
    | some _ => return .operation "**" base (← power fuel)
    | none => return base

def prefixed : (fuel : Nat) → Reading Term
  | 0 => unexpected "expression recursion level exceeded"
  | fuel + 1 => do
    match ← accept ["!", "~", "-", "+", "++", "--"] with
    | some "++" =>
      match ← get with
      | (.name name subscript, _) :: rest =>
        set rest
        return .step name subscript 1 false
      | _ => prefixed fuel
    | some "--" =>
      match ← get with
      | (.name name subscript, _) :: rest =>
        set rest
        return .step name subscript (-1) false
      | _ => prefixed fuel
    | some operator => return .signed operator (← prefixed fuel)
    | none => primary fuel

def primary : (fuel : Nat) → Reading Term
  | 0 => unexpected "expression recursion level exceeded"
  | fuel + 1 => do
    match ← get with
    | (.number value, _) :: rest =>
      set rest
      return .number value
    | (.name name subscript, _) :: rest =>
      set rest
      match ← accept ["++", "--"] with
      | some operator => return .step name subscript (if operator = "++" then 1 else -1) true
      | none => return .name name subscript
    | (.operator "(", _) :: rest =>
      set rest
      let body ← sequence fuel
      match ← accept [")"] with
      | some _ => return body
      | none => unexpected "missing " 
    | _ => unexpected "syntax error: operand expected"

end

def read (text : Bytes) : Except Fault (Option Term) := do
  let found ← tokens (text.length + 1) text
  if found.isEmpty then return none
  let last := (found.getLast?.map Prod.snd).getD []
  match (sequence (24 * (found.length + 2))).run found with
  | .error fault => throw (if fault.token.isEmpty then { fault with token := last } else fault)
  | .ok (term, []) => return some term
  | .ok (_, (_, place) :: _) => throw ⟨"syntax error in expression", place⟩

/-! ## Values -/

open Shell

/-- The value of two numbers under an operator. -/
def apply (operator : String) (a b : Int) : Except String Int :=
  if operator = "**" then
    if b < 0 then .error "exponent less than 0"
    else .ok ((List.range (min b.toNat 100000)).foldl (fun value _ => Word64.toSigned (value * a)) 1)
  else match Arithmetic.apply operator a b with
    | .ok value => .ok value
    | .error _ => .error "division by 0"

/-- The number of the element that a subscript means; a negative one counts from the end. -/
def elementNumber (name : Bytes) (elements : Elements) (n : Int) : Step Nat := do
  let n := if n < 0 then n + elements.next else n
  if n < 0 then fail (name ++ utf8 ": bad array subscript")
  return n.toNat

/-- The elements of a variable; one that is no array has one. -/
def elementsOf (shell : Shell) (name : Bytes) : Elements :=
  let name := shell.follow 8 name
  match shell.specialElements? name with
  | some elements => elements
  | none => match shell.binding? name with
    | some { elements := some elements, .. } => elements
    | some { value := some value, .. } => .row [(0, value)]
    | _ => .row []

mutual

/-- The value of a term, of an expression that is spelled so. `fuel` bounds the terms in one another. -/
def evaluate : (fuel : Nat) → (whole : Bytes) → Term → Step Int
  | 0, whole, _ => fail (whole ++ utf8 ": expression recursion level exceeded")
  | fuel + 1, whole, term => do
    match term with
    | .number value => return value
    | .name name subscript => valueOf fuel name subscript
    | .signed operator body =>
      let value ← evaluate fuel whole body
      return match operator with
        | "-" => Word64.toSigned (-value)
        | "!" => Arithmetic.truth (value == 0)
        | "~" => -value - 1
        | _ => value
    | .operation operator first second =>
      let a ← evaluate fuel whole first
      let b ← evaluate fuel whole second
      match apply operator a b with
      | .ok value => return value
      | .error text => fail (whole ++ utf8 ": " ++ utf8 text ++ utf8 " (error token is \"" ++
          Bytes.decimalInt b ++ utf8 "\")")
    | .both first second =>
      if (← evaluate fuel whole first) = 0 then return 0
      else return Arithmetic.truth ((← evaluate fuel whole second) != 0)
    | .either first second =>
      if (← evaluate fuel whole first) ≠ 0 then return 1
      else return Arithmetic.truth ((← evaluate fuel whole second) != 0)
    | .choice condition yes no =>
      if (← evaluate fuel whole condition) ≠ 0 then evaluate fuel whole yes
      else evaluate fuel whole no
    | .assign operator name subscript value =>
      let value ← evaluate fuel whole value
      let value ← match operator with
        | none => pure value
        | some operator =>
          match apply operator (← valueOf fuel name subscript) value with
          | .ok value => pure value
          | .error text => fail (whole ++ utf8 ": " ++ utf8 text)
      store fuel name subscript value
      return value
    | .step name subscript size after =>
      let old ← valueOf fuel name subscript
      let new := Word64.toSigned (old + size)
      store fuel name subscript new
      return if after then old else new
    | .sequence first second =>
      let _ ← evaluate fuel whole first
      evaluate fuel whole second

/-- The value of an expression. -/
def evaluateText : (fuel : Nat) → Bytes → Step Int
  | 0, text => fail (text ++ utf8 ": expression recursion level exceeded")
  | fuel + 1, text => do
    match read text with
    | .error fault => fail (fault.message text)
    | .ok none => return 0
    | .ok (some term) => evaluate fuel text term

/-- The text by which the element of a subscript is found. -/
def keyOf : (fuel : Nat) → (name subscript : Bytes) → Step Bytes
  | 0, name, _ => fail (name ++ utf8 ": expression recursion level exceeded")
  | fuel + 1, name, subscript => do
    let elements := elementsOf (← get) name
    match elements with
    | .table _ => return subscript
    | .row _ =>
      return Bytes.decimal (← elementNumber name elements (← evaluateText fuel subscript))

/-- The number that the value of a variable or of an element denotes. -/
def valueOf : (fuel : Nat) → (name : Bytes) → (subscript : Option Bytes) → Step Int
  | 0, name, _ => fail (name ++ utf8 ": expression recursion level exceeded")
  | fuel + 1, name, subscript => do
    let text ← match subscript with
      | none => special name
      | some subscript =>
        let key ← keyOf fuel name subscript
        pure ((elementsOf (← get) name).get? key)
    match text with
    | none =>
      if (← get).hasOption 'u' then failAll (name ++ utf8 ": unbound variable")
      return 0
    | some text => evaluateText fuel text

/-- Gives a variable or an element a number. -/
def store : (fuel : Nat) → (name : Bytes) → (subscript : Option Bytes) → Int → Step Unit
  | 0, name, _, _ => fail (name ++ utf8 ": expression recursion level exceeded")
  | fuel + 1, name, subscript, value => do
    let text := Bytes.decimalInt value
    match subscript with
    | none => assign name text
    | some subscript =>
      let key ← keyOf fuel name subscript
      assignElements name ((elementsOf (← get) name).set key text)

end

/-- How many terms may be in one another. -/
def depth : Nat := 1024

def value (text : Bytes) : Step Int := evaluateText depth text

end ShellCompletion.Reckoning
