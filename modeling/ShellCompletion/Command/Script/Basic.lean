import ShellCompletion.Bytes

/-!
# Scripts

The structure of a script. Words are made of pieces: plain text, and parameters, outputs of scripts
and sums whose values are put in their place. Each piece knows whether it stands in quotes. Commands
are made of words, and joined into larger ones.

Some of this is only found in scripts of the extended language: arrays, conditions and sums as commands,
and what is read or written through a channel.
-/
namespace ShellCompletion

mutual

/-- A piece of a word. -/
inductive Piece where
  /-- Text as it stands. Empty text in quotes makes a word that is there, though empty. -/
  | text (bytes : Bytes) (quoted : Bool)
  /-- The value of a parameter. -/
  | parameter (name : Bytes) (change : Change) (quoted : Bool)
  /-- What a script prints; nothing if there is none. -/
  | output (script : Option Script) (quoted : Bool)
  /-- The value of an integer expression. -/
  | sum (expression : List Piece) (quoted : Bool)
  /-- The value of an element of an array, or of a variable. If it is indirect, it is the value of what
      that value names. -/
  | element (name : Bytes) (subscript : Option (List Piece)) (indirect : Bool) (change : Change)
      (quoted : Bool)
  /-- The path of a file: what a script prints is read there, or what is written there is read by the
      script. -/
  | channel (reads : Bool) (script : Option Script)
  /-- The elements of an array. -/
  | list (elements : List (List Piece))

/-- What is made of the value of a parameter. With `orEmpty`, an empty value is as good as none. -/
inductive Change where
  | none
  | length
  /-- The word in the stead of a value that is not there. -/
  | default (orEmpty : Bool) (word : List Piece)
  /-- The same, and the word becomes the value. -/
  | assign (orEmpty : Bool) (word : List Piece)
  /-- The word is what is said if the value is not there. -/
  | demand (orEmpty : Bool) (word : List Piece)
  /-- The word in the stead of a value that is there. -/
  | alternative (orEmpty : Bool) (word : List Piece)
  /-- The value without a part at its start or end that matches a pattern. -/
  | cut (atEnd longest : Bool) (pattern : List Piece)
  /-- The part of the value from a place on, maybe of some length. -/
  | slice (start : List Piece) (length : Option (List Piece))
  /-- The value with another text in the stead of what matches a pattern: of the first match or of every
      one, anywhere or only at the start or at the end. -/
  | replace (every : Bool) (place : Option Bool) (pattern replacement : List Piece)
  /-- The value with letters that match a pattern in the other case: in upper case, in lower case or in
      the other one. -/
  | fold (upper : Option Bool) (every : Bool) (pattern : List Piece)
  /-- The value in another form, which a letter tells. -/
  | transform (letter : UInt8)
  /-- The subscripts of the elements. -/
  | keys
  /-- The names of the variables that start so. -/
  | names
  /-- What nothing can be made of. -/
  | invalid

/-- What is redirected, and to where. -/
inductive Redirection where
  | file (descriptor : Nat) (kind : FileRedirection) (target : List Piece)
  /-- The descriptor becomes the same as another one, or is closed. -/
  | duplicate (descriptor : Nat) (source : List Piece)
  /-- The text of a document is read. -/
  | document (descriptor : Nat) (body : List Piece)

inductive FileRedirection where
  | input
  | output
  /-- Even if a file is there that is not to be lost. -/
  | clobber
  | append
  | readWrite

/-- A command, or several that are joined. -/
inductive Script where
  | simple (line : Nat) (assignments : List Assignment) (words : List (List Piece))
      (redirections : List Redirection)
  | sequence (first second : Script)
  | background (line : Nat) (body : Script) (redirections : List Redirection)
  /-- The second one is run if the first one succeeds. -/
  | both (first second : Script)
  /-- The second one is run if the first one fails. -/
  | either (first second : Script)
  | negate (body : Script)
  /-- The output of each is the input of the next. -/
  | pipeline (stages : List Script)
  | choose (condition yes : Script) (no : Option Script)
  /-- The body is run as long as the condition ends in `success`. -/
  | loop (success : Bool) (condition body : Script)
  /-- The body is run for each of the words, or for each argument. -/
  | each (line : Nat) (name : Bytes) (words : Option (List (List Piece))) (body : Script)
  /-- The first arm is run that has a pattern which the word matches. -/
  | select (line : Nat) (word : List Piece) (arms : List Arm)
  | subshell (line : Nat) (body : Script) (redirections : List Redirection)
  | define (name : Bytes) (body : Script)
  | redirect (line : Nat) (body : Script) (redirections : List Redirection)
  /-- Succeeds if a condition holds. -/
  | check (line : Nat) (condition : Check)
  /-- Succeeds if the value of an expression is not zero. -/
  | reckon (line : Nat) (expression : List Piece)
  /-- The body is run as long as the value of an expression is not zero. -/
  | count (line : Nat) (first test next : List Piece) (body : Script)
  /-- The body is run for a word that somebody chooses among others. -/
  | menu (line : Nat) (name : Bytes) (words : Option (List (List Piece))) (body : Script)
  /-- It is told how long the body takes. -/
  | timed (body : Script)

/-- A condition on words. -/
inductive Check where
  | word (word : List Piece)
  | unary (operator : Bytes) (word : List Piece)
  | binary (operator : Bytes) (first second : List Piece)
  | not (body : Check)
  | both (first second : Check)
  | either (first second : Check)

/-- A variable, or an element of an array, with the word that it gets as its value, maybe after the one
    that it has. -/
inductive Assignment where
  | mk (name : Bytes) (subscript : Option (List Piece)) (appends : Bool) (value : List Piece)

/-- Patterns, and what is run if one of them matches. -/
inductive Arm where
  | mk (patterns : List (List Piece)) (body : Option Script) (after : AfterArm)

/-- What is done after an arm. -/
inductive AfterArm where
  | leave
  /-- The next arm is run as well. -/
  | runNext
  /-- The patterns of the next arms are tried as well. -/
  | tryNext

end

abbrev Word := List Piece

instance : Inhabited Script := ⟨.sequence (.pipeline []) (.pipeline [])⟩

/-! ## Names -/

def isNameStart (c : UInt8) : Bool := Bytes.isAlpha c || c == '_'.toUInt8

def isNameByte (c : UInt8) : Bool := isNameStart c || Bytes.isDigit c

def isName (text : Bytes) : Bool := text.head?.any isNameStart && text.all isNameByte

/-- The text of a word without quotes and values. -/
def Word.plain? (word : Word) : Option Bytes :=
  (word.mapM fun (piece : Piece) => match piece with
    | .text bytes false => some bytes
    | _ => none).map List.flatten

def Word.assignment? (word : Word) : Option (Bytes × Word) :=
  match word with
  | .text bytes false :: rest =>
    let name := Bytes.before '='.toUInt8 bytes
    if name.length < bytes.length && isName name then
      some (name, .text (bytes.drop (name.length + 1)) false :: rest)
    else none
  | _ => none

/-- The pieces up to the closing bracket of a subscript that a sign for an assignment follows, whether
    the value is appended, and the word after that. -/
def subscriptEnd : Word → Option (Word × Bool × Word)
  | [] => none
  | .text bytes false :: rest =>
    let isEnd (place : Nat) : Bool :=
      (utf8 "]=").isPrefixOf (bytes.drop place) || (utf8 "]+=").isPrefixOf (bytes.drop place)
    match (List.range bytes.length).find? isEnd with
    | some place =>
      let appends := bytes[place + 1]? == some '+'.toUInt8
      let after := bytes.drop (place + if appends then 3 else 2)
      some ([.text (bytes.take place) false], appends, .text after false :: rest)
    | none => (subscriptEnd rest).map fun (subscript, rest) => (.text bytes false :: subscript, rest)
  | piece :: rest => (subscriptEnd rest).map fun (subscript, rest) => (piece :: subscript, rest)

/-- The piece stands for values of which each is a word, so that it may be no word at all. -/
def Piece.mayVanish : Piece → Bool
  | .parameter name change _ => name = utf8 "@" && keepsCount change
  | .element _ (some [.text sign false]) false change _ => sign = utf8 "@" && keepsCount change
  | .element _ none false .names quoted => quoted
  | _ => false
where
  keepsCount : Change → Bool
    | .length | .default .. | .invalid => false
    | _ => true

/-- Quoted pieces, as a part of a word. The word is there, though they may be empty, unless they stand
    for values. -/
def Piece.quoted (pieces : List Piece) : List Piece :=
  let hasText := pieces.any fun piece => match piece with
    | .text bytes _ => !bytes.isEmpty
    | _ => false
  if pieces.any Piece.mayVanish && !hasText then pieces else .text [] true :: pieces

/-- What a word assigns in the extended language: the name, the subscript, whether the value is
    appended, and the value. -/
def Word.extendedAssignment? (word : Word) : Option (Bytes × Option Word × Bool × Word) :=
  match word with
  | .text bytes false :: rest =>
    let name := bytes.takeWhile isNameByte
    if !isName name then none
    else match bytes.drop name.length with
      | 61 :: value => some (name, none, false, .text value false :: rest)
      | 43 :: 61 :: value => some (name, none, true, .text value false :: rest)
      | 91 :: after =>
        (subscriptEnd (.text after false :: rest)).map fun (subscript, appends, value) =>
          (name, some subscript, appends, value)
      | _ => none
  | _ => none

/-- The subscript and the value of an element as it is spelled in a list. -/
def Word.listed? (word : Word) : Option (Word × Bool × Word) :=
  match word with
  | .text (91 :: bytes) false :: rest => subscriptEnd (.text bytes false :: rest)
  | _ => none

end ShellCompletion
