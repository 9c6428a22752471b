import ShellCompletion.FileTree

/-!
# Permissions

The nine bits that say who may read, write and run a file, with three more: as numbers in base eight, as
letters, and as changes of what they were.
-/
namespace ShellCompletion.Permissions

def kindOf : FileNode → Char
  | .file .. => 'f'
  | .directory => 'd'
  | .link _ => 'l'
  | .pipe => 'p'

def letters (kind : Char) (mode : Nat) : Bytes :=
  let bit (n : Nat) : Bool := mode / n % 2 == 1
  let triple (shift special : Nat) (small large : Char) : List Char :=
    [if bit (4 * shift) then 'r' else '-', if bit (2 * shift) then 'w' else '-',
     if bit special then (if bit shift then small else large) else if bit shift then 'x' else '-']
  let first := if kind = 'f' then '-' else kind
  (first :: triple 64 2048 's' 'S' ++ triple 8 1024 's' 'S' ++ triple 1 512 't' 'T').map Char.toUInt8

def digits (mode : Nat) : Bytes := (Nat.toDigits 8 mode).map Char.toUInt8

/-- Some permission to run the file is given. -/
def isExecutable (mode : Nat) : Bool := mode &&& 73 != 0

/-- A change of the permissions of somebody. -/
structure Clause where
  /-- The bits of those who are meant; all, if nobody is named. -/
  who : Option Nat
  /-- The bits that are left alone where nobody is named. -/
  mask : Nat
  sign : UInt8
  /-- The letters after the sign. -/
  letters : Bytes

namespace Clause

/-- The bits of a permission for everybody. -/
def bitsOf (mode : Nat) (isDirectory : Bool) (letter : UInt8) : Nat :=
  let is (c : Char) : Bool := c.toUInt8 == letter
  if is 'r' then 292
  else if is 'w' then 146
  else if is 'x' then 73
  else if is 'X' then (if isDirectory || isExecutable mode then 73 else 0)
  else if is 's' then 3072
  else if is 't' then 512
  else
    let own := if is 'u' then mode / 64 % 8 else if is 'g' then mode / 8 % 8 else mode % 8
    own * 73

def apply (clause : Clause) (isDirectory : Bool) (mode : Nat) : Nat :=
  let bits := clause.letters.foldl (fun bits c => bits ||| bitsOf mode isDirectory c) 0
  let who := clause.who.getD (4095 - clause.mask)
  let meant := bits &&& (who ||| if bits &&& 512 != 0 then 512 else 0)
  let kept := if isDirectory then 3072 else 0
  if clause.sign = '+'.toUInt8 then mode ||| meant
  else if clause.sign = '-'.toUInt8 then mode - (mode &&& meant)
  else
    let cleared := clause.who.getD 4095
    (mode - (mode &&& (cleared - (cleared &&& kept)))) ||| meant

def whoBits? (letters : Bytes) : Option Nat :=
  let has (c : Char) : Bool := letters.contains c.toUInt8
  if letters.isEmpty then none
  else if has 'a' then some 4095
  else some ((if has 'u' then 2496 else 0) ||| (if has 'g' then 1080 else 0) |||
    (if has 'o' then 519 else 0))

end Clause

/-- The clauses of one part of a text, which has one sign or more after the letters of those who are
    meant. -/
def readClauses (who : Option Nat) (mask : Nat) : (fuel : Nat) → Bytes → Option (List Clause)
  | 0, _ => none
  | _, [] => some []
  | fuel + 1, sign :: rest =>
    if !(utf8 "+-=").contains sign then none
    else
      let letters := rest.takeWhile (utf8 "rwxXstugo").contains
      (readClauses who mask fuel (rest.drop letters.length)).map (⟨who, mask, sign, letters⟩ :: ·)

/-- The change that a text says: from the kind of file and the permissions to new ones. -/
def read (mask : Nat) (text : Bytes) : Option (Bool → Nat → Nat) :=
  if !text.isEmpty && text.all Bytes.isOctal then
    let n := Bytes.valueIn 8 text
    if n < 4096 then
      some fun isDirectory mode =>
        if isDirectory && text.length < 5 then n ||| (mode &&& 3072) else n
    else none
  else
    let parts := (Bytes.fields ','.toUInt8 text).mapM fun part =>
      let who := part.takeWhile (utf8 "ugoa").contains
      let rest := part.drop who.length
      if rest.isEmpty then none else readClauses (Clause.whoBits? who) mask (rest.length + 1) rest
    parts.map fun parts isDirectory mode =>
      parts.flatten.foldl (fun mode clause => clause.apply isDirectory mode) mode

end ShellCompletion.Permissions
