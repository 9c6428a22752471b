import Std.Data.HashMap
import ShellCompletion.Command.Awk.Basic

/-!
# Values and arrays

A value is a number, a text, or a text that was read and counts as a number if it looks like one. An
array keeps its elements in rows, and the order in which they are gone through depends on how they were
used: numbers and texts have rows of their own, and what is looked up comes to the front of its row.
-/
namespace ShellCompletion.Awk

inductive Value where
  | nothing
  | number (value : Float)
  | text (bytes : Bytes)
  /-- What was read. -/
  | input (bytes : Bytes)

instance : Inhabited Value := ⟨.nothing⟩

namespace Value

def numberOf (text : Bytes) : Float := ((Format.readFloat text).map Prod.fst).getD 0

/-- The number that the whole text spells, maybe with blanks around it. -/
def wholeNumber? (text : Bytes) : Option Float :=
  let text := text.dropWhile Bytes.isSpace
  let core := (text.reverse.dropWhile Bytes.isSpace).reverse
  let starts := core.head?.any fun c => Bytes.isDigit c || (utf8 "+-.").contains c
  let ends := core.getLast?.any fun c => Bytes.isDigit c || c == '.'.toUInt8
  if !starts || !ends then none
  else match Format.readFloat core with
    | some (value, []) => some value
    | _ => none

def toNumber : Value → Float
  | nothing => 0
  | number value => value
  | text bytes | input bytes => numberOf bytes

def number? : Value → Option Float
  | nothing => some 0
  | number value => some value
  | text _ => none
  | input bytes => wholeNumber? bytes

def isTrue : Value → Bool
  | nothing => false
  | number value => value != 0
  | text bytes => !bytes.isEmpty
  | input bytes => match wholeNumber? bytes with
    | some value => value != 0
    | none => !bytes.isEmpty

def ofBool (b : Bool) : Value := number (if b then 1 else 0)

end Value

/-- The largest and the smallest integers that numbers are printed as. -/
def largest : Int := 18446744073709551615
def halfway : Float := 9223372036854775808.0
def most : Int := 9223372036854775807
def least : Int := -9223372036854775808

/-- The integer of at most 64 bits that is nearest to a number, without a sign if it is large. -/
def integerOf (value : Float) : Int :=
  if halfway ≤ value then Format.truncated 0 largest value
  else if value < -halfway then -most
  else Format.truncated least most value

/-- The digits of a number that is an integer of at most 64 bits. -/
def integerText? (value : Float) : Option Bytes :=
  let n := integerOf value
  if Float.ofInt n == value then some (Bytes.decimalInt n) else none

/-! ## Arrays -/

structure Table where
  cells : Std.HashMap Bytes Value := {}
  /-- Texts have rows. -/
  hasTexts : Bool := false
  texts : Array (List Bytes) := #[]
  numbers : Array (List Int) := #[]
  /-- The elements are those from one on, and none has been looked up. -/
  isRow : Bool := false

namespace Table

def firstRows : Nat := 64
def rowLength : Nat := 12

def hash (text : Bytes) : Nat :=
  (text.foldl (fun (sum : UInt32) c => (sum ^^^ c.toUInt32) * 16777619) 2166136261).toNat

def size (table : Table) : Nat := table.cells.size

def textRow (table : Table) (text : Bytes) : Nat := hash text % table.texts.size

def numberRow (table : Table) (n : Int) : Nat := (n % table.numbers.size).toNat

def emptyRows (table : Table) (count : Nat) : Table :=
  { table with texts := Array.replicate count [], numbers := Array.replicate count [] }

def splitRows {α : Type} (rows : Array (List α)) (place : α → Nat) : Array (List α) :=
  let count := rows.size
  let stays := rows.mapIdx fun index row => row.filter fun item => place item % (2 * count) == index
  let moves := rows.mapIdx fun index row => row.filter fun item => place item % (2 * count) != index
  stays ++ moves

/-- Makes room for one more element. -/
def grow (table : Table) : Table :=
  if table.size < rowLength * table.texts.size then table
  else
    let count := 2 * table.texts.size
    { table with
      texts := splitRows table.texts hash
      numbers := splitRows table.numbers fun n => (n % count).toNat }

/-- Gives the numbers of a row rows. -/
def spreadRow (table : Table) : Table :=
  if !table.isRow then table
  else
    let count := (List.range 40).foldl (fun count _ =>
      if rowLength * count < table.size then 2 * count else count) firstRows
    let table := { table.emptyRows count with isRow := false }
    (List.range table.size).foldl (fun table (index : Nat) =>
      let n : Int := index + 1
      { table with numbers := table.numbers.modify (table.numberRow n) (n :: ·) }) table

/-- Gives the texts of numbers rows. -/
def addTexts (table : Table) : Table :=
  if table.hasTexts || table.size = 0 then table
  else
    let table := { table.spreadRow with hasTexts := true }
    table.numbers.foldl (fun table row => row.foldl (fun table n =>
      let text := Bytes.decimalInt n
      { table with texts := table.texts.modify (table.textRow text) (text :: ·) }) table) table

/-- Looks a text up; it is added if that is wanted. Tells whether it is there then. -/
def findText (table : Table) (adds : Bool) (text : Bytes) : Bool × Table :=
  if table.size = 0 && !adds then (false, table)
  else
    let table := if table.size = 0 then { table.emptyRows firstRows with hasTexts := true }
      else table.addTexts
    if table.cells.contains text then
      let row := table.textRow text
      (true, { table with texts := table.texts.modify row fun row => text :: row.erase text })
    else if adds then
      let table := table.grow
      (true, { table with
        texts := table.texts.modify (table.textRow text) (text :: ·)
        cells := table.cells.insert text .nothing })
    else (false, table)

def findNumber (table : Table) (adds : Bool) (n : Int) : Bool × Table :=
  if table.size = 0 && !adds then (false, table)
  else
    let isIn := 1 ≤ n && n ≤ table.size
    if table.isRow && isIn then (true, table)
    else if table.isRow && !adds then (false, table)
    else
      let table := if table.size = 0 then { table.emptyRows firstRows with hasTexts := false }
        else table.spreadRow
      let row := table.numberRow n
      if (table.numbers.getD row []).contains n then
        (true, { table with numbers := table.numbers.modify row fun row => n :: row.erase n })
      else
        let text := Bytes.decimalInt n
        let (found, table) := if table.hasTexts then table.findText adds text
          else if adds then
            let table := table.grow
            (true, { table with cells := table.cells.insert text .nothing })
          else (false, table)
        (found, if found then
            { table with numbers := table.numbers.modify (table.numberRow n) (n :: ·) }
          else table)

/-- What an element is found by. -/
inductive Key where
  | text (bytes : Bytes)
  | number (n : Int)

def Key.bytes : Key → Bytes
  | .text bytes => bytes
  | .number n => Bytes.decimalInt n

def find (table : Table) (adds : Bool) : Key → Bool × Table
  | .text bytes => table.findText adds bytes
  | .number n => table.findNumber adds n

/-- The value of an element, which is there afterwards. -/
def get (table : Table) (key : Key) : Value × Table :=
  let (_, table) := table.find true key
  (table.cells.getD key.bytes .nothing, table)

def set (table : Table) (key : Key) (value : Value) : Table :=
  let (_, table) := table.find true key
  { table with cells := table.cells.insert key.bytes value }

def erase (table : Table) (key : Key) : Table :=
  let table := match key with
    | .number n => if table.isRow && 1 ≤ n && n ≤ table.size then table.spreadRow else table
    | .text _ => table
  let (found, table) := table.find false key
  if !found then table
  else if table.size = 1 then {}
  else
    let text := key.bytes
    let n? := Bytes.readInteger text
    { table with
      cells := table.cells.erase text
      texts := if table.hasTexts then table.texts.modify (table.textRow text) (·.erase text)
        else table.texts
      numbers := match n? with
        | some n => table.numbers.modify (table.numberRow n) fun row =>
          row.filter fun other => Bytes.decimalInt other != text
        | none => table.numbers }

/-- The elements in the order in which they are gone through. -/
def keys (table : Table) : List Bytes × Table :=
  if table.size = 0 then ([], table)
  else
    let table := table.addTexts
    (table.texts.toList.flatten, table)

def ofList (values : List Value) : Table :=
  { cells := values.zipIdx.foldl (fun cells (value, index) =>
      cells.insert (Bytes.decimal (index + 1)) value) {}
    isRow := !values.isEmpty }

end Table

end ShellCompletion.Awk
