import ShellCompletion.Bytes

/-!
# The order of names with versions

Names are compared part by part: parts without digits by their bytes, with letters before other bytes
and a tilde before everything, and numbers by their values. What looks like the endings of file names
counts only between names that are the same without them.
-/
namespace ShellCompletion.Version

/-- The rank of what stands at the start of a text among the parts without digits. -/
def rank : Bytes → Int
  | [] => -1
  | c :: _ =>
    if Bytes.isDigit c then 0
    else if Bytes.isAlpha c then c.toNat
    else if c = '~'.toUInt8 then -2
    else c.toNat + 256

/-- Compares two texts from the first byte on. `fuel` bounds the bytes. -/
def compareParts : (fuel : Nat) → Bytes → Bytes → Ordering
  | 0, _, _ => .eq
  | fuel + 1, a, b =>
    let isWord (s : Bytes) : Bool := s.head?.any (!Bytes.isDigit ·)
    if a.isEmpty && b.isEmpty then .eq
    else if isWord a || isWord b then
      if rank a = rank b then compareParts fuel (a.drop 1) (b.drop 1)
      else compareOfLessAndEq (rank a) (rank b)
    else
      let (m, n) := (a.takeWhile Bytes.isDigit, b.takeWhile Bytes.isDigit)
      (compareOfLessAndEq (Bytes.digitsValue m) (Bytes.digitsValue n)).then
        (compareParts fuel (a.drop m.length) (b.drop n.length))

/-- A text starts like the ending of a file name. -/
def startsEnding : Bytes → Bool
  | dot :: c :: _ => dot == '.'.toUInt8 && (Bytes.isAlpha c || c == '~'.toUInt8)
  | _ => false

/-- What follows endings of file names at the start of a text. -/
def skipEndings : (fuel : Nat) → Bytes → Bytes
  | 0, s => s
  | fuel + 1, s =>
    if startsEnding s then
      skipEndings fuel ((s.drop 2).dropWhile fun c =>
        Bytes.isAlpha c || Bytes.isDigit c || c == '~'.toUInt8)
    else s

/-- A name without its endings; the first byte belongs to none. -/
def stem : (fuel : Nat) → Bytes → Bytes
  | 0, s => s
  | _, [] => []
  | fuel + 1, c :: rest =>
    if (skipEndings fuel rest).isEmpty then [c] else c :: stem fuel rest

/-- Names that start with a dot come first, and the two directory names first of these. -/
def dotRank (s : Bytes) : Nat :=
  if s.isEmpty then 0
  else if s = utf8 "." then 1
  else if s = utf8 ".." then 2
  else if s.head? = some '.'.toUInt8 then 3
  else 4

/-- The order of two names. -/
def compare (a b : Bytes) : Ordering :=
  let fuel := a.length + b.length + 1
  let order := compareOfLessAndEq (dotRank a) (dotRank b)
  if order != .eq then order
  else (compareParts fuel (stem a.length a) (stem b.length b)).then (compareParts fuel a b)

end ShellCompletion.Version
