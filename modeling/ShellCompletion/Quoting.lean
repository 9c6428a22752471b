import ShellCompletion.Bytes

/-!
# Quoting

A command line is read from left to right by an automaton that knows whether the next byte stands
inside quotes or after a backslash. A backslash escapes the next byte outside single quotes, also
between double quotes; single quotes take everything up to the next one as it stands. `unquote`
drops the bytes that only quote, and `quoteIfNeeded` puts a name into double quotes where it holds
a byte that is special to a shell.
-/
namespace ShellCompletion

/-- Where a left-to-right reading of a command line stands. -/
inductive Quoting where
  /-- Outside quotes. -/
  | bare
  /-- Between single quotes. -/
  | single
  /-- Between double quotes. -/
  | double
  /-- After a backslash outside quotes. -/
  | bareEscape
  /-- After a backslash between double quotes. -/
  | doubleEscape
deriving DecidableEq, Repr

/-- What one byte does on a command line. -/
inductive Role where
  /-- It stands unquoted and may end a word. -/
  | plain
  /-- It is quoted or escaped. -/
  | quoted
  /-- It is the quote or the backslash itself. -/
  | mark
deriving DecidableEq, Repr

namespace Quoting

/-- Reads one byte: what it does, and where the reading stands after it. -/
def feed : Quoting → UInt8 → Role × Quoting
  | bareEscape, _ => (.quoted, bare)
  | doubleEscape, _ => (.quoted, double)
  | single, c => if c = '\''.toUInt8 then (.mark, bare) else (.quoted, single)
  | double, c =>
    if c = '\\'.toUInt8 then (.mark, doubleEscape)
    else if c = '"'.toUInt8 then (.mark, bare)
    else (.quoted, double)
  | bare, c =>
    if c = '\\'.toUInt8 then (.mark, bareEscape)
    else if c = '"'.toUInt8 then (.mark, double)
    else if c = '\''.toUInt8 then (.mark, single)
    else (.plain, bare)

/-- The reading stands between quotes. -/
def insideQuotes : Quoting → Bool
  | bare | bareEscape => false
  | single | double | doubleEscape => true

/-- Each byte of a text with its role and the state after it. -/
def trace : Quoting → Bytes → List (Role × Quoting)
  | _, [] => []
  | q, c :: rest => q.feed c :: trace (q.feed c).2 rest

/-- The state after a whole text. -/
def after (q : Quoting) (s : Bytes) : Quoting := s.foldl (fun q c => (q.feed c).2) q

/-- The bytes of a text that are not quoting marks, read from the state `q`. -/
def strip : Quoting → Bytes → Bytes
  | _, [] => []
  | q, c :: rest =>
    let (role, next) := q.feed c
    if role = .mark then strip next rest else c :: strip next rest

end Quoting

/-- The text that a quoted or escaped text stands for; an open quote runs to its end. -/
def unquote (s : Bytes) : Bytes := Quoting.bare.strip s

/-- Bytes that end a word, group, quote or expand in a shell. -/
def needsQuoting (c : UInt8) : Bool := (utf8 " \t'\"\\()[]\x7b\x7d&|;<>*?$\x60").contains c

/-- Bytes that keep a meaning between double quotes. -/
def specialInDouble (c : UInt8) : Bool := (utf8 "\"\\$\x60").contains c

/-- The bytes with a backslash before each that keeps a meaning between double quotes. -/
def escapeInDouble : Bytes → Bytes
  | [] => []
  | c :: rest =>
    if specialInDouble c then '\\'.toUInt8 :: c :: escapeInDouble rest
    else c :: escapeInDouble rest

/-- The name as it can be typed: in double quotes if it holds a byte that needs them. -/
def quoteIfNeeded (name : Bytes) : Bytes :=
  if name.any needsQuoting then
    '"'.toUInt8 :: (escapeInDouble name ++ ['"'.toUInt8])
  else name

end ShellCompletion
