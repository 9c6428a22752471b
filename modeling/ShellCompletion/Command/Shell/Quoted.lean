import ShellCompletion.Bytes

/-!
# Quoted texts

The forms in which texts are shown so that a script could read them again: behind backslashes, in single
or in double quotes, or with escapes for bytes that nobody can see.
-/
namespace ShellCompletion.Quoted

def isVisible (c : UInt8) : Bool := 32 ≤ c && c < 127

/-- The text holds bytes that nobody can see. -/
def hasHidden (text : Bytes) : Bool := !text.all isVisible

/-- The letter that stands for a byte after a backslash. -/
def letter? (c : UInt8) : Option Char :=
  [(7, 'a'), (27, 'E'), (8, 'b'), (12, 'f'), (10, 'n'), (13, 'r'), (9, 't'), (11, 'v'), (92, '\\'),
   (39, '\'')].lookup c

def escaped (text : Bytes) : Bytes :=
  let spelled (c : UInt8) : Bytes := match letter? c with
    | some letter => [92, letter.toUInt8]
    | none =>
      if isVisible c then [c]
      else 92 :: [c.toNat / 64, c.toNat / 8 % 8, c.toNat % 8].map fun digit => UInt8.ofNat (48 + digit)
  utf8 "$'" ++ text.flatMap spelled ++ [39]

def single (text : Bytes) : Bytes :=
  if text = [39] then [92, 39]
  else [39] ++ text.flatMap (fun c => if c = 39 then utf8 "'\\''" else [c]) ++ [39]

def double (text : Bytes) : Bytes :=
  [34] ++ text.flatMap (fun c => if (utf8 "\"\\$").contains c || c == 96 then [92, c] else [c]) ++ [34]

def meaningful : Bytes := utf8 " \t\n!\"$&'()*,;<>?[\\]^|" ++ [96, 123, 125]

/-- The byte at a place means something only there: at the start, or behind certain signs. -/
def isMeaningfulAt (before : Option UInt8) (c : UInt8) : Bool :=
  (c == '#'.toUInt8 && before.isNone) ||
    (c == '~'.toUInt8 && before.all fun d => d == ':'.toUInt8 || d == '='.toUInt8)

def backslashed (text : Bytes) : Bytes :=
  (text.foldl (fun (found, before) c =>
    let marked := meaningful.contains c || isMeaningfulAt before c
    (if marked then c :: 92 :: found else c :: found, some c)) (([] : Bytes), (none : Option UInt8))).1.reverse

def word (text : Bytes) : Bytes :=
  if text.isEmpty then utf8 "''" else if hasHidden text then escaped text else backslashed text

def reusable (text : Bytes) : Bytes := if hasHidden text then escaped text else single text

/-- The text means something to a script as it stands. -/
def needsQuotes (text : Bytes) : Bool :=
  let meaning : Bytes := utf8 " \t\n!\"$&'()*;<>?[\\]^|" ++ [96, 123, 125]
  text.any meaning.contains ||
    (text.foldl (fun (found, before) c => (found || isMeaningfulAt before c, some c))
      (false, (none : Option UInt8))).1

/-- The text as it is shown in a list: in quotes only if it needs them. -/
def listed (text : Bytes) : Bytes :=
  if hasHidden text then escaped text else if needsQuotes text then single text else text

/-- The text of a word that was run. -/
def traced (text : Bytes) : Bytes := if text.isEmpty then utf8 "''" else listed text

def declared (text : Bytes) : Bytes := if hasHidden text then escaped text else double text

end ShellCompletion.Quoted
