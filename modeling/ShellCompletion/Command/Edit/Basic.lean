import ShellCompletion.Command.Regex.Posix

/-!
# Scripts that edit lines

An edit is a list of commands. Each is for the lines that its addresses select, and changes the line
that is edited, the one that is kept, or what is printed.
-/
namespace ShellCompletion.Edit

/-- Which lines a command is for. An expression that is not given is the last one that was used. -/
inductive Address where
  | number (n : Nat)
  | last
  | regex (regex : Option Regex)
  /-- Every so many lines from one on. -/
  | steps (first step : Nat)

/-- The line with which a range ends. -/
inductive RangeEnd where
  | at (address : Address)
  /-- So many lines after the first one. -/
  | after (count : Nat)
  /-- The next line whose number can be divided so. -/
  | multiple (step : Nat)

/-- How letters are changed in what is put in the place of a match. -/
inductive CaseChange where
  | upper
  | lower
  | upperOne
  | lowerOne
  | plain
deriving DecidableEq

/-- A part of what is put in the place of a match. -/
inductive Substitute where
  | text (bytes : Bytes)
  | group (number : Nat)
  | change (change : CaseChange)

/-- How a substitution is done. -/
structure Substitution where
  regex : Option Regex
  parts : List Substitute
  /-- The first match that is replaced, and whether all after it are. -/
  first : Nat := 1
  every : Bool := false
  prints : Bool := false
  /-- The result is run as a command, and its output takes its place. -/
  runs : Bool := false
  file : Option Bytes := none

inductive Action where
  | opening
  | closing
  | label (name : Bytes)
  | branch (name : Bytes)
  | branchIfReplaced (name : Bytes)
  | branchUnlessReplaced (name : Bytes)
  | append (text : Bytes)
  | insert (text : Bytes)
  | change (text : Bytes)
  | translate (source target : Bytes)
  | substitute (substitution : Substitution)
  | quit (prints : Bool) (status : Nat)
  | readFile (name : Bytes)
  | readLine (name : Bytes)
  | writeFile (name : Bytes)
  | writeFirst (name : Bytes)
  | run (command : Bytes)
  /-- Shows the line without a doubt, cut at a width. -/
  | show (width : Option Nat)
  /-- One of the letters that say all. -/
  | simple (letter : Char)

structure Command where
  first : Option Address := none
  second : Option RangeEnd := none
  /-- The range may end with the line before the first one. -/
  fromZero : Bool := false
  negated : Bool := false
  action : Action

/-- Why a text is no edit. -/
inductive Fault where
  | unknownCommand (c : UInt8)
  | missingCommand
  | unmatchedOpening
  | unexpectedClosing
  | closingAddress
  | extraCharacters
  | unterminated (what : String)
  | expectedBackslash
  | severalNegations
  | unexpectedComma
  | missingFile
  | missingLabel
  | labelAddress
  | unknownLabel (name : Bytes)
  | unknownFlag
  | severalFlags (letter : Char)
  | zeroFlag
  | zeroAddress
  | lengthsDiffer
  | badReference (number : Nat)
  | regex (fault : Regex.Fault)
  | noAddresses
deriving DecidableEq

namespace Fault

def message : Fault → Bytes
  | unknownCommand c => utf8 "unknown command: " ++ [96, c] ++ utf8 "'"
  | missingCommand => utf8 "missing command"
  | unmatchedOpening => utf8 "unmatched " ++ [96, 123, 39]
  | unexpectedClosing => utf8 "unexpected " ++ [96, 125, 39]
  | closingAddress => [125] ++ utf8 " doesn't want any addresses"
  | extraCharacters => utf8 "extra characters after command"
  | unterminated what => utf8 "unterminated " ++ utf8 what
  | expectedBackslash => utf8 "expected \\ after " ++ [96] ++ utf8 "a', " ++ [96] ++ utf8 "c' or " ++
      [96] ++ utf8 "i'"
  | severalNegations => utf8 "multiple " ++ [96] ++ utf8 "!'s"
  | unexpectedComma => utf8 "unexpected " ++ [96] ++ utf8 ",'"
  | missingFile => utf8 "missing filename in r/R/w/W commands"
  | missingLabel => utf8 "\":\" lacks a label"
  | labelAddress => utf8 ": doesn't want any addresses"
  | unknownLabel name => utf8 "can't find label for jump to " ++ [96] ++ name ++ utf8 "'"
  | unknownFlag => utf8 "unknown option to " ++ [96] ++ utf8 "s'"
  | severalFlags letter => utf8 "multiple " ++ [96, letter.toUInt8] ++ utf8 "' options to " ++ [96] ++
      utf8 "s' command"
  | zeroFlag => utf8 "number option to " ++ [96] ++ utf8 "s' command may not be zero"
  | zeroAddress => utf8 "invalid usage of line address 0"
  | lengthsDiffer => utf8 "strings for " ++ [96] ++ utf8 "y' command are different lengths"
  | badReference number => utf8 "invalid reference \\" ++ Bytes.decimal number ++ utf8 " on " ++ [96] ++
      utf8 "s' command's RHS"
  | regex fault => utf8 fault.message
  | noAddresses => utf8 "command only uses one address"

end Fault

end ShellCompletion.Edit
