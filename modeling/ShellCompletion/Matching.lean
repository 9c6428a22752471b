import ShellCompletion.Settings

/-!
# Matching

A name matches what has been typed if it starts with it or, with fuzzy matching, if it holds its
bytes in the same order. Letter case counts only if the settings say so.
-/
namespace ShellCompletion

/-- `s` starts with `start`, with letters in either case. -/
def startsWithAnyCase (s start : Bytes) : Bool := (Bytes.lower start).isPrefixOf (Bytes.lower s)

/-- Every byte of the query is found in the text, one after the other. -/
def isSubsequence : (query text : Bytes) → Bool
  | [], _ => true
  | _ :: _, [] => false
  | q :: query, c :: text =>
    if q = c then isSubsequence query text else isSubsequence (q :: query) text

namespace Settings

/-- The text as it is compared: in lower case unless letter case counts. -/
def comparable (settings : Settings) (s : Bytes) : Bytes :=
  if settings.caseSensitive then s else Bytes.lower s

def matchesStart (settings : Settings) (name typed : Bytes) : Bool :=
  if settings.caseSensitive then Bytes.startsWith name typed else startsWithAnyCase name typed

def matchesWhole (settings : Settings) (name typed : Bytes) : Bool :=
  name.length == typed.length && settings.matchesStart name typed

/-- The query's bytes occur in the name in order. -/
def matchesScattered (settings : Settings) (name query : Bytes) : Bool :=
  isSubsequence (settings.comparable query) (settings.comparable name)

/-- The name is offered for what has been typed. -/
def accepts (settings : Settings) (name query : Bytes) : Bool :=
  settings.matchesStart name query ||
    (settings.fuzzyMatching && !query.isEmpty && settings.matchesScattered name query)

end Settings

end ShellCompletion
