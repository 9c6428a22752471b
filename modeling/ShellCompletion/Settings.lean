import ShellCompletion.Bytes

/-!
# Settings

What a user may tune, with its defaults.
-/
namespace ShellCompletion

structure Settings where
  /-- Letters match only in their own case. -/
  caseSensitive : Bool := false
  /-- A name also matches what has been typed if it holds its bytes in order. -/
  fuzzyMatching : Bool := false
  /-- Candidates are ordered by how well they match before their priority counts. -/
  smartRanking : Bool := true
  maxResults : Int := 30
  /-- How long a command may run, in milliseconds. -/
  subprocessTimeout : Int := 750
  showHiddenFiles : Bool := false
  includeSystemUsers : Bool := false
  historySuggestions : Bool := true
  /-- Commands may be run for candidates. -/
  dynamicHandlers : Bool := true
  /-- Further directories with schema documents. -/
  extraSchemaDirectories : List Bytes := []
deriving DecidableEq, Repr, Inhabited

end ShellCompletion
