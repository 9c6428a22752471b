import ShellCompletion.Candidate
import ShellCompletion.Matching
import ShellCompletion.Path.Basic
import ShellCompletion.Quoting

/-!
# Ranking

Candidates of one name collapse into one (`deduplicate`); the rest are sorted by priority or, by
`smartRank`, by how well they match what has been typed: whole, from the start, scattered, or not
at all. Among scattered matches the higher score comes first: runs, the start of the text and the
starts of its words count more, gaps count less.
-/
namespace ShellCompletion

/-- The text of a candidate as it is compared: unquoted, and without one slash at its end. -/
def plainText (text : Bytes) : Bytes := Path.dropSlash (unquote text)

/-! ## Scores -/

/-- A byte after which a word of a name starts. -/
def isBoundary (c : UInt8) : Bool := (utf8 "-_/. ").contains c

namespace Score

def perMatch : Int := 10
def consecutive : Int := 15
def firstByte : Int := 20
def wordStart : Int := 10

/-- What a match adds for standing at the start of the text or of a word; `previous` is the byte
    before it. -/
def position : (previous : Option UInt8) → Int
  | none => firstByte
  | some c => if isBoundary c then wordStart else 0

/-- What a match adds for standing `gap` bytes after the match before it. -/
def spacing : (gap : Option Nat) → Int
  | none => 0
  | some 0 => consecutive
  | some gap => -gap

/-- The score of taking the query's bytes from the text as early as possible; none if they do not
    all occur in order. `gap` counts the bytes since the last match. -/
def from? (previous : Option UInt8) (gap : Option Nat) : (query text : Bytes) → Option Int
  | [], _ => some 0
  | _ :: _, [] => none
  | q :: query, c :: text =>
    if q = c then
      (from? (some c) (some 0) query text).map (perMatch + position previous + spacing gap + ·)
    else from? (some c) (gap.map (· + 1)) (q :: query) text

end Score

/-- How well the text holds the query's bytes in order: 0 if it does not, or if either is empty, and
    at least 1 if it does. -/
def fuzzyScore (settings : Settings) (query text : Bytes) : Int :=
  if query.isEmpty || text.isEmpty then 0
  else match Score.from? none none (settings.comparable query) (settings.comparable text) with
    | none => 0
    | some score => max 1 score

/-- How a candidate matches what has been typed, the best way first. -/
inductive Tier where
  | exact
  | start
  | scattered
  | none
deriving DecidableEq, Repr

namespace Tier

/-- The place of the tier in the order. -/
def rank : Tier → Nat
  | exact => 0
  | start => 1
  | scattered => 2
  | none => 3

end Tier

/-- How the text of a candidate matches the query. -/
def tierOf (settings : Settings) (query text : Bytes) : Tier :=
  let typed := plainText query
  let plain := plainText text
  if settings.matchesWhole plain typed then .exact
  else if settings.matchesStart plain typed then .start
  else if 0 < fuzzyScore settings typed plain then .scattered
  else .none

/-- The score of a scattered match; candidates of the other tiers are not told apart by score. -/
def scoreOf (settings : Settings) (query text : Bytes) : Int :=
  match tierOf settings query text with
  | .scattered => fuzzyScore settings (plainText query) (plainText text)
  | _ => 0

/-! ## Lists of candidates -/

/-- The name under which a candidate counts: the last part of its path for those that name files,
    its whole text for the others. -/
def Candidate.key (candidate : Candidate) : Bytes :=
  if candidate.category.isPathLike then Path.baseName (plainText candidate.text)
  else plainText candidate.text

/-- An executable takes the place of a plain file of its name. -/
def Candidate.displaces (new old : Candidate) : Bool :=
  new.category == .executable && old.category == .file

/-- Takes a candidate into a list that has one candidate for each name. -/
def absorb (kept : List Candidate) (new : Candidate) : List Candidate :=
  match kept with
  | [] => [new]
  | old :: rest =>
    if old.key = new.key then (if new.displaces old then new else old) :: rest
    else old :: absorb rest new

/-- One candidate for each name, in the order of their first occurrences. -/
def deduplicate (candidates : List Candidate) : List Candidate := candidates.foldl absorb []

/-- Sorts by falling priority; candidates of one priority keep their order. -/
def sortByPriority (candidates : List Candidate) : List Candidate :=
  candidates.mergeSort (fun a b => b.priority ≤ a.priority)

/-- A candidate with what its place in the smart order depends on. -/
structure Ranked where
  tier : Tier
  score : Int
  candidate : Candidate

namespace Ranked

def of (settings : Settings) (query : Bytes) (candidate : Candidate) : Ranked :=
  ⟨tierOf settings query candidate.text, scoreOf settings query candidate.text, candidate⟩

/-- `a` does not come after `b`: by tier, then by falling score, then by falling priority. -/
def le (a b : Ranked) : Bool :=
  if a.tier.rank ≠ b.tier.rank then a.tier.rank < b.tier.rank
  else if a.score ≠ b.score then b.score < a.score
  else b.candidate.priority ≤ a.candidate.priority

end Ranked

/-- Sorts by match with the query; candidates that match alike keep their order. -/
def smartRank (settings : Settings) (query : Bytes) (candidates : List Candidate) :
    List Candidate :=
  ((candidates.map (Ranked.of settings query)).mergeSort Ranked.le).map Ranked.candidate

end ShellCompletion
