import ShellCompletion.Candidate
import ShellCompletion.Line.Parse
import ShellCompletion.Matching
import ShellCompletion.Word64

/-!
# History

A history holds one entry for each distinct command line of the past. Its file has a line
`# <seconds since 1970>` before each command; lines before the first such header are commands
without a time. What followed the same words before is offered again, the more often and the more
recently used first.
-/
namespace ShellCompletion

/-- A command line of the past. -/
structure HistoryEntry where
  command : Bytes
  /-- How often it was run. -/
  frequency : Nat
  /-- When it was last run, in seconds since 1970; 0 if the history does not say. -/
  lastUsed : Int
deriving DecidableEq, Repr

/-- The entry after one more run of its command. -/
def HistoryEntry.again (entry : HistoryEntry) (time : Int) : HistoryEntry :=
  { entry with frequency := entry.frequency + 1, lastUsed := max entry.lastUsed time }

namespace History

/-- Counts one more run of a command. -/
def add (command : Bytes) (time : Int) : List HistoryEntry → List HistoryEntry
  | [] => [⟨command, 1, time⟩]
  | entry :: rest =>
    if entry.command = command then entry.again time :: rest else entry :: add command time rest

/-! ## The history file -/

/-- The text without the line feeds at its end. -/
def dropFinalLineFeeds (command : Bytes) : Bytes :=
  (command.reverse.dropWhile (· == '\n'.toUInt8)).reverse

/-- The entries that have been read from a file, and the place of each command's entry among them. -/
structure Recording where
  entries : List HistoryEntry := []
  places : List (Bytes × Nat) := []

/-- Counts a run of a command as the file spells it; one without anything but blanks is none. -/
def Recording.record (recording : Recording) (command : Bytes) (time : Int) : Recording :=
  let command := dropFinalLineFeeds command
  if (Bytes.trim command).isEmpty then recording
  else match recording.places.lookup command with
    | none =>
      ⟨recording.entries ++ [⟨command, 1, time⟩], (command, recording.entries.length) :: recording.places⟩
    | some place => { recording with entries := recording.entries.modify place (·.again time) }

/-- The largest time that a header can give. -/
def maxTime : Int := Word64.maxSigned

/-- The time of a header line; 0 if it gives none or a negative one. -/
def headerTime (header : Bytes) : Int :=
  match Bytes.readInteger (Bytes.untilNul (Bytes.trim (header.drop 1))) with
  | none => 0
  | some time => max 0 (min time maxTime)

/-- A reading of a history file: what has been recorded, and the time and command of the last header. -/
structure FileReading where
  recording : Recording := {}
  pending : Option (Int × Bytes) := none

namespace FileReading

/-- What has been recorded, with the command of the last header. -/
def finish (reading : FileReading) : Recording :=
  match reading.pending with
  | none => reading.recording
  | some (time, command) => reading.recording.record command time

/-- Reads a line: a header, the next line of the last header's command, or a command of its own. -/
def step (reading : FileReading) (line : Bytes) : FileReading :=
  if line.head? = some '#'.toUInt8 then ⟨reading.finish, some (headerTime line, [])⟩
  else match reading.pending with
    | none => { reading with recording := reading.recording.record line 0 }
    | some (time, command) =>
      let command := if command.isEmpty then line else command ++ '\n'.toUInt8 :: line
      { reading with pending := some (time, command) }

end FileReading

/-- The entries of a history file, in the order of their first occurrences. -/
def ofFile (content : Bytes) : List HistoryEntry :=
  ((Bytes.lines content).foldl FileReading.step {}).finish.entries

/-! ## Suggestions -/

def hour : Int := 60 * 60
def day : Int := 24 * hour
def week : Int := 7 * day

/-- Twice what one run counts: 4 within an hour, 2 within a day, 1 within a week, else a half. -/
def recency (lastUsed now : Int) : Nat :=
  let age := max 0 (now - lastUsed)
  if lastUsed ≤ 0 then 1
  else if age < hour then 8
  else if age < day then 4
  else if age < week then 2
  else 1

/-- Twice the weight of an entry: its frequency, as a float holds it, times what a run at its time
    counts. -/
def frecency (entry : HistoryEntry) (now : Int) : Nat :=
  Word64.roundToFloat entry.frequency * recency entry.lastUsed now

/-- How many commands an empty line is offered. -/
def recentLimit : Nat := 10

/-- The commands of one line that were last used, the most recent first. -/
def recentCommands (entries : List HistoryEntry) : List Candidate :=
  let recent := entries.mergeSort (fun a b => b.lastUsed ≤ a.lastUsed)
  ((recent.filter fun entry => !entry.command.contains '\n'.toUInt8).take recentLimit).map
    fun entry => Candidate.of .history entry.command (some (utf8 "recent command"))

/-- The word that follows the leading words in a command, if it starts with them and goes on. -/
def nextWord? (leading : List Bytes) (command : Bytes) : Option Bytes :=
  let all := words command
  if leading.isPrefixOf all then all[leading.length]? else none

/-- Adds a weight to the one of a word, which starts at nothing. The sum is what a float holds of it. -/
def addWeight (word : Bytes) (weight : Nat) : List (Bytes × Nat) → List (Bytes × Nat)
  | [] => [(word, weight)]
  | (other, sum) :: rest =>
    if other = word then (word, Word64.roundToFloat (sum + weight)) :: rest
    else (other, sum) :: addWeight word weight rest

/-- The words that followed the leading words and match what has been typed, each with the sum of
    its entries' weights, in the order of their first occurrences. -/
def weighedWords (settings : Settings) (entries : List HistoryEntry) (leading : List Bytes)
    (typed : Bytes) (now : Int) : List (Bytes × Nat) :=
  entries.foldl (fun weighed entry =>
    match nextWord? leading entry.command with
    | none => weighed
    | some word =>
      if settings.accepts word typed then addWeight word (frecency entry now) weighed else weighed) []

/-- The candidates from the history for a line: recent commands on an empty line, else the words
    that followed what stands before the current token. -/
def candidates (settings : Settings) (entries : List HistoryEntry) (line : Bytes)
    (parsed : ParsedLine) (now : Int) : List Candidate :=
  if (Bytes.trim line).isEmpty then recentCommands entries
  else
    let leading := words (line.take parsed.replaceStart)
    let weighed := weighedWords settings entries leading parsed.current now
    (weighed.mergeSort (fun a b => b.2 ≤ a.2)).map fun (word, _) =>
      Candidate.of .history word (some (utf8 "history"))

end History

end ShellCompletion
