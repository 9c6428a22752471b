import ShellCompletion.Handler
import ShellCompletion.History
import ShellCompletion.Ranking
import ShellCompletion.Suggestion
import ShellCompletion.System.Signals
import ShellCompletion.System.Tables

/-!
# The completion engine

The engine answers a request for the candidates at a cursor. It parses the line, gathers candidates
from schemas, files, commands, system tables and the history, makes them distinct and ranks them.
Where the line runs another command, as behind `sudo`, that command's part of the line is completed
in its stead. Listings, tables and the output of commands are cached from one request to the next.

A request can come in while a command runs for another one. It supersedes it: the older request
ends with no candidates.
-/
namespace ShellCompletion

/-! ## Requests in flight -/

/-- The requests of an engine: how many have started, and which of them have been superseded. -/
structure Requests where
  started : Nat := 0
  superseded : List Nat := []
deriving Repr

namespace Requests

/-- Starts a request, which supersedes the one started before it. The request's number comes
    first. -/
def start (requests : Requests) : Nat × Requests :=
  (requests.started,
    { started := requests.started + 1
      superseded :=
        if requests.started = 0 then requests.superseded
        else (requests.started - 1) :: requests.superseded })

def isSuperseded (requests : Requests) (request : Nat) : Bool := requests.superseded.contains request

end Requests

/-! ## The world of a request -/

/-- A command that is run for its output. -/
structure CommandCall where
  words : List Bytes
  directory : Bytes
  /-- How long it may run, in milliseconds. -/
  timeout : Int
deriving DecidableEq, Repr

/-- Runs a command: its output, or why there is none. -/
abbrev CommandRunner := CommandCall → Except Bytes Bytes

/-- What the engine sees of the outside while it answers a request. -/
structure World where
  settings : Settings := {}
  environment : Environment
  /-- The time by which caches go, in milliseconds. -/
  now : Int := 0
  /-- Seconds since 1970. -/
  epoch : Int
  database : Option Database
  reader : DirectoryReader
  files : SystemFiles
  runner : CommandRunner
  history : Option (List HistoryEntry)

namespace World

/-- What paths are completed with. -/
def paths (world : World) : PathContext := ⟨world.settings, world.environment, world.reader, world.now⟩

end World

/-- The candidates for a line, and the span that a chosen one takes the place of. -/
structure Completion where
  candidates : List Candidate
  replaceStart : Nat
  replaceStop : Nat
deriving DecidableEq, Repr

def commandLabel (words : List Bytes) : Bytes := Bytes.join (utf8 " ") words

/-- The line a user goes on to type, in a directory, while the command of that label runs. -/
structure Arrival where
  during : Bytes
  line : Bytes
  directory : Bytes
deriving DecidableEq, Repr

/-- What an engine keeps from one request to the next, with a log of what it did. -/
structure Engine where
  listings : Listings := {}
  tables : SystemTables := {}
  outputs : Cache Bytes := { timeToLive := 3000 }
  requests : Requests := {}
  /-- The commands that were run. -/
  calls : List CommandCall := []
  /-- Requests that are still to come in. -/
  arrivals : List Arrival := []
  /-- The answers to requests that came in while a command ran. -/
  answered : List Completion := []

namespace Engine

/-- The key of a command's output: the directory and the words, with a separator between them. -/
def outputKey (words : List Bytes) (directory : Bytes) : Bytes :=
  directory ++ words.flatMap (0x1f :: ·)

/-- Does something with the cached listings. -/
def withListings {α : Type} (action : StateM Listings α) : StateM Engine α := fun engine =>
  let (result, listings) := action engine.listings
  (result, { engine with listings })

/-- Does something with the cached tables. -/
def withTables {α : Type} (action : StateM SystemTables α) : StateM Engine α := fun engine =>
  let (result, tables) := action engine.tables
  (result, { engine with tables })

/-! ## Wrapped commands -/

/-- How deep a command may stand behind others. -/
def maxDepth : Nat := 8

/-- How many positional arguments stand before the token under the cursor. -/
def filledArguments (parsed : ParsedLine) : Nat :=
  let typing := !parsed.current.isEmpty &&
    (parsed.arguments.getLast?.map Token.start) == some parsed.replaceStart
  parsed.arguments.length - if typing then 1 else 0

/-- Where the command that this line runs starts: at the first positional argument that is a command
    with its own words, if one stands before the token under the cursor. -/
def wrappedCommand? (database : Option Database) (parsed : ParsedLine) : Option Nat :=
  if parsed.context = .command then none
  else match database.bind (·.find? parsed.command) with
    | none => none
    | some schema =>
      let specs := schema.argumentsAt (schema.resolve parsed.subcommandPath)
      let wraps (index : Nat) : Bool := argumentTypeAt specs index == some .commandWithArgs
      match (List.range (filledArguments parsed)).find? wraps with
      | none => none
      | some index => (parsed.arguments[index]?).map Token.start

/-! ## Sources of candidates -/

/-- The candidates that the system's tables have for the kind of value being typed. -/
def tableCandidates (world : World) (parsed : ParsedLine) : StateM Engine (List Candidate) :=
  let token := parsed.current
  match parsed.context.valueType with
  | some .signal => pure (Signal.candidates token)
  | some .user => withTables (SystemTables.userCandidates world.settings world.files world.now token)
  | some .group => withTables (SystemTables.groupCandidates world.files world.now token)
  | some .interface =>
    withTables (SystemTables.interfaceCandidates world.settings world.files world.now token)
  | some .process =>
    withTables (SystemTables.processCandidates world.settings world.files world.now token)
  | _ => pure []

/-- The candidates from the history, if there is one and the settings want it. -/
def historyCandidates (world : World) (line : Bytes) (parsed : ParsedLine) : List Candidate :=
  match world.history with
  | none => []
  | some entries =>
    if world.settings.historySuggestions then
      History.candidates world.settings entries line parsed world.epoch
    else []

/-- Distinct candidates in the order in which they are offered. -/
def ranked (settings : Settings) (query : Bytes) (candidates : List Candidate) : List Candidate :=
  let sorted := sortByPriority (deduplicate candidates)
  if settings.fuzzyMatching || settings.smartRanking then smartRank settings query sorted else sorted

/-- The answers of the handlers, in order, until the request is superseded. -/
def handlerCandidates (world : World) (ask : List Bytes → StateM Engine (List Bytes))
    (request : Nat) (parsed : ParsedLine) : List Handler → StateM Engine (List Candidate)
  | [] => pure []
  | handler :: rest => do
    if (← get).requests.isSuperseded request then return []
    if handler.answers parsed then
      let found ← handler.candidates ask world.settings parsed
      return found ++ (← handlerCandidates world ask request parsed rest)
    else handlerCandidates world ask request parsed rest

/-- Completes a line. `ask` runs a command for its lines in the current directory. `depth` bounds how
    far wrapped commands are still looked for. -/
def complete (world : World) (ask : List Bytes → StateM Engine (List Bytes)) (request : Nat)
    (directory : Bytes) : (depth : Nat) → (line : Bytes) → (cursor : Nat) → StateM Engine Completion
  | depth, line, cursor =>
    let parsed := parse world.database line cursor
    match depth, wrappedCommand? world.database parsed with
    | depth + 1, some offset => do
      let inner ← complete world ask request directory depth (line.drop offset)
        (parsed.replaceStop - offset)
      return { inner with
        replaceStart := inner.replaceStart + offset, replaceStop := inner.replaceStop + offset }
    | _, _ => do
      let suggested ← withListings
        (Suggestion.candidates world.paths world.database directory parsed)
      let superseded := (← get).requests.isSuperseded request
      let handled ←
        if world.settings.dynamicHandlers && !superseded then
          handlerCandidates world ask request parsed Handler.all
        else pure []
      let listed ← tableCandidates world parsed
      let remembered := historyCandidates world line parsed
      let all := suggested ++ handled ++ listed ++ remembered
      let isArgument := match parsed.context with
        | .argument .. => true
        | _ => false
      let all ←
        if all.isEmpty && isArgument then
          withListings (Suggestion.fileCandidates world.paths directory parsed.current)
        else pure all
      return ⟨ranked world.settings parsed.current all, parsed.replaceStart, parsed.replaceStop⟩

/-! ## Requests -/

/-- How many candidates a request gets that comes in while a command runs. -/
def arrivalLimit : Nat := 30

/-- Takes the request that comes in while the words run, if there is one, off the list. -/
def takeArrival (words : List Bytes) : StateM Engine (Option Arrival) := fun engine =>
  let label := commandLabel words
  (engine.arrivals.find? (·.during = label),
    { engine with arrivals := engine.arrivals.eraseP (·.during = label) })

/-- Runs a command unless its output is cached. A request that comes in meanwhile is answered before
    the output is stored. -/
def output (world : World) (answer : Arrival → StateM Engine Completion) (directory : Bytes)
    (words : List Bytes) : StateM Engine (Option Bytes) := do
  let key := outputKey words directory
  let (found, outputs) := (← get).outputs.lookup world.now key
  modify ({ · with outputs })
  if let some output := found then return some output
  let call := ⟨words, directory, world.settings.subprocessTimeout⟩
  modify fun engine => { engine with calls := engine.calls ++ [call] }
  if let some arrival ← takeArrival words then
    let completion ← answer arrival
    modify fun engine => { engine with answered := engine.answered ++ [completion] }
  match world.runner call with
  | .error _ => return none
  | .ok output =>
    modify fun engine => { engine with outputs := engine.outputs.store world.now key output }
    return some output

/-- Asks a command for the lines of its output; one that fails has none. -/
def ask (world : World) (answer : Arrival → StateM Engine Completion) (directory : Bytes)
    (words : List Bytes) : StateM Engine (List Bytes) := do
  return ((← output world answer directory words).map Handler.outputLines).getD []

/-- Answers a request, and with `answer` those that come in while a command runs for it. A request
    that is superseded in the end has no candidates. -/
def respond (world : World) (answer : Arrival → StateM Engine Completion) (directory line : Bytes)
    (cursor limit : Nat) : StateM Engine Completion := do
  let (number, requests) := (← get).requests.start
  modify ({ · with requests })
  let completion ← complete world (ask world answer directory) number directory maxDepth line cursor
  if (← get).requests.isSuperseded number then return { completion with candidates := [] }
  else return { completion with candidates := completion.candidates.take limit }

/-- Answers a request. `fuel` bounds the requests that can come in while it is answered; they are
    answered without the history. -/
def request (world : World) : (fuel : Nat) → (directory : Bytes) → (line : Bytes) → (cursor : Nat) →
    (limit : Nat) → StateM Engine Completion
  | 0 => respond world fun _ => pure ⟨[], 0, 0⟩
  | fuel + 1 => respond world fun arrival =>
      request { world with history := none } fuel arrival.directory arrival.line
        arrival.line.length arrivalLimit

/-- Answers a request for the candidates at a cursor, at most `limit` of them. -/
def run (world : World) (directory line : Bytes) (cursor limit : Nat) :
    StateM Engine Completion := do
  request world (← get).arrivals.length directory line cursor limit

end Engine

end ShellCompletion
