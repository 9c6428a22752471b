import ShellCompletion.Proofs.Requests.Completions

/-!
# Requests that are superseded

Requests on one engine start and come back in any order, one within another or side by side. What they share
is the record of which have started and which are superseded, so a run is a list of starts and of last looks at
that record (`Requests.Runs`). A request is superseded as soon as a later one has started, and stays so
(`Runs.superseded_iff`). All that the engine does to the record while it answers is such a run
(`Engine.complete_acts`), so an answer is empty just if another request started meanwhile
(`request_superseded`).
-/
namespace ShellCompletion

namespace Requests

/-! ## Runs of requests -/

/-- What a request comes back with that has computed a completion: all of it up to the limit, or no candidates
    if the request is superseded by now. -/
def settle (requests : Requests) (number : Nat) (computed : Completion) (limit : Nat) : Completion :=
  if requests.isSuperseded number then { computed with candidates := [] }
  else { computed with candidates := computed.candidates.take limit }

/-- What happens to the requests of an engine. -/
inductive Event where
  | start (number : Nat)
  /-- The request has computed a completion and comes back with the answer. -/
  | finish (number : Nat) (computed : Completion) (limit : Nat) (answer : Completion)

/-- The number of the request that starts. -/
def Event.started? : Event → Option Nat
  | .start number => some number
  | .finish .. => none

/-- The requests that start among the events, in order. -/
def starts (events : List Event) : List Nat := events.filterMap Event.started?

/-- One event. Only a start changes which requests are superseded. -/
inductive Step : Requests → Event → Requests → Prop
  | start (requests : Requests) : Step requests (.start requests.start.1) requests.start.2
  | finish (requests : Requests) (number : Nat) (computed : Completion) (limit : Nat) :
      Step requests (.finish number computed limit (requests.settle number computed limit)) requests

/-- One event after the other. -/
inductive Runs : Requests → List Event → Requests → Prop
  | nil (requests : Requests) : Runs requests [] requests
  | cons {before between after : Requests} {event : Event} {events : List Event} :
      Step before event between → Runs between events after → Runs before (event :: events) after

theorem starts_append (first second : List Event) : starts (first ++ second) = starts first ++ starts second :=
  List.filterMap_append

section
variable {before between after : Requests} {first second : List Event} {event : Event}

theorem Step.runs (step : Step before event after) : Runs before [event] after := .cons step (.nil after)

theorem Runs.append (earlier : Runs before first between) (later : Runs between second after) :
    Runs before (first ++ second) after := by
  induction earlier with
  | nil => exact later
  | cons step _ ih => exact .cons step (ih later)

theorem Runs.split (runs : Runs before (first ++ second) after) :
    ∃ between, Runs before first between ∧ Runs between second after := by
  induction first generalizing before with
  | nil => exact ⟨before, .nil before, runs⟩
  | cons event first ih =>
    obtain _ | ⟨step, rest⟩ := runs
    obtain ⟨between, earlier, later⟩ := ih rest
    exact ⟨between, .cons step earlier, later⟩

end

/-! ## Which requests are superseded -/

/-- Of the requests that have started all but the last one are superseded. -/
def LastStands (requests : Requests) : Prop :=
  ∀ number, requests.isSuperseded number = true ↔ number + 1 < requests.started

theorem isSuperseded_start (requests : Requests) (number : Nat) :
    requests.start.2.isSuperseded number = true ↔
      requests.isSuperseded number = true ∨ number + 1 = requests.started := by
  simp only [start, isSuperseded]
  split_ifs with none_
  · simp [none_]
  · have last : number = requests.started - 1 ↔ number + 1 = requests.started := by omega
    simp [last, or_comm]

variable {before after : Requests} {events : List Event} {number : Nat}

/-- After one more event the last request still stands alone, and a start is numbered by those before it. -/
theorem LastStands.step {event : Event} (stands : before.LastStands) (step : Step before event after) :
    after.LastStands ∧ before.started ≤ after.started ∧
      starts [event] = List.range' before.started (after.started - before.started) := by
  cases step with
  | start =>
    refine ⟨fun number => ?_, by simp [start], by simp [starts, Event.started?, start]⟩
    rw [isSuperseded_start, stands number]
    simp only [start]
    omega
  | finish => exact ⟨stands, Nat.le_refl _, by simp [starts, Event.started?]⟩

/-- The requests of a run are numbered in the order in which they start. -/
theorem Runs.numbered (runs : Runs before events after) (stands : before.LastStands) :
    after.LastStands ∧ before.started ≤ after.started ∧
      starts events = List.range' before.started (after.started - before.started) := by
  induction runs with
  | nil => exact ⟨stands, Nat.le_refl _, by simp [starts]⟩
  | @cons before between after event events step _ ih =>
    obtain ⟨stands, le, one⟩ := stands.step step
    obtain ⟨stands, le', more⟩ := ih stands
    refine ⟨stands, Nat.le_trans le le', ?_⟩
    rw [← List.singleton_append, starts_append, one, more,
      show after.started - before.started =
        (between.started - before.started) + (after.started - between.started) by omega,
      ← List.range'_append, show before.started + 1 * (between.started - before.started) = between.started by omega]

theorem Runs.keeps (runs : Runs before events after) (stands : before.LastStands)
    (superseded : before.isSuperseded number = true) : after.isSuperseded number = true := by
  obtain ⟨stands', le, _⟩ := runs.numbered stands
  rw [stands number] at superseded
  rw [stands' number]
  omega

/-- A request that has started is superseded just if another one has started since. -/
theorem Runs.superseded_iff (stands : before.LastStands) (runs : Runs before (.start number :: events) after) :
    after.isSuperseded number = true ↔ starts events ≠ [] := by
  obtain _ | ⟨step, rest⟩ := runs
  cases step with
  | start =>
    obtain ⟨last, _⟩ := stands.step (.start before)
    obtain ⟨stands', le, more⟩ := rest.numbered last
    have numbers : before.start.1 = before.started ∧ before.start.2.started = before.started + 1 := ⟨rfl, rfl⟩
    rw [stands', more, ne_eq, List.range'_eq_nil_iff]
    omega

/-- A request comes back with what it has computed, or with nothing if another one started meanwhile. -/
theorem Runs.answer_eq (stands : before.LastStands) {limit : Nat} {computed answer : Completion}
    (runs : Runs before (.start number :: (events ++ [.finish number computed limit answer])) after) :
    answer = { computed with candidates := if starts events = [] then computed.candidates.take limit else [] } := by
  rw [← List.cons_append] at runs
  obtain ⟨between, earlier, last⟩ := runs.split
  have superseded := earlier.superseded_iff stands
  obtain _ | ⟨step, _⟩ := last
  cases step with
  | finish =>
    unfold settle
    by_cases alone : starts events = []
    · rw [if_neg (by simp [superseded, alone]), if_pos alone]
    · rw [if_pos (superseded.mpr alone), if_neg alone]

end Requests

/-! ## What the engine does to its requests -/

namespace Engine

open Requests (Runs starts)

/-- Whatever the action does to the requests of an engine is a run of them. -/
def Acts {α : Type} (action : StateM Engine α) : Prop :=
  ∀ engine, ∃ events, Runs engine.requests events (action engine).2.requests

namespace Acts

variable {α β : Type} {action : StateM Engine α}

theorem idle (same : ∀ engine, (action engine).2.requests = engine.requests) : Acts action :=
  fun engine => ⟨[], by rw [same]; exact .nil _⟩

theorem pure (value : α) : Acts (Pure.pure value) := idle fun _ => rfl

theorem bind {next : α → StateM Engine β} (first : Acts action) (then_ : ∀ value, Acts (next value)) :
    Acts (action >>= next) := by
  intro engine
  obtain ⟨earlier, runs⟩ := first engine
  obtain ⟨later, runs'⟩ := then_ (action engine).1 (action engine).2
  exact ⟨earlier ++ later, runs.append runs'⟩

theorem covers : Covers Acts := ⟨fun same => idle fun engine => (same engine).1, bind⟩

end Acts

variable {world : World} {answer : Arrival → StateM Engine Completion}

/-- While a command runs, other requests may come in and be answered. The command's own result is kept, whether or
    not that has happened. -/
theorem output_acts (answers : ∀ arrival, Acts (answer arrival)) (directory : Bytes) (words : List Bytes) :
    Acts (output world answer directory words) := by
  intro engine
  rcases looked : engine.outputs.lookup world.now (outputKey words directory) with ⟨_ | known, outputs⟩
  · let call : CommandCall := ⟨words, directory, world.settings.subprocessTimeout⟩
    obtain ⟨events, runs⟩ := meanwhile_covered answer Acts.covers answers words
      { engine with outputs, calls := engine.calls ++ [call] }
    rw [output_of_none answer looked]
    split
    · exact ⟨events, runs⟩
    · exact ⟨events, runs⟩
  · rw [output_of_some answer looked]
    exact ⟨[], .nil _⟩

theorem ask_acts (answers : ∀ arrival, Acts (answer arrival)) (directory : Bytes) (words : List Bytes) :
    Acts (Engine.ask world answer directory words) :=
  .bind (output_acts answers directory words) fun _ => .pure _

theorem complete_acts {ask : List Bytes → StateM Engine (List Bytes)} (asks : ∀ words, Acts (ask words)) (number : Nat)
    (directory : Bytes) (depth : Nat) (line : Bytes) (cursor : Nat) :
    Acts (complete world ask number directory depth line cursor) :=
  complete_covered Acts.covers asks number directory depth line cursor

/-! ## Answers -/

/-- A request starts, computes a completion, and then looks whether it is superseded. -/
theorem respond_eq (world : World) (answer : Arrival → StateM Engine Completion) (directory line : Bytes)
    (cursor limit : Nat) (engine : Engine) :
    let number := engine.requests.started
    let computed := complete world (Engine.ask world answer directory) number directory maxDepth line cursor
      { engine with requests := engine.requests.start.2 }
    respond world answer directory line cursor limit engine =
      (computed.2.requests.settle number computed.1 limit, computed.2) := by
  intro number computed
  change (if computed.2.requests.isSuperseded number then
      (pure { computed.1 with candidates := [] } : StateM Engine Completion)
    else pure { computed.1 with candidates := computed.1.candidates.take limit }) computed.2 = _
  unfold Requests.settle
  split <;> rfl

theorem respond_runs (answers : ∀ arrival, Acts (answer arrival)) (directory line : Bytes) (cursor limit : Nat)
    (engine : Engine) :
    let number := engine.requests.started
    let computed := complete world (Engine.ask world answer directory) number directory maxDepth line cursor
      { engine with requests := engine.requests.start.2 }
    let answered := respond world answer directory line cursor limit engine
    ∃ between, Runs engine.requests
      (.start number :: (between ++ [.finish number computed.1 limit answered.1])) answered.2.requests := by
  intro number computed answered
  obtain ⟨between, runs⟩ := complete_acts (fun words => ask_acts answers directory words) number directory maxDepth
    line cursor { engine with requests := engine.requests.start.2 }
  refine ⟨between, ?_⟩
  have finish := Requests.Step.finish computed.2.requests number computed.1 limit
  simp only [answered, respond_eq]
  exact .cons (.start engine.requests) (runs.append finish.runs)

/-- How requests are answered that come in during another one, with that much fuel left for it. -/
def answering (world : World) : (fuel : Nat) → Arrival → StateM Engine Completion
  | 0 => fun _ => pure ⟨[], 0, 0⟩
  | fuel + 1 => fun arrival =>
      request { world with history := none } fuel arrival.directory arrival.line arrival.line.length arrivalLimit

theorem request_eq (world : World) (fuel : Nat) : request world fuel = respond world (answering world fuel) := by
  cases fuel <;> rfl

theorem answering_acts (world : World) (fuel : Nat) (arrival : Arrival) : Acts (answering world fuel arrival) := by
  induction fuel generalizing world arrival with
  | zero => exact .pure _
  | succ fuel ih =>
    intro engine
    obtain ⟨between, runs⟩ := respond_runs (ih { world with history := none }) arrival.directory arrival.line
      arrival.line.length arrivalLimit engine
    rw [← request_eq] at runs
    exact ⟨_, runs⟩

end Engine

open Engine Requests

/-- In every run of requests on an engine, whatever the order in which they start and come back, exactly those are
    superseded that another one has started after, and they stay so. A request that another one has started after
    comes back with no candidates, and any other one with all that it has computed up to the limit. The
    requests that the engine answers make such a run, with those that come in while a command runs. -/
theorem request_superseded {events : List Event} {requests : Requests} (runs : ({} : Requests).Runs events requests) :
    (starts events).Nodup ∧
      (∀ before number later, events = before ++ .start number :: later →
        (requests.isSuperseded number = true ↔ starts later ≠ [])) ∧
      (∀ later after number, requests.Runs later after → requests.isSuperseded number = true →
        after.isSuperseded number = true) ∧
      (∀ before number between computed limit answer later,
        events = before ++ .start number :: (between ++ .finish number computed limit answer :: later) →
          answer = { computed with
            candidates := if starts between = [] then computed.candidates.take limit else [] }) ∧
      ∀ world fuel directory line cursor limit engine, engine.requests = requests →
        let number := requests.started
        let computed := complete world (Engine.ask world (answering world fuel) directory) number directory maxDepth
          line cursor { engine with requests := requests.start.2 }
        let answered := request world fuel directory line cursor limit engine
        ∃ between, ({} : Requests).Runs
          (events ++ .start number :: (between ++ [.finish number computed.1 limit answered.1]))
          answered.2.requests := by
  have first : ({} : Requests).LastStands := fun number => by simp [isSuperseded]
  obtain ⟨stands, _, numbers⟩ := runs.numbered first
  refine ⟨by rw [numbers]; exact List.nodup_range', ?_, ?_, ?_, ?_⟩
  · rintro before number later rfl
    obtain ⟨between, earlier, rest⟩ := runs.split
    exact rest.superseded_iff (earlier.numbered first).1
  · intro later after number further superseded
    exact further.keeps stands superseded
  · rintro before number between computed limit answer later rfl
    obtain ⟨middle, earlier, rest⟩ := runs.split
    rw [← List.singleton_append (x := Event.finish ..), ← List.append_assoc, ← List.cons_append] at rest
    obtain ⟨_, own, _⟩ := rest.split
    exact own.answer_eq (earlier.numbered first).1
  · rintro world fuel directory line cursor limit engine rfl
    obtain ⟨between, own⟩ := respond_runs (answering_acts world fuel) directory line cursor limit engine
    dsimp only
    rw [request_eq]
    exact ⟨between, runs.append own⟩

/-- A request for `cd` comes in while the processes are listed for one for `kill`. -/
theorem request_superseded_kill :
    let world : World :=
      { environment := { entries := [] }, epoch := 0, database := none
        reader := ⟨fun _ => .ok [⟨utf8 "build", .directory⟩], id⟩
        files := ⟨.empty, []⟩, runner := fun _ => .ok (utf8 "PID %CPU %MEM COMMAND\n42 0.1 0.2 sleep")
        history := none }
    let engine : Engine := { arrivals := [⟨utf8 "ps -xo pid,%cpu,%mem,command", utf8 "cd ", utf8 "/work"⟩] }
    let answered := request world 1 (utf8 "/work") (utf8 "kill 42") 7 30 engine
    answered.2.requests.isSuperseded 0 = true ∧ answered.2.requests.isSuperseded 1 = false ∧
      answered.1.candidates = [] ∧
      answered.2.answered.map (·.candidates.map Candidate.text) = [[utf8 "build/"]] := by
  intro world engine answered
  have superseded : answered.2.requests.isSuperseded 0 = true := by decide +kernel
  obtain ⟨_, _, _, _, program⟩ := request_superseded (.nil {})
  obtain ⟨between, runs⟩ := program world 1 (utf8 "/work") (utf8 "kill 42") 7 30 engine rfl
  obtain ⟨_, flagged, _, answers, _⟩ := request_superseded runs
  have another : starts between ≠ [] := by
    have later := (flagged [] 0 _ rfl).mp superseded
    rwa [starts_append, show starts [Event.finish ..] = [] from rfl, List.append_nil] at later
  have empty := answers [] 0 between _ 30 _ [] rfl
  rw [if_neg another] at empty
  exact ⟨superseded, by decide +kernel, congrArg Completion.candidates empty, by decide +kernel⟩

end ShellCompletion
