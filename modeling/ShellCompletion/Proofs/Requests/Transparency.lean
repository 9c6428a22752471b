import ShellCompletion.Proofs.Requests.Completions

/-!
# Requests on an engine that has answered others

What an engine keeps from one request to the next is only what the world would give again
(`Engine.Faithful`): a listing under its directory, a table, and the output of a command under the words and
the directory that it was run with. Every source of candidates keeps it so and answers the same from all
such engines (`Engine.complete_steady`). In a world that stays as it is, a request therefore gets the answer
that a new engine gives, whatever was asked before and whenever (`answer_after`).
-/
namespace ShellCompletion

namespace Engine

/-- What the engine keeps is what the world gives, and no request is waiting to come in. An output is that
    of every command of a handler that has its key. -/
structure Faithful (world : World) (engine : Engine) : Prop where
  listings : engine.listings.Faithful world.reader
  tables : engine.tables.Faithful world.files
  outputs : engine.outputs.Holds fun key output => ∀ words directory, Handler.IsQuery words → 0x1f ∉ directory →
    outputKey words directory = key →
      world.runner ⟨words, directory, world.settings.subprocessTimeout⟩ = .ok output
  quiet : engine.arrivals = []

/-- The engine answers the request of that number, and has not begun another one since. -/
structure Serves (world : World) (number : Nat) (engine : Engine) : Prop extends engine.Faithful world where
  latest : ∀ older ∈ engine.requests.superseded, older < number
  begun : number < engine.requests.started

/-- The engine is free for the next request. -/
structure IsFree (world : World) (engine : Engine) : Prop extends engine.Faithful world where
  past : ∀ older ∈ engine.requests.superseded, older < engine.requests.started

theorem isFree_new (world : World) : IsFree world {} where
  listings _ member := nomatch member
  tables := ⟨nofun, nofun, nofun, nofun⟩
  outputs _ member := nomatch member
  quiet := rfl
  past _ member := nomatch member

variable {world : World} {number : Nat} {engine : Engine} {directory : Bytes} {words : List Bytes}

theorem Serves.current (serves : engine.Serves world number) : engine.requests.isSuperseded number = false := by
  have other : number ∉ engine.requests.superseded := fun member =>
    Nat.lt_irrefl number (serves.latest number member)
  simpa [Requests.isSuperseded] using other

theorem withListings_steady {α : Type} {action : StateM Listings α} (reads : Listings.Reads world.reader action) :
    Steady (Serves world) fun _ => withListings action := by
  obtain ⟨answer, reads⟩ := reads
  refine ⟨answer, fun number engine serves => ?_⟩
  obtain ⟨answered, listings⟩ := reads () engine.listings serves.listings
  exact ⟨answered, { serves with listings }⟩

theorem withTables_steady {α : Type} {action : StateM SystemTables α}
    (reads : SystemTables.Reads world.files action) : Steady (Serves world) fun _ => withTables action := by
  obtain ⟨answer, reads⟩ := reads
  refine ⟨answer, fun number engine serves => ?_⟩
  obtain ⟨answered, tables⟩ := reads () engine.tables serves.tables
  exact ⟨answered, { serves with tables }⟩

theorem tableCandidates_steady (world : World) (parsed : ParsedLine) :
    Steady (Serves world) fun _ => tableCandidates world parsed := by
  unfold tableCandidates
  dsimp only
  split
  · exact .pure _
  · exact withTables_steady (SystemTables.userCandidates_reads _ _ _ _)
  · exact withTables_steady (SystemTables.groupCandidates_reads _ _ _)
  · exact withTables_steady (SystemTables.interfaceCandidates_reads _ _ _ _)
  · exact withTables_steady (SystemTables.processCandidates_reads _ _ _ _)
  · exact .pure []

/-- Where no request comes in while a command runs, its output is all that it leaves. -/
theorem output_of_quiet (answer : Arrival → StateM Engine Completion) (quiet : engine.arrivals = [])
    {outputs : Cache Bytes}
    (missed : engine.outputs.lookup world.now (outputKey words directory) = (none, outputs)) :
    let call : CommandCall := ⟨words, directory, world.settings.subprocessTimeout⟩
    output world answer directory words engine =
      match world.runner call with
      | .error _ => (none, { engine with outputs, calls := engine.calls ++ [call] })
      | .ok output => (some output,
          { engine with
            outputs := outputs.store world.now (outputKey words directory) output
            calls := engine.calls ++ [call] }) := by
  intro call
  rewrite [output_of_none answer missed, meanwhile_quiet answer words (by exact quiet)]
  cases world.runner call <;> rfl

/-- What a command of a handler puts out is the same from all engines that serve. -/
theorem output_steady (world : World) (answer : Arrival → StateM Engine Completion) (free : 0x1f ∉ directory)
    (query : Handler.IsQuery words) : Steady (Serves world) fun _ => output world answer directory words := by
  let call : CommandCall := ⟨words, directory, world.settings.subprocessTimeout⟩
  refine ⟨(world.runner call).toOption, fun number engine serves => ?_⟩
  obtain ⟨kept, found⟩ := serves.outputs.lookup world.now (outputKey words directory)
  dsimp only
  rcases looked : engine.outputs.lookup world.now (outputKey words directory) with ⟨_ | known, outputs⟩
  · rw [looked] at kept
    rw [output_of_quiet answer serves.quiet looked]
    cases ran : world.runner call with
    | error e => exact ⟨rfl, { serves with outputs := kept }⟩
    | ok output =>
      -- What is stored has to be right for every command with this key; there is none but this one.
      refine ⟨rfl, { serves with outputs := kept.store (fun words' directory' query' free' same => ?_) world.now }⟩
      obtain ⟨rfl, rfl⟩ := outputKey_injective query' query free' free same
      exact ran
  · rw [looked] at kept found
    rw [output_of_some answer looked, found known rfl words directory query free rfl]
    exact ⟨rfl, { serves with outputs := kept }⟩

theorem ask_steady (world : World) (answer : Arrival → StateM Engine Completion) (free : 0x1f ∉ directory)
    (query : Handler.IsQuery words) : Steady (Serves world) fun _ => ask world answer directory words :=
  .bind (output_steady world answer free query) fun _ => .pure _

variable {ask : List Bytes → StateM Engine (List Bytes)}

theorem handlerCandidates_steady (asks : ∀ words, Handler.IsQuery words → Steady (Serves world) fun _ => ask words)
    (parsed : ParsedLine) (handlers : List Handler) :
    Steady (Serves world) fun number => handlerCandidates world ask number parsed handlers := by
  induction handlers with
  | nil => exact .pure []
  | cons handler rest ih =>
    unfold handlerCandidates
    have found := Handler.candidates_steady asks world.settings parsed handler
    refine .get_bind (fun number engine serves => by rw [serves.current]) ?_
    exact .ite (.pure []) (.ite (.bind found fun found => .bind ih fun more => .pure _) ih)

theorem complete_own_steady (asks : ∀ words, Handler.IsQuery words → Steady (Serves world) fun _ => ask words)
    (directory : Bytes) {depth : Nat} {line : Bytes} {cursor : Nat}
    (own : depth = 0 ∨ wrappedCommand? world.database (parse world.database line cursor) = none) :
    Steady (Serves world) fun number => complete world ask number directory depth line cursor := by
  have unfolded (number : Nat) := complete.eq_2 world ask number directory line cursor depth (by
    rintro depth offset rfl wrapped
    simp [wrapped] at own)
  simp only [unfolded]
  generalize parse world.database line cursor = parsed
  have suggested := withListings_steady (Suggestion.candidates_reads world.paths directory world.database parsed)
  have files := withListings_steady (Suggestion.pathCandidates_reads world.paths directory parsed.current {})
  have handled := handlerCandidates_steady asks parsed Handler.all
  have listed := tableCandidates_steady world parsed
  -- None of these engines has been asked anything since, so whether the handlers are asked is up to the settings.
  refine .bind suggested fun suggested => .get_bind (fun number engine serves => by rw [serves.current]) ?_
  exact .ite
    (.bind handled fun handled => .bind listed fun listed => .ite (.bind files fun _ => .pure _)
      (.bind (.pure _) fun _ => .pure _))
    (.bind (.pure _) fun handled => .bind listed fun listed => .ite (.bind files fun _ => .pure _)
      (.bind (.pure _) fun _ => .pure _))

/-- A line is completed alike by all engines that serve. -/
theorem complete_steady (asks : ∀ words, Handler.IsQuery words → Steady (Serves world) fun _ => ask words)
    (directory : Bytes) (depth : Nat) (line : Bytes) (cursor : Nat) :
    Steady (Serves world) fun number => complete world ask number directory depth line cursor := by
  induction depth generalizing line cursor with
  | zero => exact complete_own_steady asks directory (.inl rfl)
  | succ depth ih =>
    cases wrapped : wrappedCommand? world.database (parse world.database line cursor) with
    | none => exact complete_own_steady asks directory (.inr wrapped)
    | some offset =>
      simp only [complete.eq_1 _ _ _ _ _ _ _ _ wrapped]
      exact .bind (ih _ _) fun inner => .pure _

theorem IsFree.start (free : engine.IsFree world) :
    Serves world engine.requests.started { engine with requests := engine.requests.start.2 } := by
  refine { free with latest := fun older member => ?_, begun := Nat.lt_succ_self _ }
  simp only [Requests.start] at member
  split_ifs at member
  · exact free.past older member
  · rcases List.mem_cons.mp member with rfl | before
    · omega
    · exact free.past older before

/-- A free engine has one answer to a request, and is free again after it. -/
theorem respond_steady (world : World) (answer : Arrival → StateM Engine Completion) (free : 0x1f ∉ directory)
    (line : Bytes) (cursor limit : Nat) :
    Steady (fun _ : Unit => IsFree world) fun _ => respond world answer directory line cursor limit := by
  have completes := complete_steady (fun _ query => ask_steady world answer free query) directory maxDepth line
    cursor
  have serving : Steady (Serves world) fun number => do
      let completion ← complete world (ask world answer directory) number directory maxDepth line cursor
      if (← get).requests.isSuperseded number then return { completion with candidates := [] }
      else return { completion with candidates := completion.candidates.take limit } :=
    .bind completes fun completion =>
      .get_bind (fun number engine serves => by rw [serves.current]) (.ite (.pure _) (.pure _))
  obtain ⟨completion, serving⟩ := serving
  refine ⟨completion, fun _ engine free => ?_⟩
  obtain ⟨answered, after⟩ := serving _ _ free.start
  exact ⟨answered, { after with past := fun older member => Nat.lt_trans (after.latest older member) after.begun }⟩

/-- A request with the time at which it comes in. -/
structure Request where
  now : Int
  directory : Bytes
  line : Bytes
  cursor : Nat
  limit : Nat

/-- Answers the request in the world as it is at its time. -/
def Request.answer (world : World) (asked : Request) : StateM Engine Completion :=
  run { world with now := asked.now } asked.directory asked.line asked.cursor asked.limit

/-- An engine that has answered the requests, one after the other. -/
def after (world : World) (earlier : List Request) : Engine :=
  earlier.foldl (fun engine asked => (asked.answer world engine).2) {}

theorem isFree_at (now : Int) : IsFree { world with now } engine ↔ IsFree world engine :=
  ⟨fun free => { free with }, fun free => { free with }⟩

theorem Request.answer_steady (world : World) (asked : Request) (free : 0x1f ∉ asked.directory) :
    Steady (fun _ : Unit => IsFree world) fun _ => asked.answer world := by
  obtain ⟨completion, steady⟩ := respond_steady { world with now := asked.now } (fun _ => pure ⟨[], 0, 0⟩) free
    asked.line asked.cursor asked.limit
  refine ⟨completion, fun index engine ready => ?_⟩
  have alone : asked.answer world engine = respond { world with now := asked.now } (fun _ => pure ⟨[], 0, 0⟩)
      asked.directory asked.line asked.cursor asked.limit engine := by
    rw [answer, run, bind_apply, get_apply, ready.quiet]
    rfl
  obtain ⟨answered, after⟩ := steady index engine ((isFree_at asked.now).mpr ready)
  dsimp only
  rw [alone]
  exact ⟨answered, (isFree_at asked.now).mp after⟩

/-- An engine that has answered requests is free for the next one. -/
theorem after_isFree (world : World) (earlier : List Request) (free : ∀ asked ∈ earlier, 0x1f ∉ asked.directory) :
    (after world earlier).IsFree world := by
  have start := isFree_new world
  unfold after
  generalize ({} : Engine) = engine at start
  induction earlier generalizing engine with
  | nil => exact start
  | cons asked earlier ih =>
    obtain ⟨_, steady⟩ := asked.answer_steady world (free asked List.mem_cons_self)
    exact ih (fun later member => free later (List.mem_cons_of_mem asked member)) _ (steady () engine start).2

end Engine

open Engine

/-- In a world that stays as it is, an answer is the one that a new engine gives, whatever was asked before
    and at whatever times. -/
theorem answer_after (world : World) (earlier : List Request) (next : Request)
    (free : ∀ asked ∈ next :: earlier, 0x1f ∉ asked.directory) :
    (next.answer world (after world earlier)).1 = (next.answer world {}).1 := by
  obtain ⟨completion, steady⟩ := next.answer_steady world (free next List.mem_cons_self)
  have ready := after_isFree world earlier fun asked member => free asked (List.mem_cons_of_mem next member)
  rw [(steady () _ ready).1, (steady () {} (isFree_new world)).1]

/-- The second of two requests that ask for the processes comes when those are cached. -/
theorem answer_after_processes :
    let world : World :=
      { environment := { entries := [] }, epoch := 0, database := none, reader := ⟨fun _ => .ok [], id⟩
        files := ⟨.empty, []⟩
        runner := fun _ => .ok (utf8 "PID %CPU %MEM COMMAND\n7 0.1 0.2 sleep"), history := none }
    let first : Request := ⟨0, utf8 "/home", utf8 "kill ", 5, 30⟩
    let second : Request := ⟨2000, utf8 "/home", utf8 "kill 7", 6, 30⟩
    (after world [first]).outputs.get? 2000 (outputKey [utf8 "ps", utf8 "-xo", utf8 "pid,%cpu,%mem,command"]
        (utf8 "/home")) = some (utf8 "PID %CPU %MEM COMMAND\n7 0.1 0.2 sleep") ∧
      (second.answer world (after world [first])).1 = (second.answer world {}).1 ∧
      (second.answer world {}).1.candidates.map Candidate.text = [utf8 "7"] := by
  intro world first second
  have free : ∀ asked ∈ [second, first], 0x1f ∉ asked.directory := by decide
  exact ⟨by decide +kernel, answer_after world [first] second free, by decide +kernel⟩

end ShellCompletion
