import ShellCompletion.Proofs.Requests.Queries

namespace ShellCompletion.Engine

/-- The property holds of all actions that leave the requests and the outputs as they are, and of one action after
    another if it holds of both. -/
structure Covers (property : ∀ {α : Type}, StateM Engine α → Prop) : Prop where
  idle : ∀ {α : Type} {action : StateM Engine α},
    (∀ engine, (action engine).2.requests = engine.requests ∧ (action engine).2.outputs = engine.outputs) →
      property action
  bind : ∀ {α β : Type} {first : StateM Engine α} {next : α → StateM Engine β}, property first →
    (∀ value, property (next value)) → property (first >>= next)

variable {property : ∀ {α : Type}, StateM Engine α → Prop} {α : Type}

namespace Covers

variable {action other : StateM Engine α}

theorem pure (covers : Covers property) (value : α) : property (Pure.pure value : StateM Engine α) :=
  covers.idle fun _ => ⟨rfl, rfl⟩

theorem ite {condition : Prop} [Decidable condition] (yes : property action) (no : property other) :
    property (if condition then action else other) := by
  split
  · exact yes
  · exact no

theorem get_bind (covers : Covers property) {next : Engine → StateM Engine α}
    (all : ∀ engine, property (next engine)) : property (get >>= next) :=
  covers.bind (covers.idle fun _ => ⟨rfl, rfl⟩) all

end Covers

variable {world : World}

section
variable {σ α β : Type}

theorem bind_apply (action : StateM σ α) (next : α → StateM σ β) (state : σ) :
    (action >>= next) state = next (action state).1 (action state).2 := rfl

theorem get_apply (state : σ) : (get : StateM σ σ) state = (state, state) := rfl

theorem modify_apply (change : σ → σ) (state : σ) : (modify change : StateM σ Unit) state = ((), change state) := rfl

end

variable {engine : Engine} {outputs : Cache Bytes} {directory : Bytes} {words : List Bytes}
  (answer : Arrival → StateM Engine Completion)

/-- What the engine does while a command runs: it answers the request that comes in, if there is one. -/
def meanwhile (words : List Bytes) : StateM Engine Unit := do
  if let some arrival ← takeArrival words then
    let completion ← answer arrival
    modify fun engine => { engine with answered := engine.answered ++ [completion] }

theorem meanwhile_covered (covers : Covers property) (answers : ∀ arrival, property (answer arrival))
    (words : List Bytes) : property (meanwhile answer words) := by
  refine covers.bind (covers.idle fun _ => ⟨rfl, rfl⟩) fun arrival => ?_
  cases arrival with
  | none => exact covers.pure ()
  | some arrival => exact covers.bind (answers arrival) fun _ => covers.idle fun _ => ⟨rfl, rfl⟩

theorem meanwhile_quiet (words : List Bytes) (quiet : engine.arrivals = []) :
    meanwhile answer words engine = ((), engine) := by
  obtain ⟨_, _, _, _, _, arrivals, _⟩ := engine
  obtain rfl : arrivals = [] := quiet
  rfl

theorem output_of_some {known : Bytes}
    (found : engine.outputs.lookup world.now (outputKey words directory) = (some known, outputs)) :
    output world answer directory words engine = (some known, { engine with outputs }) := by
  simp only [output, bind_apply, get_apply, found, modify_apply]
  rfl

/-- Any other is, and is stored if the command succeeds. -/
theorem output_of_none (missed : engine.outputs.lookup world.now (outputKey words directory) = (none, outputs)) :
    let call : CommandCall := ⟨words, directory, world.settings.subprocessTimeout⟩
    let after := (meanwhile answer words { engine with outputs, calls := engine.calls ++ [call] }).2
    output world answer directory words engine =
      match world.runner call with
      | .error _ => (none, after)
      | .ok output => (some output,
          { after with outputs := after.outputs.store world.now (outputKey words directory) output }) := by
  intro call after
  simp only [output, bind_apply, get_apply, missed, modify_apply, after, meanwhile]
  cases (takeArrival words { engine with outputs, calls := engine.calls ++ [call] }).1 <;>
    cases world.runner call <;> rfl

variable {ask : List Bytes → StateM Engine (List Bytes)}

theorem withListings_covered (covers : Covers property) (action : StateM Listings α) : property (withListings action) :=
  covers.idle fun _ => ⟨rfl, rfl⟩

theorem tableCandidates_covered (covers : Covers property) (world : World) (parsed : ParsedLine) :
    property (tableCandidates world parsed) := by
  unfold tableCandidates
  dsimp only
  split
  all_goals exact covers.idle fun _ => ⟨rfl, rfl⟩

theorem handlerCandidates_covered (covers : Covers property) (asks : ∀ words, property (ask words)) (number : Nat)
    (parsed : ParsedLine) (handlers : List Handler) :
    property (handlerCandidates world ask number parsed handlers) := by
  induction handlers with
  | nil => exact covers.pure []
  | cons handler rest ih =>
    unfold handlerCandidates
    have found : property (handler.candidates ask world.settings parsed) :=
      Handler.candidates_composed ⟨covers.pure, covers.bind⟩ (fun words _ => asks words) world.settings parsed handler
    refine covers.get_bind fun engine => Covers.ite (covers.pure []) ?_
    exact Covers.ite (covers.bind found fun _ => covers.bind ih fun _ => covers.pure _) ih

/-- A line that runs no other command is completed from sources that only ask commands. -/
theorem complete_own_covered (covers : Covers property) (asks : ∀ words, property (ask words)) (number : Nat)
    (directory : Bytes) {depth : Nat} {line : Bytes} {cursor : Nat}
    (own : depth = 0 ∨ wrappedCommand? world.database (parse world.database line cursor) = none) :
    property (complete world ask number directory depth line cursor) := by
  rw [complete.eq_2 world ask number directory line cursor depth (by
    rintro depth offset rfl wrapped
    simp [wrapped] at own)]
  generalize parse world.database line cursor = parsed
  have handled : property (handlerCandidates world ask number parsed Handler.all) :=
    handlerCandidates_covered covers asks number parsed Handler.all
  have listed := tableCandidates_covered covers world parsed
  have files : property (withListings (Suggestion.fileCandidates world.paths directory parsed.current)) :=
    withListings_covered covers _
  refine covers.bind (withListings_covered covers _) fun suggested => covers.get_bind fun engine => ?_
  exact Covers.ite
    (covers.bind handled fun handled => covers.bind listed fun listed => Covers.ite
      (covers.bind files fun _ => covers.pure _) (covers.bind (covers.pure _) fun _ => covers.pure _))
    (covers.bind (covers.pure _) fun handled => covers.bind listed fun listed => Covers.ite
      (covers.bind files fun _ => covers.pure _) (covers.bind (covers.pure _) fun _ => covers.pure _))

/-- What holds of asking commands holds of completing a line. -/
theorem complete_covered (covers : Covers property) (asks : ∀ words, property (ask words)) (number : Nat)
    (directory : Bytes) (depth : Nat) (line : Bytes) (cursor : Nat) :
    property (complete world ask number directory depth line cursor) := by
  induction depth generalizing line cursor with
  | zero => exact complete_own_covered covers asks number directory (.inl rfl)
  | succ depth ih =>
    cases wrapped : wrappedCommand? world.database (parse world.database line cursor) with
    | none => exact complete_own_covered covers asks number directory (.inr wrapped)
    | some offset =>
      rw [complete.eq_1 _ _ _ _ _ _ _ _ wrapped]
      exact covers.bind (ih _ _) fun inner => covers.pure _

end ShellCompletion.Engine
