import ShellCompletion.Proofs.Wrapping.Offset

namespace ShellCompletion

open Engine

/-- Whatever state the action starts in, what it returns has the property. -/
def Returns {σ α : Type} (action : StateM σ α) (property : α → Prop) : Prop :=
  ∀ state, property (action state).1

namespace Returns

variable {σ α β : Type} {property : α → Prop}

theorem pure {value : α} (holds : property value) : Returns (Pure.pure value : StateM σ α) property :=
  fun _ => holds

theorem bind {action : StateM σ β} {next : β → StateM σ α}
    (holds : ∀ value, Returns (next value) property) : Returns (action >>= next) property :=
  fun state => holds _ (action state).2

/-- What is known of the first action's result can be used of what follows it. -/
theorem bind_of {first : β → Prop} {action : StateM σ β} {next : β → StateM σ α} (returns : Returns action first)
    (holds : ∀ value, first value → Returns (next value) property) : Returns (action >>= next) property :=
  fun state => holds _ (returns state) (action state).2

theorem ite {condition : Prop} [Decidable condition] {yes no : StateM σ α} (holds : Returns yes property)
    (fails : Returns no property) : Returns (if condition then yes else no) property := by
  split
  · exact holds
  · exact fails

end Returns

variable {world : World} {ask : List Bytes → StateM Engine (List Bytes)} {number : Nat} {directory : Bytes}
  {line : Bytes} {cursor : Nat}

/-- A line that runs another command is completed by what is left of it. -/
theorem complete_wrapped {depth offset : Nat}
    (wrapped : wrappedCommand? world.database (parse world.database line cursor) = some offset) (engine : Engine) :
    let inner := complete world ask number directory depth (line.drop offset)
      ((parse world.database line cursor).replaceStop - offset) engine
    complete world ask number directory (depth + 1) line cursor engine =
      (⟨inner.1.candidates, inner.1.replaceStart + offset, inner.1.replaceStop + offset⟩, inner.2) := by
  rw [complete.eq_1 _ _ _ _ _ _ _ _ wrapped]
  rfl

theorem complete_own {depth : Nat}
    (own : depth = 0 ∨ wrappedCommand? world.database (parse world.database line cursor) = none) :
    Returns (complete world ask number directory depth line cursor) fun completion =>
      completion.replaceStart = (parse world.database line cursor).replaceStart ∧
        completion.replaceStop = (parse world.database line cursor).replaceStop := by
  rw [complete]
  · generalize parse world.database line cursor = parsed
    have last (all : List Candidate) : Returns
        (pure ⟨ranked world.settings parsed.current all, parsed.replaceStart, parsed.replaceStop⟩ : StateM Engine _)
        fun completion : Completion =>
          completion.replaceStart = parsed.replaceStart ∧ completion.replaceStop = parsed.replaceStop :=
      .pure ⟨rfl, rfl⟩
    exact .bind fun suggested => .bind fun engine => .ite
      (.bind fun handled => .bind fun listed => .ite (.bind last) (.bind last))
      (.bind fun handled => .bind fun listed => .ite (.bind last) (.bind last))
  · rintro depth offset rfl wrapped
    simp [wrapped] at own

/-- The line as it is parsed in the end: what is left of it for the innermost wrapped command. -/
def innermost (database : Option Database) : (depth : Nat) → (line : Bytes) → (cursor : Nat) → ParsedLine
  | depth, line, cursor =>
    let parsed := parse database line cursor
    match depth, wrappedCommand? database parsed with
    | depth + 1, some offset => innermost database depth (line.drop offset) (parsed.replaceStop - offset)
    | _, _ => parsed

theorem innermost_wrapped {database : Option Database} {depth offset : Nat}
    (wrapped : wrappedCommand? database (parse database line cursor) = some offset) :
    innermost database (depth + 1) line cursor =
      innermost database depth (line.drop offset) ((parse database line cursor).replaceStop - offset) :=
  innermost.eq_1 _ _ _ _ _ wrapped

theorem innermost_own {database : Option Database} {depth : Nat}
    (own : depth = 0 ∨ wrappedCommand? database (parse database line cursor) = none) :
    innermost database depth line cursor = parse database line cursor := by
  rw [innermost]
  rintro depth offset rfl wrapped
  simp [wrapped] at own

/-- The completion's span ends at the cursor and is the text under it in the innermost line. -/
structure Completion.Spans (database : Option Database) (depth : Nat) (line : Bytes) (cursor : Nat)
    (completion : Completion) : Prop where
  stop_eq : completion.replaceStop = min cursor line.length
  start_le : completion.replaceStart ≤ completion.replaceStop
  text_eq : (line.take completion.replaceStop).drop completion.replaceStart =
    (innermost database depth line cursor).current

theorem spans_of_inner {database : Option Database} {depth offset : Nat} {inner : Completion}
    (wrapped : wrappedCommand? database (parse database line cursor) = some offset)
    (spans : inner.Spans database depth (line.drop offset) ((parse database line cursor).replaceStop - offset)) :
    Completion.Spans database (depth + 1) line cursor
      ⟨inner.candidates, inner.replaceStart + offset, inner.replaceStop + offset⟩ := by
  have inside := (wrapsAt wrapped).lt_stop
  obtain ⟨stop, start, text⟩ := spans
  rw [parse_replaceStop, Cut.of_cursor] at inside stop
  rw [List.length_drop] at stop
  refine ⟨?_, ?_, ?_⟩
  · dsimp only; omega
  · dsimp only; omega
  · rw [innermost_wrapped wrapped, ← text, List.take_drop, List.drop_drop, Nat.add_comm offset, Nat.add_comm offset]

theorem spans_of_own {depth : Nat}
    (own : depth = 0 ∨ wrappedCommand? world.database (parse world.database line cursor) = none) :
    Returns (complete world ask number directory depth line cursor)
      (Completion.Spans world.database depth line cursor) := by
  intro engine
  obtain ⟨start, stop⟩ := complete_own own engine
  obtain ⟨le, current⟩ := parse_current world.database line cursor
  refine ⟨?_, ?_, ?_⟩
  · rw [stop, parse_replaceStop, Cut.of_cursor]
  · rw [start, stop]; exact le
  · rw [start, stop, innermost_own own, current]

theorem complete_returns (world : World) (ask : List Bytes → StateM Engine (List Bytes)) (number : Nat)
    (directory : Bytes) (depth : Nat) (line : Bytes) (cursor : Nat) :
    Returns (complete world ask number directory depth line cursor)
      (Completion.Spans world.database depth line cursor) := by
  induction depth generalizing line cursor with
  | zero => exact spans_of_own (.inl rfl)
  | succ depth ih =>
    cases wrapped : wrappedCommand? world.database (parse world.database line cursor) with
    | none => exact spans_of_own (.inr wrapped)
    | some offset =>
      intro engine
      rw [complete_wrapped wrapped]
      exact spans_of_inner wrapped (ih _ _ engine)

/-- What holds of every completion of the line whatever its candidates are holds of the answer to a
    request for it. -/
theorem run_returns {property : Completion → Prop} {limit : Nat}
    (spans : ∀ completion candidates, property completion → property { completion with candidates })
    (completes : ∀ ask number, Returns (complete world ask number directory maxDepth line cursor) property) :
    Returns (run world directory line cursor limit) property := by
  have respond_returns (answer : Arrival → StateM Engine Completion) :
      Returns (respond world answer directory line cursor limit) property := by
    rw [respond]
    refine .bind fun engine => .bind fun _ => .bind_of (completes _ _) fun completion holds => ?_
    refine .bind fun engine' => ?_
    exact .ite (.pure (spans completion _ holds)) (.pure (spans completion _ holds))
  rw [run]
  refine .bind fun engine => ?_
  cases engine.arrivals.length with
  | zero => exact respond_returns _
  | succ fuel => exact respond_returns _

/-- A wrapped command starts at a word before the one under the cursor, so no count or offset goes
    below nothing, and the span of a completion is always that of the innermost line. -/
theorem complete_spans (world : World) (ask : List Bytes → StateM Engine (List Bytes)) (number : Nat)
    (directory : Bytes) (depth : Nat) (line : Bytes) (cursor limit : Nat) (engine : Engine) :
    let parsed := parse world.database line cursor
    (parsed.current ≠ [] → parsed.arguments.getLast?.map Token.start = some parsed.replaceStart →
        filledArguments parsed + 1 = parsed.arguments.length) ∧
      (∀ offset, wrappedCommand? world.database parsed = some offset → WrapsAt world.database line cursor offset) ∧
      (complete world ask number directory depth line cursor engine).1.Spans world.database depth line cursor ∧
      (run world directory line cursor limit engine).1.Spans world.database maxDepth line cursor := by
  intro parsed
  refine ⟨fun typed last => filled_of_last typed last, fun offset wrapped => wrapsAt wrapped, ?_, ?_⟩
  · exact complete_returns world ask number directory depth line cursor engine
  · exact run_returns (fun completion candidates spans => ⟨spans.stop_eq, spans.start_le, spans.text_eq⟩)
      (fun ask number => complete_returns world ask number directory maxDepth line cursor) engine

end ShellCompletion
