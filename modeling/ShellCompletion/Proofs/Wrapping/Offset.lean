import ShellCompletion.Engine
import ShellCompletion.Proofs.Line.Arguments

namespace ShellCompletion

open Engine

variable {database : Option Database} {line : Bytes} {cursor : Nat}

theorem filled_of_last {parsed : ParsedLine} (typed : parsed.current ≠ [])
    (last : parsed.arguments.getLast?.map Token.start = some parsed.replaceStart) :
    filledArguments parsed + 1 = parsed.arguments.length := by
  have nonempty : parsed.arguments ≠ [] := by rintro none_; simp [none_] at last
  have pos := List.length_pos_iff.mpr nonempty
  simp only [filledArguments, last, beq_self_eq_true, Bool.and_true]
  simp only [Bool.not_eq_true', List.isEmpty_eq_false_iff, typed, ne_eq, not_false_eq_true, if_true]
  omega

private theorem filled_of_away {parsed : ParsedLine}
    (away : ∀ token ∈ parsed.arguments, token.start ≠ parsed.replaceStart) :
    filledArguments parsed = parsed.arguments.length := by
  have other : ¬ parsed.arguments.getLast?.map Token.start = some parsed.replaceStart := by
    intro same
    obtain ⟨token, last, start⟩ := Option.map_eq_some_iff.mp same
    exact away token (List.mem_of_getLast? last) start
  simp [filledArguments, other]

/-- The arguments before the text under the cursor are those among the complete words; the one that
    is not counted is the text under the cursor. -/
theorem filled_arguments (database : Option Database) (line : Bytes) (cursor : Nat) :
    let parsed := parse database line cursor
    let before := (Reading.ofComplete ((Cut.of line cursor).schema? database) (Cut.of line cursor)).arguments
    filledArguments parsed = before.length ∧
      ∃ under, parsed.arguments = before ++ under ∧ under.length ≤ 1 ∧
        ∀ token ∈ under, token.start = parsed.replaceStart := by
  intro parsed before
  by_cases first : (Cut.of line cursor).complete = []
  · have none_ : before = [] := by simp [before, Reading.ofComplete, first]
    have own : parsed.arguments = [] := by simp only [parsed]; rw [parse_of_first database first]
    simp [filledArguments, none_, own]
  · rcases arguments_of_words database first with ⟨records, current, word, _, split, start⟩ | ⟨other, same⟩
    · have typed : parsed.current ≠ [] := by simp only [parsed, current]; exact records.typed
      have filled : filledArguments parsed = before.length := by
        simpa [parsed, split] using filled_of_last typed (by simp [parsed, split, start])
      exact ⟨filled, [word], split, by simp, by simp [parsed, start]⟩
    · have away : ∀ token ∈ parsed.arguments, token.start ≠ parsed.replaceStart := by
        intro token member here
        exact other ((recorded_iff database first).mp ⟨token, member, here⟩)
      exact ⟨by rw [filled_of_away away]; simp only [parsed, before, same], [], by simp [parsed, before, same],
        by simp, by simp⟩

/-- A wrapped command starts at a complete word after the command. -/
theorem wrapped_word {offset : Nat}
    (wrapped : wrappedCommand? database (parse database line cursor) = some offset) :
    ∃ token ∈ (Cut.of line cursor).complete.drop 1, token.start = offset := by
  obtain ⟨filled, under, arguments, _⟩ := filled_arguments database line cursor
  unfold wrappedCommand? at wrapped
  split at wrapped
  · simp at wrapped
  split at wrapped
  · simp at wrapped
  dsimp only at wrapped
  split at wrapped
  · simp at wrapped
  next index found =>
    have inside := List.mem_range.mp (List.mem_of_find?_eq_some found)
    obtain ⟨token, at_, rfl⟩ := Option.map_eq_some_iff.mp wrapped
    rw [arguments, List.getElem?_append_left (by omega)] at at_
    exact ⟨token, (ofComplete_arguments _ _).subset (List.mem_of_getElem? at_), rfl⟩

theorem start_pos_of_word {token : Token} (word : token ∈ (Cut.of line cursor).complete.drop 1) :
    0 < token.start := by
  have tokens := Cut.complete_append_rest line cursor
  cases split : (Cut.of line cursor).complete with
  | nil => simp [split] at word
  | cons first more =>
    rw [split] at word tokens
    have member : token ∈ more ++ Cut.rest line cursor := List.mem_append_left _ (by simpa using word)
    have parts : tokenize line = [] ++ first :: (more ++ Cut.rest line cursor) := tokens.symm
    have later := (tokenize_around parts).2 token member
    omega

theorem inner_context {token : Token} (word : token ∈ (Cut.of line cursor).complete) :
    (parse database (line.drop token.start) ((Cut.of line cursor).cursor - token.start)).context ≠ .command := by
  have member := Cut.mem_tokenize_of_complete word
  have stops := Cut.complete_stop_lt word
  have nonempty := (tokenize_within line token member).nonempty
  have bound := Cut.of_cursor_le line cursor
  obtain ⟨before, after, parts⟩ := List.append_of_mem member
  have moved : token ∈ (tokenize (line.drop token.start)).map (Token.shift token.start) := by
    rw [tokenize_drop_start parts]; exact List.mem_cons_self
  obtain ⟨inner, inside, same⟩ := List.mem_map.mp moved
  have stop : inner.stop + token.start = token.stop := congrArg Token.stop same
  rw [ne_eq, parse_context_eq_command_iff, complete_eq_nil_iff]
  intro none_
  refine none_ inner inside ?_
  rw [Cut.of_cursor, List.length_drop]
  omega

/-- What holds of an offset at which a line at a cursor runs another command. -/
structure WrapsAt (database : Option Database) (line : Bytes) (cursor offset : Nat) : Prop where
  /-- A word starts there, and ends before the text under the cursor and the token that holds it. -/
  word : ∃ token ∈ tokenize line, token.start = offset ∧
    token.stop < (parse database line cursor).replaceStart ∧
    ∀ under, tokenAt? line (parse database line cursor).replaceStop = some under → token.stop < under.start
  pos : 0 < offset
  lt_stop : offset < (parse database line cursor).replaceStop
  shorter : (line.drop offset).length < line.length
  inner : (parse database (line.drop offset) ((parse database line cursor).replaceStop - offset)).context ≠ .command

theorem wrapsAt {offset : Nat}
    (wrapped : wrappedCommand? database (parse database line cursor) = some offset) :
    WrapsAt database line cursor offset := by
  obtain ⟨token, word, rfl⟩ := wrapped_word wrapped
  have complete := List.mem_of_mem_drop word
  have member := Cut.mem_tokenize_of_complete complete
  have nonempty := (tokenize_within line token member).nonempty
  have stops := Cut.complete_stop_lt complete
  have bound := Cut.of_cursor_le line cursor
  have pos := start_pos_of_word word
  refine ⟨⟨token, member, rfl, stop_lt_replaceStart database complete, ?_⟩, pos, ?_, ?_, ?_⟩
  · intro under found
    rw [parse_replaceStop] at found
    obtain ⟨after, parts, _⟩ := current_of_tokenAt found
    exact (tokenize_around parts).1 token complete
  · rw [parse_replaceStop]; omega
  · rw [List.length_drop]; omega
  · rw [parse_replaceStop]; exact inner_context complete

end ShellCompletion
