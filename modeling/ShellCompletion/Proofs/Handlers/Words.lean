import ShellCompletion.Handler
import ShellCompletion.Proofs.Line.Accounting
import ShellCompletion.Proofs.Line.Nodes

namespace ShellCompletion

/-- The words that are recorded as subcommands or arguments, in the order of the line. -/
def Reading.recorded (schema : Option Schema) (cut : Cut) : List Token :=
  counted schema path cut ++ counted schema arguments cut

/-- The text under the cursor is that of the last argument, and yet this one stands before it. -/
def ParsedLine.Repeats (parsed : ParsedLine) : Prop :=
  ∃ last ∈ parsed.arguments.getLast?, last.text = parsed.current ∧ last.start < parsed.replaceStart

instance (parsed : ParsedLine) : Decidable parsed.Repeats :=
  inferInstanceAs (Decidable (∃ last ∈ parsed.arguments.getLast?, _))

variable {database : Option Database} {line : Bytes} {cursor : Nat}

namespace Reading

variable {schema : Option Schema}

theorem recorded_of_first {cut : Cut} (first : cut.complete = []) : recorded schema cut = [] := by
  simp [recorded, counted, first]

theorem recorded_of_words {cut : Cut} (words : cut.complete ≠ []) :
    recorded schema cut = growth schema path {} (cut.complete.drop 1) ++ (ofCut schema cut).arguments := by
  rw [recorded, counted_of_keeps (fun reading word => (stepCurrent_keeps reading word).1) words,
    counted_arguments words]

theorem recorded_ordered (schema : Option Schema) (line : Bytes) (cursor : Nat) :
    Ordered (recorded schema (Cut.of line cursor)) := by
  by_cases words : (Cut.of line cursor).complete = []
  · rw [recorded_of_first words]
    exact .nil
  · have complete := Cut.complete_ordered line cursor
    rw [recorded_of_words words]
    refine List.pairwise_append.mpr ⟨complete.sublist (growth_sublist _ _ _),
      ofCut_arguments_ordered schema line cursor, fun name named argument member => ?_⟩
    rcases ofCut_argument member with grown | ⟨under, _⟩
    · exact growth_path_before (exclusive_path_arguments schema) ends_of_argument complete {} name named argument grown
    · exact (Cut.complete_start_lt (List.mem_of_mem_drop ((growth_sublist _ _ _).subset named))).2 argument under

end Reading

theorem parse_path_eq (database : Option Database) (words : (Cut.of line cursor).complete ≠ []) :
    (parse database line cursor).subcommandPath =
      (Reading.growth ((Cut.of line cursor).schema? database) Reading.path {}
        ((Cut.of line cursor).complete.drop 1)).map Token.text := by
  have path := Reading.foldl_path ((Cut.of line cursor).schema? database) {} ((Cut.of line cursor).complete.drop 1)
  rw [parse_of_words database words]
  dsimp only
  rw [(Reading.ofCut_keeps _ _).2.1, Reading.ofComplete, path]
  rfl

theorem recorded_texts (database : Option Database) (line : Bytes) (cursor : Nat) :
    let parsed := parse database line cursor
    (Reading.recorded ((Cut.of line cursor).schema? database) (Cut.of line cursor)).map Token.text =
      parsed.subcommandPath ++ parsed.arguments.map Token.text := by
  by_cases words : (Cut.of line cursor).complete = []
  · rw [Reading.recorded_of_first words, parse_of_first database words]
    rfl
  · dsimp only
    rw [Reading.recorded_of_words words, List.map_append, parse_path_eq database words, parse_of_words database words]

theorem recorded_before (database : Option Database) (words : (Cut.of line cursor).complete ≠ []) :
    let schema := (Cut.of line cursor).schema? database
    (startingBefore line (Cut.of line cursor).cursor (Reading.recorded schema (Cut.of line cursor))).map Token.text =
      (parse database line cursor).subcommandPath ++
        (Reading.ofComplete schema (Cut.of line cursor)).arguments.map Token.text := by
  intro schema
  have complete : ∀ word ∈ Reading.growth schema Reading.path {} ((Cut.of line cursor).complete.drop 1) ++
      (Reading.ofComplete schema (Cut.of line cursor)).arguments, word ∈ (Cut.of line cursor).complete := by
    intro word member
    rcases List.mem_append.mp member with named | argument
    · exact List.mem_of_mem_drop ((Reading.growth_sublist _ _ _).subset named)
    · exact List.mem_of_mem_drop ((ofComplete_arguments _ _).subset argument)
  obtain ⟨typing, split, under⟩ := Reading.ofCut_arguments schema (Cut.of line cursor)
  rw [Reading.recorded_of_words words, split, ← List.append_assoc, startingBefore_eq complete under, List.map_append,
    parse_path_eq database words]

namespace Handler

/-- The last argument is left out where it has the text under the cursor. -/
theorem wordsBefore_eq {parsed : ParsedLine} (typed : ∀ last ∈ parsed.arguments.getLast?, last.text ≠ []) :
    wordsBefore parsed = parsed.subcommandPath ++
      if ∃ last ∈ parsed.arguments.getLast?, last.text = parsed.current then
        (parsed.arguments.map Token.text).dropLast
      else parsed.arguments.map Token.text := by
  unfold wordsBefore
  cases ends : parsed.arguments.getLast? with
  | none => simp [List.getLast?_eq_none_iff.mp ends]
  | some last =>
    obtain ⟨before, split⟩ := List.getLast?_eq_some_iff.mp ends
    have some_ : parsed.arguments.map Token.text ≠ [] := by simp [split]
    have typed := typed last ends
    by_cases same : last.text = parsed.current
    · simp [List.getLast?_map, ends, same, same ▸ typed, List.dropLast_append_of_ne_nil some_]
    · simp [List.getLast?_map, ends, same]

theorem text_ne_nil_of_arguments {argument : Token} (member : argument ∈ (parse database line cursor).arguments) :
    argument.text ≠ [] := by
  by_cases words : (Cut.of line cursor).complete = []
  · simp [parse_of_first database words] at member
  · have complete {word : Token} (earlier : word ∈ (Reading.ofComplete ((Cut.of line cursor).schema? database)
        (Cut.of line cursor)).arguments) : word.text ≠ [] :=
      (tokenize_within line word (Cut.mem_tokenize_of_complete
        (List.mem_of_mem_drop ((ofComplete_arguments _ _).subset earlier)))).text_ne_nil
    rcases arguments_of_words database words with ⟨records, _, word, under, split, _⟩ | ⟨_, same⟩
    · rw [split] at member
      rcases List.mem_append.mp member with earlier | here
      · exact complete earlier
      · rw [List.mem_singleton.mp here, ← Cut.text_of_current under]
        exact records.typed
    · exact complete (same ▸ member)

/-- Where the last argument has the text under the cursor it is what has been typed there, or it is repeated. -/
theorem repeats_iff (words : (Cut.of line cursor).complete ≠ []) :
    (parse database line cursor).Repeats ↔
      (∃ last ∈ (parse database line cursor).arguments.getLast?, last.text = (parse database line cursor).current) ∧
        ¬ (Reading.ofComplete ((Cut.of line cursor).schema? database) (Cut.of line cursor)).Records
          (Cut.of line cursor).text := by
  rcases arguments_of_words database words with ⟨records, _, word, _, split, start⟩ | ⟨other, same⟩
  · refine iff_of_false ?_ fun repeats => repeats.2 records
    rintro ⟨last, ends, _, before⟩
    rw [split, List.getLast?_concat] at ends
    obtain rfl : word = last := Option.some.inj ends
    exact absurd start (Nat.ne_of_lt before)
  · constructor
    · rintro ⟨last, ends, text, _⟩
      exact ⟨⟨last, ends, text⟩, other⟩
    · rintro ⟨⟨last, ends, text⟩, _⟩
      have member := List.mem_of_getLast? ends
      rw [same] at member
      have complete := List.mem_of_mem_drop ((ofComplete_arguments _ _).subset member)
      have stops := stop_lt_replaceStart database complete
      have nonempty := (tokenize_within line last (Cut.mem_tokenize_of_complete complete)).nonempty
      exact ⟨last, ends, text, by omega⟩

/-- A text under the cursor that repeats the argument before it is the file of a redirection, unless it is an option
    or the value of one. -/
theorem redirects_of_repeats (repeats : (parse database line cursor).Repeats)
    (plain : (parse database line cursor).context = .subcommand ∨
      ∃ index type, (parse database line cursor).context = .argument index type) :
    (Cut.of line cursor).Redirects database := by
  have words : (Cut.of line cursor).complete ≠ [] := by
    rw [ne_eq, ← parse_context_eq_command_iff database]
    rcases plain with is | ⟨_, _, is⟩ <;> simp [is]
  obtain ⟨⟨last, ends, text⟩, other⟩ := (repeats_iff words).mp repeats
  have typed : (parse database line cursor).current ≠ [] := text ▸ text_ne_nil_of_arguments (List.mem_of_getLast? ends)
  -- A word of its own would be recorded, since something of it is typed.
  have foreign : ¬ (Cut.of line cursor).IsWord ((Cut.of line cursor).schema? database)
      (Reading.ofCut ((Cut.of line cursor).schema? database) (Cut.of line cursor)) := by
    intro own
    rw [Reading.records_of_word own, not_not] at other
    rw [(parse_replaceStart database line cursor).2, other, List.drop_nil] at typed
    exact typed rfl
  have classifies := parse_classifies database words
  generalize (parse database line cursor).context = context at classifies plain
  cases classifies with
  | glued glued => exact .inl (by rwa [Cut.advance, if_neg words])
  | long => simp at plain
  | short => simp at plain
  | value => simp at plain
  | redirection _ _ operator => exact .inr operator
  | subcommand _ own => exact absurd own foreign
  | argument _ own => exact absurd own foreign
  | guessed own => exact absurd own foreign
  | position own => exact absurd own foreign

theorem wordsBefore_of_once (words : (Cut.of line cursor).complete ≠ [])
    (once : ¬ (parse database line cursor).Repeats) :
    wordsBefore (parse database line cursor) = (parse database line cursor).subcommandPath ++
      (Reading.ofComplete ((Cut.of line cursor).schema? database) (Cut.of line cursor)).arguments.map Token.text := by
  rw [wordsBefore_eq fun last ends => text_ne_nil_of_arguments (List.mem_of_getLast? ends)]
  rcases arguments_of_words database words with ⟨_, current, word, under, split, _⟩ | ⟨other, same⟩
  · have last : ∃ last ∈ (parse database line cursor).arguments.getLast?,
        last.text = (parse database line cursor).current :=
      ⟨word, by simp [split], (Cut.text_of_current under).symm.trans current.symm⟩
    rw [if_pos last, split, List.map_append, List.map_singleton, List.dropLast_concat]
  · rw [if_neg fun last => once ((repeats_iff words).mpr ⟨last, other⟩), same]

/-- An argument that is repeated is left out in the place of the text under the cursor. -/
theorem wordsBefore_of_repeats (words : (Cut.of line cursor).complete ≠ [])
    (repeats : (parse database line cursor).Repeats) :
    let before := (parse database line cursor).subcommandPath ++
      (Reading.ofComplete ((Cut.of line cursor).schema? database) (Cut.of line cursor)).arguments.map Token.text
    wordsBefore (parse database line cursor) = before.dropLast ∧ before ≠ [] := by
  obtain ⟨last, other⟩ := (repeats_iff words).mp repeats
  rw [wordsBefore_eq fun last ends => text_ne_nil_of_arguments (List.mem_of_getLast? ends), if_pos last]
  rcases arguments_of_words database words with ⟨records, _⟩ | ⟨_, same⟩
  · exact absurd records other
  · obtain ⟨argument, ends, _⟩ := last
    have some_ : (parse database line cursor).arguments.map Token.text ≠ [] := by
      simpa using List.ne_nil_of_mem (List.mem_of_getLast? ends)
    rw [same] at some_ ⊢
    exact ⟨(List.dropLast_append_of_ne_nil some_).symm, fun empty => some_ (List.append_eq_nil_iff.mp empty).2⟩

/-- The words that a handler sees are the recorded ones that start before the token under the cursor. Only where the
    text under the cursor repeats the last argument, which it does as the file of a redirection, this one is left out
    although it stands before it. -/
theorem wordsBefore_recorded (database : Option Database) (line : Bytes) (cursor : Nat) :
    let parsed := parse database line cursor
    let schema := database.bind (·.find? parsed.command)
    let recorded := Reading.recorded schema (Cut.of line cursor)
    let before := startingBefore line (Cut.of line cursor).cursor recorded
    recorded.map Token.text = parsed.subcommandPath ++ parsed.arguments.map Token.text ∧
      Reading.Ordered recorded ∧
      (¬ parsed.Repeats → wordsBefore parsed = before.map Token.text) ∧
      (parsed.Repeats → wordsBefore parsed = (before.map Token.text).dropLast ∧ before ≠ [] ∧
        ((parsed.context = .subcommand ∨ ∃ index type, parsed.context = .argument index type) →
          (Cut.of line cursor).Redirects database)) := by
  intro parsed schema recorded before
  have known : schema = (Cut.of line cursor).schema? database := parse_schema database line cursor
  simp only [before, recorded, known]
  refine ⟨recorded_texts database line cursor, Reading.recorded_ordered _ line cursor, ?_⟩
  by_cases words : (Cut.of line cursor).complete = []
  · have first : parsed = _ := parse_of_first database words
    have once : ¬ parsed.Repeats := by simp [ParsedLine.Repeats, first]
    refine ⟨fun _ => ?_, fun repeats => absurd repeats once⟩
    rw [Reading.recorded_of_first words, startingBefore_nil, first]
    simp [wordsBefore]
  · have texts := recorded_before database words
    dsimp only at texts
    refine ⟨fun once => (wordsBefore_of_once words once).trans texts.symm, fun repeats => ?_⟩
    obtain ⟨seen, some_⟩ := wordsBefore_of_repeats words repeats
    rw [← texts] at seen some_
    exact ⟨seen, fun empty => some_ (by rw [empty]; rfl), redirects_of_repeats repeats⟩

/-- Of a file that is copied to and redirected to as well, the handlers miss the first mention. -/
theorem wordsBefore_drops_repeated :
    let parsed := parse none (utf8 "cp a b > b") 10
    (∃ index type, parsed.context = .argument index type) ∧ wordsBefore parsed = [utf8 "a"] ∧
      (startingBefore (utf8 "cp a b > b") 10 (Reading.recorded none (Cut.of (utf8 "cp a b > b") 10))).map Token.text =
        [utf8 "a", utf8 "b"] := by
  intro parsed
  exact ⟨⟨2, some (.file []), by decide⟩, by decide, by decide⟩

end Handler

end ShellCompletion
