import ShellCompletion.Proofs.Line.Cut
import ShellCompletion.Proofs.Line.Reading

namespace ShellCompletion

/-- The schema of the command of a line. -/
def Cut.schema? (database : Option Database) (cut : Cut) : Option Schema :=
  database.bind (·.find? cut.command)

/-- The length of the operator that stands glued to the text under the cursor. -/
def Cut.glued (cut : Cut) (reading : Reading) : Nat :=
  if reading.optionsEnded then 0 else Redirect.gluedLength cut.text

theorem Cut.glued_le (cut : Cut) (reading : Reading) : cut.glued reading ≤ cut.text.length := by
  unfold Cut.glued
  split_ifs
  · omega
  · exact Redirect.gluedLength_le cut.text

/-- The first complete word is followed by a blank. -/
def Cut.Spaced (line : Bytes) (cut : Cut) : Prop :=
  (line.drop ((cut.complete.head?.map Token.stop).getD line.length)).head?.any Bytes.isBlank

variable {database : Option Database} {line : Bytes} {cursor : Nat}

theorem Cut.spaced_of (words : (Cut.of line cursor).complete ≠ []) : (Cut.of line cursor).Spaced line := by
  obtain ⟨first, more, split⟩ := List.exists_cons_of_ne_nil words
  have complete : first ∈ (Cut.of line cursor).complete := by simp [split]
  have blank := Cut.blank_after_complete complete
  simpa [Cut.Spaced, split] using blank

theorem Cut.command_eq {first : Token} {more : List Token} (split : (Cut.of line cursor).complete = first :: more) :
    (Cut.of line cursor).command = first.text := by
  have tokens := Cut.complete_append_rest line cursor
  rw [split] at tokens
  simp [Cut.of, ← tokens]

/-! ## The two cases of a line -/

theorem parse_of_first (database : Option Database) (first : (Cut.of line cursor).complete = []) :
    parse database line cursor =
      { command := (Cut.of line cursor).command, subcommandPath := [], options := [], arguments := []
        current := (Cut.of line cursor).text, context := .command, cursorIndex := 0
        replaceStart := (Cut.of line cursor).start, replaceStop := (Cut.of line cursor).cursor
        commandKnown := false } := by
  simp [parse, first]

theorem parse_of_words (database : Option Database) (words : (Cut.of line cursor).complete ≠ []) :
    let cut := Cut.of line cursor
    let schema := cut.schema? database
    let reading := Reading.ofCut schema cut
    parse database line cursor =
      { command := cut.command, subcommandPath := reading.path, options := reading.options
        arguments := reading.arguments, current := cut.text.drop (cut.glued reading)
        context :=
          if 0 < cut.glued reading then .argument reading.arguments.length (some (.file []))
          else contextOf schema line cut reading
        cursorIndex := cut.complete.length, replaceStart := cut.start + cut.glued reading
        replaceStop := cut.cursor, commandKnown := schema.isSome } := by
  unfold parse
  dsimp only
  rw [if_neg (by simpa using words)]
  rfl

/-- A blank after the command rules out that the command is still being typed. -/
theorem contextOf_ne_command (schema : Option Schema) {cut : Cut} (reading : Reading) (spaced : cut.Spaced line) :
    contextOf schema line cut reading ≠ .command := by
  unfold contextOf
  simp only [show (line.drop ((cut.complete.head?.map Token.stop).getD line.length)).head?.any Bytes.isBlank = true
    from spaced, Bool.not_true, Bool.false_eq_true, if_false]
  cases schema <;> dsimp only <;> split_ifs <;> simp

theorem parse_context_eq_command_iff (database : Option Database) (line : Bytes) (cursor : Nat) :
    (parse database line cursor).context = .command ↔ (Cut.of line cursor).complete = [] := by
  constructor
  · intro command
    by_contra words
    rw [parse_of_words database words] at command
    dsimp only at command
    split_ifs at command
    exact contextOf_ne_command _ _ (Cut.spaced_of words) command
  · intro first
    rw [parse_of_first database first]

theorem parse_command (database : Option Database) (line : Bytes) (cursor : Nat) :
    (parse database line cursor).command = (Cut.of line cursor).command := by
  unfold parse
  dsimp only
  split_ifs <;> rfl

theorem parse_schema (database : Option Database) (line : Bytes) (cursor : Nat) :
    database.bind (·.find? (parse database line cursor).command) = (Cut.of line cursor).schema? database := by
  rw [parse_command]
  rfl

theorem parse_replaceStop (database : Option Database) (line : Bytes) (cursor : Nat) :
    (parse database line cursor).replaceStop = (Cut.of line cursor).cursor := by
  unfold parse
  dsimp only
  split_ifs <;> rfl

theorem parse_cursorIndex (database : Option Database) (line : Bytes) (cursor : Nat) :
    (parse database line cursor).cursorIndex = (Cut.of line cursor).complete.length := by
  by_cases first : (Cut.of line cursor).complete = []
  · rw [parse_of_first database first, first]
    rfl
  · rw [parse_of_words database first]

theorem parse_path_options (database : Option Database) (words : (Cut.of line cursor).complete ≠ []) :
    let before := Reading.ofComplete ((Cut.of line cursor).schema? database) (Cut.of line cursor)
    (parse database line cursor).subcommandPath = before.path ∧ (parse database line cursor).options = before.options := by
  intro before
  rw [parse_of_words database words]
  exact ⟨(Reading.ofCut_keeps _ _).2.1, Reading.ofCut_options _ _⟩

/-- How far the replaced span starts after the text under the cursor. -/
def Cut.advance (database : Option Database) (cut : Cut) : Nat :=
  if cut.complete = [] then 0 else cut.glued (Reading.ofCut (cut.schema? database) cut)

theorem Cut.advance_le (database : Option Database) (cut : Cut) : cut.advance database ≤ cut.text.length := by
  unfold Cut.advance
  split_ifs
  · omega
  · exact cut.glued_le _

theorem parse_replaceStart (database : Option Database) (line : Bytes) (cursor : Nat) :
    (parse database line cursor).replaceStart =
        (Cut.of line cursor).start + (Cut.of line cursor).advance database ∧
      (parse database line cursor).current =
        (Cut.of line cursor).text.drop ((Cut.of line cursor).advance database) := by
  by_cases first : (Cut.of line cursor).complete = []
  · rw [parse_of_first database first]
    simp [Cut.advance, first]
  · rw [parse_of_words database first]
    simp [Cut.advance, first]

/-! ## The span under the cursor -/

theorem parse_current (database : Option Database) (line : Bytes) (cursor : Nat) :
    (parse database line cursor).replaceStart ≤ (parse database line cursor).replaceStop ∧
      (parse database line cursor).current =
        (line.take (parse database line cursor).replaceStop).drop (parse database line cursor).replaceStart := by
  obtain ⟨start, current⟩ := parse_replaceStart database line cursor
  obtain ⟨starts, text⟩ := Cut.text_eq line cursor
  have advance := (Cut.of line cursor).advance_le database
  have taken : line.take (Cut.of line cursor).cursor = line.take cursor := List.take_eq_take_min.symm
  have length : (Cut.of line cursor).text.length = (Cut.of line cursor).cursor - (Cut.of line cursor).start := by
    rw [text, ← taken, List.length_drop, List.length_take, Nat.min_eq_left (Cut.of_cursor_le line cursor)]
  rw [parse_replaceStop, start, current, taken, text, List.drop_drop]
  exact ⟨by omega, rfl⟩

/-- The token's span holds the offset; its end counts as well as its start. -/
def Token.holds (offset : Nat) (token : Token) : Bool :=
  decide (token.start ≤ offset) && decide (offset ≤ token.stop)

/-- The first token whose span holds the offset. -/
def tokenAt? (line : Bytes) (offset : Nat) : Option Token := (tokenize line).find? (Token.holds offset)

theorem current_of_tokenAt {token : Token} (found : tokenAt? line (Cut.of line cursor).cursor = some token) :
    ∃ after, tokenize line = (Cut.of line cursor).complete ++ token :: after ∧
      (Cut.of line cursor).current = some (token.upTo (Cut.of line cursor).cursor) := by
  obtain ⟨holds, before, after, parts, _⟩ := List.find?_eq_some_iff_append.mp found
  simp only [Token.holds, Bool.and_eq_true, decide_eq_true_eq] at holds
  obtain ⟨complete, split⟩ := Cut.divide_at parts holds.1 holds.2
  refine ⟨after, by rw [complete, parts], ?_⟩
  rw [Cut.current_eq, split, List.head?_cons, Option.filter_some, if_pos (by simpa using holds.1),
    Option.map_some]

theorem current_of_tokenAt_none (free : tokenAt? line (Cut.of line cursor).cursor = none) :
    (Cut.of line cursor).current = none := by
  cases current : (Cut.of line cursor).current with
  | none => rfl
  | some word =>
    obtain ⟨token, after, parts, starts, stops, _⟩ := Cut.current_eq_some current
    have outside := List.find?_eq_none.mp free token (by simp [parts])
    simp [Token.holds, starts, stops] at outside

/-- The token under the cursor is the command when no complete token stands before it. -/
theorem head_tokenize_iff {token : Token} {after : List Token}
    (parts : tokenize line = (Cut.of line cursor).complete ++ token :: after) :
    (tokenize line).head? = some token ↔ (Cut.of line cursor).complete = [] := by
  cases complete : (Cut.of line cursor).complete with
  | nil => simp [parts, complete]
  | cons first more =>
    have earlier := (tokenize_around parts).1 first (by simp [complete])
    have nonempty := (tokenize_within line first (by simp [parts, complete])).nonempty
    have other : first ≠ token := by rintro rfl; omega
    simp [parts, complete, other]

theorem complete_eq_nil_iff (line : Bytes) (cursor : Nat) :
    (Cut.of line cursor).complete = [] ↔ ∀ token ∈ tokenize line, ¬ token.stop < (Cut.of line cursor).cursor := by
  constructor
  · intro first token member stops
    simpa [first] using Cut.mem_complete member stops
  · intro none_
    refine List.eq_nil_iff_forall_not_mem.mpr fun token member => ?_
    exact none_ token (Cut.mem_tokenize_of_complete member) (Cut.complete_stop_lt member)

theorem advance_eq_zero (database : Option Database) {cut : Cut}
    (set_ : cut.complete = [] ∨ Reading.EndsOptions (cut.schema? database) (cut.complete.drop 1)) :
    cut.advance database = 0 := by
  unfold Cut.advance Cut.glued
  rcases set_ with first | ended
  · rw [if_pos first]
  · rw [if_pos ((Reading.ofCut_optionsEnded _ cut).mpr ended), ite_self]

theorem advance_eq_glued (database : Option Database) {cut : Cut} (words : cut.complete ≠ [])
    (running : ¬ Reading.EndsOptions (cut.schema? database) (cut.complete.drop 1)) :
    cut.advance database = Redirect.gluedLength cut.text := by
  unfold Cut.advance Cut.glued
  rw [if_neg words, if_neg fun ended => running ((Reading.ofCut_optionsEnded _ cut).mp ended)]

theorem replaceStart_of_free (database : Option Database)
    (free : tokenAt? line (Cut.of line cursor).cursor = none) :
    (parse database line cursor).replaceStart = (Cut.of line cursor).cursor := by
  have none_ := current_of_tokenAt_none free
  have advance := (Cut.of line cursor).advance_le database
  simp only [Cut.text, none_, Option.map_none, Option.getD_none, List.length_nil] at advance
  rw [(parse_replaceStart database line cursor).1, Nat.le_zero.mp advance]
  simp [Cut.start, none_]

theorem replaceStart_of_tokenAt (database : Option Database) {token : Token}
    (found : tokenAt? line (Cut.of line cursor).cursor = some token) :
    (parse database line cursor).replaceStart = token.start + (Cut.of line cursor).advance database ∧
      (Cut.of line cursor).text = token.text.take ((Cut.of line cursor).cursor - token.start) := by
  obtain ⟨after, _, under⟩ := current_of_tokenAt found
  rw [(parse_replaceStart database line cursor).1]
  simp [Cut.start, Cut.text, under, Token.upTo]

/-- The replaced span ends at the cursor, and the current text is what the line has there. It starts
    with the token under the cursor, after a redirection operator glued to its front unless the token
    is the command or two dashes ended the options. The command is still being typed exactly while no
    token ends before the cursor; once it is complete a blank follows it. -/
theorem parse_span (database : Option Database) (line : Bytes) (cursor : Nat) :
    let parsed := parse database line cursor
    let stop := min cursor line.length
    let words := ((tokenize line).takeWhile (·.stop < stop)).drop 1
    let ended := Reading.EndsOptions (database.bind (·.find? parsed.command)) words
    parsed.replaceStop = stop ∧ parsed.replaceStart ≤ parsed.replaceStop ∧
      parsed.current = (line.take parsed.replaceStop).drop parsed.replaceStart ∧
      (tokenAt? line stop = none → parsed.replaceStart = stop) ∧
      (∀ token, tokenAt? line stop = some token →
        ((tokenize line).head? = some token ∨ ended → parsed.replaceStart = token.start) ∧
          ((tokenize line).head? ≠ some token → ¬ ended → parsed.replaceStart =
            token.start + Redirect.gluedLength (token.text.take (stop - token.start)))) ∧
      (parsed.context = .command ↔ ∀ token ∈ tokenize line, ¬ token.stop < stop) ∧
      ∀ command, (tokenize line).head? = some command → command.stop < stop →
        (line.drop command.stop).head?.any Bytes.isBlank := by
  intro parsed stop words ended
  obtain ⟨starts, current⟩ := parse_current database line cursor
  have ended_iff : ended ↔ Reading.EndsOptions ((Cut.of line cursor).schema? database)
      ((Cut.of line cursor).complete.drop 1) := by
    simp only [ended, parsed, parse_command]; rfl
  refine ⟨parse_replaceStop database line cursor, starts, current, ?_, ?_, ?_, ?_⟩
  · exact replaceStart_of_free database
  · intro token found
    obtain ⟨after, parts, _⟩ := current_of_tokenAt found
    obtain ⟨start, text⟩ := replaceStart_of_tokenAt database found
    have first := head_tokenize_iff parts
    rw [ended_iff, start]
    constructor
    · rw [first]
      intro set_
      rw [advance_eq_zero database set_, Nat.add_zero]
    · intro words running
      rw [advance_eq_glued database (fun nil => words (first.mpr nil)) running, text]
      rfl
  · exact (parse_context_eq_command_iff database line cursor).trans (complete_eq_nil_iff line cursor)
  · intro command head stops
    have member : command ∈ tokenize line := List.mem_of_mem_head? head
    have complete : command ∈ (Cut.of line cursor).complete := Cut.mem_complete member stops
    exact Cut.blank_after_complete complete

/-! ## Without the bytes after the cursor -/

/-- A reading without what the next word is owed to. -/
def Reading.settled (reading : Reading) : Reading := { reading with owed := .nothing }

theorem Reading.settled_stepCurrent {reading : Reading} {word : Token} (empty : word.text = []) :
    (reading.stepCurrent word).settled = reading.settled := by
  rcases stepCurrent_takes reading word with ⟨records, _⟩ | ⟨_, owed, same⟩
  · exact absurd empty records.typed
  · rw [same]; rfl

/-- The context depends on the line only through its cut, and on no owed word. -/
theorem contextOf_congr (schema : Option Schema) {line line' : Bytes} {cut cut' : Cut} {reading reading' : Reading}
    (complete : cut.complete = cut'.complete) (text : cut.text = cut'.text)
    (settled : reading.settled = reading'.settled) (spaced : cut.Spaced line) (spaced' : cut'.Spaced line') :
    contextOf schema line cut reading = contextOf schema line' cut' reading' := by
  have forget : ∀ (reading : Reading) line cut,
      contextOf schema line cut reading = contextOf schema line cut reading.settled := fun _ _ _ => rfl
  rw [forget reading, forget reading', settled]
  unfold Cut.Spaced at spaced spaced'
  simp only [contextOf, complete, text] at spaced ⊢
  rw [spaced, spaced']

/-- Without the bytes after the cursor the same text is under it, and the words read the same. -/
theorem Cut.of_take_reading (line : Bytes) (cursor : Nat) (schema : Option Schema) :
    (Cut.of (line.take cursor) cursor).text = (Cut.of line cursor).text ∧
      (Cut.of (line.take cursor) cursor).start = (Cut.of line cursor).start ∧
      (Reading.ofCut schema (Cut.of (line.take cursor) cursor)).settled =
        (Reading.ofCut schema (Cut.of line cursor)).settled := by
  obtain ⟨cursors, complete, current | ⟨gone, empty⟩⟩ := Cut.of_take line cursor
  · simp [Cut.text, Cut.start, Reading.ofCut, cursors, complete, current]
  · refine ⟨by simp [Cut.text, gone, empty], by simp [Cut.start, gone, empty, cursors], ?_⟩
    simp only [Reading.ofCut, complete, gone, empty]
    exact (Reading.settled_stepCurrent rfl).symm

/-- Once the command is complete, a parse depends on the line only through its cut, and on no owed word. -/
theorem parse_congr (database : Option Database) {line' : Bytes} {cursor' : Nat}
    (words : (Cut.of line' cursor').complete ≠ [])
    (complete : (Cut.of line cursor).complete = (Cut.of line' cursor').complete)
    (command : (Cut.of line cursor).command = (Cut.of line' cursor').command)
    (cursors : (Cut.of line cursor).cursor = (Cut.of line' cursor').cursor)
    (text : (Cut.of line cursor).text = (Cut.of line' cursor').text)
    (start : (Cut.of line cursor).start = (Cut.of line' cursor').start)
    (settled : (Reading.ofCut ((Cut.of line' cursor').schema? database) (Cut.of line cursor)).settled =
      (Reading.ofCut ((Cut.of line' cursor').schema? database) (Cut.of line' cursor')).settled) :
    parse database line cursor = parse database line' cursor' := by
  have words' : (Cut.of line cursor).complete ≠ [] := complete ▸ words
  have schema : (Cut.of line cursor).schema? database = (Cut.of line' cursor').schema? database := by
    rw [Cut.schema?, command]; rfl
  have context := contextOf_congr ((Cut.of line' cursor').schema? database) complete text settled
    (Cut.spaced_of words') (Cut.spaced_of words)
  have fields := congrArg (fun reading : Reading =>
    (reading.path, reading.options, reading.arguments, reading.optionsEnded)) settled
  simp only [Reading.settled, Prod.mk.injEq] at fields
  obtain ⟨path, options, arguments, ended⟩ := fields
  have glued :
      (Cut.of line cursor).glued (Reading.ofCut ((Cut.of line' cursor').schema? database) (Cut.of line cursor)) =
        (Cut.of line' cursor').glued
          (Reading.ofCut ((Cut.of line' cursor').schema? database) (Cut.of line' cursor')) := by
    simp only [Cut.glued, text, ended]
  rw [parse_of_words database words', parse_of_words database words]
  simp only [schema, command, path, options, arguments, glued, text, context, complete, start, cursors]

/-- The bytes after the cursor say nothing about what is under it: without them the line is parsed
    the same. Only the command is cut short, while it is still being typed. -/
theorem parse_take (database : Option Database) (line : Bytes) (cursor : Nat) :
    parse database (line.take cursor) cursor =
        { parse database line cursor with command := (parse database (line.take cursor) cursor).command } ∧
      ((∃ token ∈ tokenize line, token.stop < cursor) →
        (parse database (line.take cursor) cursor).command = (parse database line cursor).command) := by
  obtain ⟨cursors, complete, _⟩ := Cut.of_take line cursor
  have reading := Cut.of_take_reading line cursor
  by_cases first : (Cut.of line cursor).complete = []
  · constructor
    · obtain ⟨text, start, _⟩ := reading none
      rw [parse_of_first database first, parse_of_first database (complete.trans first), text, start, cursors]
    · rintro ⟨token, member, stops⟩
      have beyond : line.length < cursor := by
        by_contra within
        have cursor_eq : (Cut.of line cursor).cursor = cursor := by rw [Cut.of_cursor]; omega
        exact (complete_eq_nil_iff line cursor).mp first token member (by rw [cursor_eq]; exact stops)
      rw [List.take_of_length_le (by omega)]
  · obtain ⟨head, more, split⟩ := List.exists_cons_of_ne_nil first
    have command : (Cut.of (line.take cursor) cursor).command = (Cut.of line cursor).command := by
      rw [Cut.command_eq split, Cut.command_eq (complete.trans split)]
    obtain ⟨text, start, _⟩ := reading none
    have same := parse_congr database first complete command cursors text start (reading _).2.2
    exact ⟨by rw [same], fun _ => by rw [same]⟩

end ShellCompletion
