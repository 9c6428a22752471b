import ShellCompletion.Proofs.Line.Arguments

/-!
# What the text under the cursor is

`Classifies` lists what the text under the cursor can be once the command is complete, with the condition
of each case, and `parse_classifies` says that a parse is one of them. Two facts follow on how the context
agrees with the reading of the words: the position of an argument is the number of arguments before it,
where no redirection is read twice (`argument_index`), and a value that the reading sets aside is the
value of an option (`optionValue_owed`).
-/
namespace ShellCompletion

namespace Cut

/-- The last complete word after the command. -/
def previous? (cut : Cut) : Option Token := (cut.complete.drop 1).getLast?

/-- The text under the cursor is an operator or follows one. -/
def AtRedirection (cut : Cut) : Prop :=
  (∃ operator ∈ cut.previous?, Redirect.isOperator operator.text) ∨ Redirect.isOperator cut.text

instance (cut : Cut) : Decidable cut.AtRedirection := by
  unfold AtRedirection; infer_instance

/-- The text under the cursor follows a word that is written as an option with a value. -/
structure Awaits (schema : Option Schema) (cut : Cut) (reading : Reading) (option : Token) : Prop where
  previous : cut.previous? = some option
  running : reading.optionsEnded = false
  written : isOptionWord option.text
  takes : (reading.scope schema).takesValue option.text

/-- The text under the cursor is not written as an option, and no operator is glued to it. -/
structure IsPlain (cut : Cut) (reading : Reading) : Prop where
  unglued : cut.glued reading = 0
  undashed : reading.optionsEnded = false → cut.text.head? ≠ some '-'.toUInt8

/-- The text under the cursor is a word of its own: it belongs to no option and to no redirection. -/
structure IsWord (schema : Option Schema) (cut : Cut) (reading : Reading) : Prop extends cut.IsPlain reading where
  unawaited : ∀ option, ¬ cut.Awaits schema reading option
  apart : ¬ cut.AtRedirection

end Cut

/-- What the text under the cursor is once the command is complete. -/
inductive Classifies (schema : Option Schema) (cut : Cut) (reading : Reading) : Context → Prop
  | glued : 0 < cut.glued reading →
      Classifies schema cut reading (.argument reading.arguments.length (some (.file [])))
  | long : reading.optionsEnded = false → cut.text.head? = some '-'.toUInt8 →
      (utf8 "--").isPrefixOf cut.text ∨ cut.text.length ≠ 2 → Classifies schema cut reading .longOption
  | short : reading.optionsEnded = false → cut.text.head? = some '-'.toUInt8 →
      (utf8 "--").isPrefixOf cut.text = false → cut.text.length = 2 → Classifies schema cut reading .shortOption
  | value (option : Token) : cut.IsPlain reading → cut.Awaits schema reading option →
      Classifies schema cut reading (.optionValue option.text ((reading.scope schema).valueType option.text))
  | redirection : cut.IsPlain reading → (∀ option, ¬ cut.Awaits schema reading option) → cut.AtRedirection →
      Classifies schema cut reading (.argument reading.arguments.length (some (.file [])))
  | subcommand (known : Schema) : cut.IsWord schema reading → schema = some known →
      reading.children known ≠ [] → openPosition reading cut.text = 0 → Classifies schema cut reading .subcommand
  | argument (known : Schema) : cut.IsWord schema reading → schema = some known →
      reading.children known = [] ∨ openPosition reading cut.text ≠ 0 →
      Classifies schema cut reading (.argument (openPosition reading cut.text)
        (argumentTypeAt (known.argumentsAt reading.nodes.head?) (openPosition reading cut.text)))
  | guessed : cut.IsWord schema reading → schema = none → reading.path = [] ∨ looksLikeSubcommand cut.text →
      Classifies schema cut reading .subcommand
  | position : cut.IsWord schema reading → schema = none → reading.path ≠ [] →
      looksLikeSubcommand cut.text = false →
      Classifies schema cut reading (.argument (openPosition reading cut.text) none)

variable {database : Option Database} {line : Bytes} {cursor : Nat} {schema : Option Schema} {cut : Cut}
  {reading : Reading}

/-! ## The cases of a parse -/

theorem Cut.previous_eq (cut : Cut) :
    cut.previous? = if cut.complete.length ≤ 1 then none else cut.complete.getLast? := List.getLast?_drop

theorem Cut.getLast_of_previous {word : Token} (previous : cut.previous? = some word) :
    cut.complete.getLast? = some word := by
  rw [previous_eq] at previous
  split_ifs at previous
  exact previous

theorem Cut.previous_any (cut : Cut) (test : Bytes → Bool) :
    (decide (2 ≤ cut.complete.length) && test ((cut.complete.getLast?.map Token.text).getD [])) =
      cut.previous?.any (test ·.text) := by
  rw [previous_eq]
  split_ifs with short
  · simp [show ¬ 2 ≤ cut.complete.length by omega]
  · obtain ⟨word, last⟩ : ∃ word, cut.complete.getLast? = some word := by
      cases last : cut.complete.getLast? with
      | none => simp [List.getLast?_eq_none_iff.mp last] at short
      | some word => exact ⟨word, rfl⟩
    simp [last, show 2 ≤ cut.complete.length by omega]

theorem awaits_iff (schema : Option Schema) (cut : Cut) (reading : Reading) :
    (decide (2 ≤ cut.complete.length) && !reading.optionsEnded &&
        isOptionWord ((cut.complete.getLast?.map Token.text).getD []) &&
        (reading.scope schema).takesValue ((cut.complete.getLast?.map Token.text).getD [])) = true ↔
      ∃ option, cut.Awaits schema reading option := by
  have any := cut.previous_any fun word =>
    !reading.optionsEnded && isOptionWord word && (reading.scope schema).takesValue word
  rw [Bool.and_assoc, Bool.and_assoc, ← Bool.and_assoc (!reading.optionsEnded), any, Option.any_eq_true]
  constructor
  · rintro ⟨option, previous, holds⟩
    simp only [Bool.and_eq_true, Bool.not_eq_true'] at holds
    exact ⟨option, previous, holds.1.1, holds.1.2, holds.2⟩
  · rintro ⟨option, previous, running, written, takes⟩
    exact ⟨option, previous, by simp [running, written, takes]⟩

theorem atRedirection_iff (cut : Cut) :
    ((decide (2 ≤ cut.complete.length) &&
        Redirect.isOperator ((cut.complete.getLast?.map Token.text).getD [])) ||
        Redirect.isOperator cut.text) = true ↔ cut.AtRedirection := by
  rw [cut.previous_any Redirect.isOperator, Bool.or_eq_true, Option.any_eq_true]
  rfl

theorem head_of_dashes {text : Bytes} (dashes : (utf8 "--").isPrefixOf text) : text.head? = some '-'.toUInt8 := by
  obtain ⟨rest, rfl⟩ := List.isPrefixOf_iff_prefix.mp dashes
  rfl

theorem contextOf_classifies (schema : Option Schema) (reading : Reading) (spaced : cut.Spaced line)
    (unglued : cut.glued reading = 0) : Classifies schema cut reading (contextOf schema line cut reading) := by
  have blank : (line.drop ((cut.complete.head?.map Token.stop).getD line.length)).head?.any Bytes.isBlank = true :=
    spaced
  simp only [contextOf, blank, Bool.not_true, Bool.false_eq_true, if_false]
  split
  next dashes =>
    have long : reading.optionsEnded = false ∧ (utf8 "--").isPrefixOf cut.text = true := by
      rwa [Bool.and_eq_true, Bool.not_eq_true'] at dashes
    exact .long long.1 (head_of_dashes long.2) (.inl long.2)
  next dashes =>
  split
  next dash =>
    have option : reading.optionsEnded = false ∧ cut.text.head? = some '-'.toUInt8 := by simpa using dash
    have other : (utf8 "--").isPrefixOf cut.text = false := by
      rwa [option.1, Bool.not_false, Bool.true_and, Bool.not_eq_true] at dashes
    split
    next two => exact .short option.1 option.2 other two
    next more => exact .long option.1 option.2 (.inr more)
  next dash =>
  have plain : cut.IsPlain reading := ⟨unglued, by simpa using dash⟩
  split
  next awaits =>
    obtain ⟨option, awaits⟩ := (awaits_iff schema cut reading).mp awaits
    rw [Cut.getLast_of_previous awaits.previous]
    exact .value option plain awaits
  next free =>
  have unawaited : ∀ option, ¬ cut.Awaits schema reading option := by
    simpa using (awaits_iff schema cut reading).not.mp free
  split
  next operator => exact .redirection plain unawaited ((atRedirection_iff cut).mp operator)
  next away =>
  have word : cut.IsWord schema reading := ⟨plain, unawaited, (atRedirection_iff cut).not.mp away⟩
  cases schema with
  | some known =>
    dsimp only
    split
    next first => exact .subcommand known word rfl (by simp_all) (by simp_all)
    next later =>
      have position := Decidable.or_iff_not_imp_left.mpr (by simpa using later)
      exact .argument known word rfl position
  | none =>
    dsimp only
    split
    next named => exact .guessed word rfl (by simpa using named)
    next other => exact .position word rfl (by simp_all) (by simp_all)

theorem parse_classifies (database : Option Database) (words : (Cut.of line cursor).complete ≠ []) :
    Classifies ((Cut.of line cursor).schema? database) (Cut.of line cursor)
      (Reading.ofCut ((Cut.of line cursor).schema? database) (Cut.of line cursor))
      (parse database line cursor).context := by
  rw [parse_of_words database words]
  dsimp only
  split_ifs with glued
  · exact .glued glued
  · exact contextOf_classifies _ _ (Cut.spaced_of words) (by omega)

/-- The text under the cursor is the value of an option just where it is plain and follows one. -/
theorem parse_optionValue_iff (words : (Cut.of line cursor).complete ≠ []) {name : Bytes}
    {type : Option ValueType} :
    let schema := (Cut.of line cursor).schema? database
    let reading := Reading.ofCut schema (Cut.of line cursor)
    (parse database line cursor).context = .optionValue name type ↔
      (Cut.of line cursor).IsPlain reading ∧ ∃ option, (Cut.of line cursor).Awaits schema reading option ∧
        name = option.text ∧ type = (reading.scope schema).valueType option.text := by
  intro schema reading
  have classifies : Classifies schema (Cut.of line cursor) reading _ := parse_classifies database words
  generalize (parse database line cursor).context = context at classifies
  constructor
  · rintro rfl
    cases classifies with
    | value option plain awaits => exact ⟨plain, option, awaits, rfl, rfl⟩
  · rintro ⟨plain, option, awaits, rfl, rfl⟩
    cases classifies with
    | glued glued => exact absurd plain.unglued (Nat.ne_of_gt glued)
    | long running dash => exact absurd dash (plain.undashed running)
    | short running dash => exact absurd dash (plain.undashed running)
    | value option' _ awaits' => rw [Option.some.inj (awaits.previous.symm.trans awaits'.previous)]
    | redirection _ unawaited => exact absurd awaits (unawaited option)
    | subcommand _ own => exact absurd awaits (own.unawaited option)
    | argument _ own => exact absurd awaits (own.unawaited option)
    | guessed own => exact absurd awaits (own.unawaited option)
    | position own => exact absurd awaits (own.unawaited option)

/-! ## The reading at the cursor -/

namespace Reading

theorem ofComplete_of_previous (schema : Option Schema) {word : Token} (previous : cut.previous? = some word) :
    ofComplete schema cut = ((cut.complete.drop 1).dropLast.foldl (step schema) {}).step schema word := by
  obtain ⟨before, words⟩ := List.getLast?_eq_some_iff.mp previous
  rw [ofComplete, words, List.dropLast_concat, List.foldl_append]
  rfl

theorem previous_of_owed (schema : Option Schema) (cut : Cut) (owed : (ofComplete schema cut).owed ≠ .nothing) :
    ∃ word, cut.previous? = some word := by
  cases previous : cut.previous? with
  | some word => exact ⟨word, rfl⟩
  | none =>
    have words : cut.complete.drop 1 = [] := List.getLast?_eq_none_iff.mp previous
    simp [ofComplete, words] at owed

/-- An owed value is the value of an option that the text under the cursor follows. -/
theorem awaits_of_owed (owed : (ofComplete schema cut).owed = .value) :
    ∃ option, cut.Awaits schema (ofCut schema cut) option := by
  obtain ⟨option, previous⟩ := previous_of_owed schema cut (by simp [owed])
  have read := ofComplete_of_previous schema previous
  obtain ⟨ended, _, nodes⟩ := ofCut_keeps schema cut
  obtain ⟨looks, written, takes⟩ := (step_owed_value _ _ _).mp (read ▸ owed)
  refine ⟨option, previous, ?_, written, ?_⟩
  · rw [ended, read, Bool.eq_false_iff, ne_eq, step_optionsEnded, looks.2]
    simp [(isOptionWord_iff.mp written).2.2]
  · rwa [scope, nodes, read, step_option_nodes looks written]

/-- A word that is written as an option leaves its value owed, unless it is owed itself. -/
theorem owed_of_awaits {option : Token} (awaits : cut.Awaits schema (ofCut schema cut) option) :
    (ofComplete schema cut).owed =
      if owedAfter schema (cut.complete.drop 1).dropLast = .nothing then .value else .nothing := by
  have read := ofComplete_of_previous schema awaits.previous
  obtain ⟨ended, _, nodes⟩ := ofCut_keeps schema cut
  split_ifs with before
  · have looks : ((cut.complete.drop 1).dropLast.foldl (step schema) {}).Looks := by
      have running := awaits.running
      rw [ended, read, Bool.eq_false_iff, ne_eq, step_optionsEnded] at running
      exact ⟨before, by simpa using fun past => running (.inl past)⟩
    have takes := awaits.takes
    rw [scope, nodes, read, step_option_nodes looks awaits.written] at takes
    rw [read]
    exact (step_owed_value schema _ option).mpr ⟨looks, awaits.written, takes⟩
  · rw [read]
    cases next : (((cut.complete.drop 1).dropLast.foldl (step schema) {}).step schema option).owed with
    | nothing => rfl
    | value => exact absurd ((step_owed_value _ _ _).mp next).1.1 before
    | target => exact absurd ((step_owed_target _ _ _).mp next).1.1 before

theorem atRedirection_of_owed (owed : (ofComplete schema cut).owed = .target) : cut.AtRedirection := by
  obtain ⟨operator, previous⟩ := previous_of_owed schema cut (by simp [owed])
  have read := ofComplete_of_previous schema previous
  exact .inl ⟨operator, previous, ((step_owed_target _ _ _).mp (read ▸ owed)).2⟩

theorem records_of_plain (plain : cut.IsPlain (ofCut schema cut)) :
    (ofComplete schema cut).Records cut.text ↔ (ofComplete schema cut).owed = .nothing ∧ cut.text ≠ [] ∧
      ((ofCut schema cut).optionsEnded = false → Redirect.isOperator cut.text = false) := by
  have ended := (ofCut_keeps schema cut).1
  constructor
  · intro records
    exact ⟨records.free, records.typed, fun running => (records.operand (ended ▸ running)).1⟩
  · rintro ⟨free, typed, operator⟩
    refine ⟨free, typed, fun running => ?_⟩
    rw [← ended] at running
    have unglued := plain.unglued
    simp only [Cut.glued, running, Bool.false_eq_true, if_false] at unglued
    exact ⟨operator running, unglued, fun dash => absurd dash (plain.undashed running)⟩

theorem not_records_of_glued (glued : 0 < cut.glued (ofCut schema cut)) :
    ¬ (ofComplete schema cut).Records cut.text := by
  intro records
  simp only [Cut.glued, (ofCut_keeps schema cut).1] at glued
  split_ifs at glued with ended
  · omega
  · have := (records.operand (by simpa using ended)).2.1
    omega

theorem ofCut_count (schema : Option Schema) (cut : Cut) :
    (¬ (ofComplete schema cut).Records cut.text →
        (ofCut schema cut).arguments.length = (ofComplete schema cut).arguments.length) ∧
      ((ofComplete schema cut).Records cut.text →
        (ofCut schema cut).arguments.length = (ofComplete schema cut).arguments.length + 1) := by
  rcases ofCut_takes schema cut with ⟨records, word, _, taken⟩ | ⟨other, owed, same⟩
  · exact ⟨fun other => absurd records other, fun _ => by simp [taken, takeArgument]⟩
  · exact ⟨fun _ => by rw [same], fun records => absurd records other⟩

/-- A word of its own is recorded as soon as something of it is typed. -/
theorem records_of_word (own : cut.IsWord schema (ofCut schema cut)) :
    (ofComplete schema cut).Records cut.text ↔ cut.text ≠ [] := by
  rw [records_of_plain own.toIsPlain]
  refine ⟨fun records => records.2.1, fun typed => ⟨?_, typed, fun _ => ?_⟩⟩
  · cases owed : (ofComplete schema cut).owed with
    | nothing => rfl
    | value =>
      obtain ⟨option, awaits⟩ := awaits_of_owed owed
      exact absurd awaits (own.unawaited option)
    | target => exact absurd (atRedirection_of_owed owed) own.apart
  · rw [Bool.eq_false_iff]
    exact fun operator => own.apart (.inr operator)

theorem openPosition_eq (own : cut.IsWord schema (ofCut schema cut)) :
    openPosition (ofCut schema cut) cut.text = (ofComplete schema cut).arguments.length := by
  rcases ofCut_takes schema cut with ⟨records, word, under, taken⟩ | ⟨other, owed, same⟩
  · have text : cut.text = word.text := Cut.text_of_current under
    have typed : word.text ≠ [] := text ▸ records.typed
    simp [openPosition, taken, takeArgument, text, typed]
  · have empty : cut.text = [] := by rwa [records_of_word own, not_not] at other
    simp [openPosition, same, empty]

end Reading

/-- The position of an argument is the number of arguments before the token under the cursor. Only where
    that token is recorded as an argument although it is a redirection operator or follows one, it is
    counted itself. -/
theorem argument_index {index : Nat} {type : Option ValueType}
    (context : (parse database line cursor).context = .argument index type) :
    let parsed := parse database line cursor
    let twice := (∃ argument ∈ parsed.arguments, argument.start = parsed.replaceStart) ∧
      (Cut.of line cursor).AtRedirection
    (¬ twice → index = (argumentsBefore line parsed).length) ∧
      (twice → index = (argumentsBefore line parsed).length + 1) := by
  intro parsed twice
  have words : (Cut.of line cursor).complete ≠ [] := by
    rw [ne_eq, ← parse_context_eq_command_iff database, context]
    simp
  have classifies := parse_classifies database words
  have before := argumentsBefore_eq database words
  have count := Reading.ofCut_count ((Cut.of line cursor).schema? database) (Cut.of line cursor)
  simp only [twice, parsed, before, recorded_iff database words]
  rw [context] at classifies
  cases classifies with
  | glued glued =>
    have other := Reading.not_records_of_glued glued
    exact ⟨fun _ => count.1 other, fun twice => absurd twice.1 other⟩
  | redirection plain unawaited operator =>
    exact ⟨fun once => count.1 fun records => once ⟨records, operator⟩, fun twice => count.2 twice.1⟩
  | argument known own =>
    exact ⟨fun _ => Reading.openPosition_eq own, fun twice => absurd twice.2 own.apart⟩
  | position own =>
    exact ⟨fun _ => Reading.openPosition_eq own, fun twice => absurd twice.2 own.apart⟩

/-- A redirection among the words counts for nothing, and neither does the word under the cursor. -/
theorem argument_index_after_redirection :
    let line := utf8 "tool run a.txt > log b.tx"
    (parse none line 25).context = .argument 1 none ∧ 1 = (argumentsBefore line (parse none line 25)).length := by
  intro line
  have context : (parse none line 25).context = .argument 1 none := by decide
  exact ⟨context, (argument_index context).1 (by decide)⟩

/-- The file of a second operator in a row is an argument, and is counted as one before itself. -/
theorem argument_counted_twice :
    let line := utf8 "tool run > > out.txt"
    (parse none line 20).context = .argument 1 (some (.file [])) ∧
      argumentsBefore line (parse none line 20) = [] := by
  decide

/-- The value of an option is owed to it, and is no argument, unless the option is owed itself to the word
    before it. Where the reading owes the value of an option, the text that is not written otherwise is
    that value. -/
theorem optionValue_owed (database : Option Database) (line : Bytes) (cursor : Nat) :
    let parsed := parse database line cursor
    let cut := Cut.of line cursor
    let schema := database.bind (·.find? parsed.command)
    let words := cut.complete.drop 1
    (∀ name type, parsed.context = .optionValue name type →
      (Reading.owedAfter schema words = .value ↔ Reading.owedAfter schema words.dropLast = .nothing) ∧
      ((∃ argument ∈ parsed.arguments, argument.start = parsed.replaceStart) ↔
        Reading.owedAfter schema words.dropLast ≠ .nothing ∧ parsed.current ≠ [] ∧
          Redirect.isOperator parsed.current = false)) ∧
      (Reading.owedAfter schema words = .value → cut.text.head? ≠ some '-'.toUInt8 →
        Redirect.gluedLength cut.text = 0 →
        ∃ option type, words.getLast? = some option ∧ parsed.context = .optionValue option.text type) := by
  intro parsed cut schema words
  have known : schema = cut.schema? database := by
    simp only [schema, parsed, parse_command]; rfl
  rw [known]
  constructor
  · intro name type context
    have complete : cut.complete ≠ [] := by
      rw [ne_eq, ← parse_context_eq_command_iff database]
      simp only [parsed] at context
      simp [context]
    obtain ⟨plain, option, awaits, _⟩ := (parse_optionValue_iff complete).mp context
    have advance : cut.advance database = 0 := by
      simpa [Cut.advance, complete] using plain.unglued
    have current : parsed.current = cut.text := by
      simpa [cut, advance] using (parse_replaceStart database line cursor).2
    have after : Reading.owedAfter (cut.schema? database) words =
      (Reading.ofComplete (cut.schema? database) cut).owed := rfl
    rw [recorded_iff database complete, Reading.records_of_plain plain, current, after,
      Reading.owed_of_awaits awaits]
    simp only [awaits.running, true_implies]
    split_ifs with before
    · refine ⟨⟨fun _ => before, fun _ => rfl⟩, fun free => absurd free.1 (by simp), fun skipped => ?_⟩
      exact absurd before skipped.1
    · exact ⟨⟨fun value => absurd value (by simp), fun free => absurd free before⟩,
        fun free => ⟨before, free.2⟩, fun skipped => ⟨rfl, skipped.2⟩⟩
  · intro owed undashed unglued
    obtain ⟨option, awaits⟩ := Reading.awaits_of_owed owed
    have complete : cut.complete ≠ [] := by
      rintro empty
      simp [words, empty, Reading.owedAfter] at owed
    have plain : cut.IsPlain (Reading.ofCut (cut.schema? database) cut) :=
      ⟨by simp [Cut.glued, awaits.running, unglued], fun _ => undashed⟩
    exact ⟨option, _, awaits.previous, (parse_optionValue_iff complete).mpr ⟨plain, option, awaits, rfl, rfl⟩⟩

/-- A word that is itself a value passes for the option of the word after it, which is an argument. -/
theorem value_recorded_as_argument :
    (parse none (utf8 "tool run -m -m out.txt") 22).context = .optionValue (utf8 "-m") none ∧
      (parse none (utf8 "tool run -m -m out.txt") 22).arguments = [⟨utf8 "out.txt", 15, 22⟩] := by
  decide

end ShellCompletion
