import ShellCompletion.Proofs.Line.Owed
import ShellCompletion.Proofs.Line.Parsing

namespace ShellCompletion

variable {database : Option Database} {line : Bytes} {cursor : Nat}

theorem ofComplete_arguments (schema : Option Schema) (cut : Cut) :
    (Reading.ofComplete schema cut).arguments.Sublist (cut.complete.drop 1) := by
  obtain ⟨taken, sublist, arguments⟩ := Reading.foldl_arguments schema (cut.complete.drop 1) {}
  rw [Reading.ofComplete, arguments]
  exact sublist

theorem stop_lt_replaceStart (database : Option Database) {token : Token}
    (complete : token ∈ (Cut.of line cursor).complete) :
    token.stop < (parse database line cursor).replaceStart := by
  have stops := Cut.complete_stop_lt_start complete
  rw [(parse_replaceStart database line cursor).1]
  omega

theorem advance_of_records {cut : Cut} (records : (Reading.ofComplete (cut.schema? database) cut).Records cut.text) :
    cut.advance database = 0 := by
  have keeps := (Reading.ofCut_keeps (cut.schema? database) cut).1
  simp only [Cut.advance, Cut.glued, keeps]
  split_ifs with first ended
  · rfl
  · rfl
  · exact (records.operand (by simpa using ended)).2.1

theorem arguments_of_words (database : Option Database) (words : (Cut.of line cursor).complete ≠ []) :
    let parsed := parse database line cursor
    let before := Reading.ofComplete ((Cut.of line cursor).schema? database) (Cut.of line cursor)
    (before.Records (Cut.of line cursor).text ∧ parsed.current = (Cut.of line cursor).text ∧
        ∃ word, (Cut.of line cursor).current = some word ∧ parsed.arguments = before.arguments ++ [word] ∧
          word.start = parsed.replaceStart) ∨
      ¬ before.Records (Cut.of line cursor).text ∧ parsed.arguments = before.arguments := by
  intro parsed before
  obtain ⟨start, current⟩ := parse_replaceStart database line cursor
  have arguments : parsed.arguments =
      (Reading.ofCut ((Cut.of line cursor).schema? database) (Cut.of line cursor)).arguments := by
    simp only [parsed]; rw [parse_of_words database words]
  rcases Reading.ofCut_takes ((Cut.of line cursor).schema? database) (Cut.of line cursor) with
    ⟨records, word, under, taken⟩ | ⟨other, owed, same⟩
  · rw [advance_of_records records] at start current
    refine .inl ⟨records, current, word, under, by rw [arguments, taken]; rfl, ?_⟩
    simp only [parsed, start, Cut.start, under]
    rfl
  · exact .inr ⟨other, by rw [arguments, same]⟩

/-- Something starts among the arguments where the cursor's text does just if that text is recorded. -/
theorem recorded_iff (database : Option Database) (words : (Cut.of line cursor).complete ≠ []) :
    (∃ argument ∈ (parse database line cursor).arguments,
        argument.start = (parse database line cursor).replaceStart) ↔
      (Reading.ofComplete ((Cut.of line cursor).schema? database) (Cut.of line cursor)).Records
        (Cut.of line cursor).text := by
  rcases arguments_of_words database words with ⟨records, _, word, _, split, start⟩ | ⟨other, same⟩
  · exact iff_of_true ⟨word, by simp [split], start⟩ records
  · refine iff_of_false ?_ other
    rintro ⟨argument, member, start⟩
    rw [same] at member
    have complete := List.mem_of_mem_drop ((ofComplete_arguments _ _).subset member)
    have stops := stop_lt_replaceStart database complete
    have nonempty := (tokenize_within line argument (Cut.mem_tokenize_of_complete complete)).nonempty
    omega

/-- Of some words those that start before the token at an offset; all of them if there is none. -/
def startingBefore (line : Bytes) (offset : Nat) (words : List Token) : List Token :=
  match tokenAt? line offset with
  | some under => words.filter (·.start < under.start)
  | none => words

theorem startingBefore_nil (line : Bytes) (offset : Nat) : startingBefore line offset [] = [] := by
  unfold startingBefore
  split <;> rfl

/-- Complete words start before the token under the cursor, and what has been typed of that token does not. -/
theorem startingBefore_eq {words typing : List Token} (complete : ∀ word ∈ words, word ∈ (Cut.of line cursor).complete)
    (current : ∀ word ∈ typing, (Cut.of line cursor).current = some word) :
    startingBefore line (Cut.of line cursor).cursor (words ++ typing) = words := by
  unfold startingBefore
  cases found : tokenAt? line (Cut.of line cursor).cursor with
  | none =>
    have none_ : typing = [] := List.eq_nil_iff_forall_not_mem.mpr fun word member => by
      simp [current_of_tokenAt_none found] at current
      exact current word member
    simp [none_]
  | some under =>
    obtain ⟨after, parts, typed⟩ := current_of_tokenAt found
    have early : ∀ word ∈ words, decide (word.start < under.start) = true := by
      intro word member
      have nonempty := (tokenize_within line word (Cut.mem_tokenize_of_complete (complete word member))).nonempty
      have stops := (tokenize_around parts).1 word (complete word member)
      exact decide_eq_true (by omega)
    have late : ∀ word ∈ typing, ¬ decide (word.start < under.start) = true := by
      intro word member
      obtain rfl : under.upTo (Cut.of line cursor).cursor = word :=
        Option.some.inj (typed.symm.trans (current word member))
      simp [Token.upTo]
    dsimp only
    rw [List.filter_append, List.filter_eq_self.mpr early, List.filter_eq_nil_iff.mpr late, List.append_nil]

/-- The arguments that start before the token under the cursor; all of them if it stands in none. -/
def argumentsBefore (line : Bytes) (parsed : ParsedLine) : List Token :=
  match tokenAt? line parsed.replaceStop with
  | some under => parsed.arguments.filter (·.start < under.start)
  | none => parsed.arguments

theorem argumentsBefore_eq (database : Option Database) (words : (Cut.of line cursor).complete ≠ []) :
    argumentsBefore line (parse database line cursor) =
      (Reading.ofComplete ((Cut.of line cursor).schema? database) (Cut.of line cursor)).arguments := by
  have same : argumentsBefore line (parse database line cursor) =
      startingBefore line (Cut.of line cursor).cursor (parse database line cursor).arguments := by
    rw [← parse_replaceStop database line cursor]
    rfl
  have complete : ∀ argument ∈ (Reading.ofComplete ((Cut.of line cursor).schema? database)
      (Cut.of line cursor)).arguments, argument ∈ (Cut.of line cursor).complete :=
    fun argument member => List.mem_of_mem_drop ((ofComplete_arguments _ _).subset member)
  obtain ⟨typing, split, under⟩ := Reading.ofCut_arguments ((Cut.of line cursor).schema? database) (Cut.of line cursor)
  rw [same, parse_of_words database words]
  dsimp only
  rw [split]
  exact startingBefore_eq complete under

/-- How far redirections are apart from the arguments. An argument before the two dashes that end the options is no
    operator, carries none, and follows none but one that is itself an option's value or another one's file. Elsewhere
    they are not apart: a word after the two dashes is recorded or names a subcommand, whether it is an operator, an
    operator's file or neither, and so is the word behind an operator that is owed or that stands for the command, if it
    is no operator, carries none and does not start with a dash. -/
theorem arguments_apart_from_redirections (database : Option Database) (line : Bytes) (cursor : Nat) :
    let parsed := parse database line cursor
    let schema := database.bind (·.find? parsed.command)
    let words := (Cut.of line cursor).words
    (∀ argument ∈ parsed.arguments, ∃ before after, words = before ++ argument :: after ∧
      (¬ Reading.EndsOptions schema before →
        Redirect.isOperator argument.text = false ∧ Redirect.gluedLength argument.text = 0 ∧
          ∀ operator ∈ before.getLast?, Redirect.isOperator operator.text →
            Reading.owedAfter schema before.dropLast ≠ .nothing)) ∧
      ∀ before word after, words = before ++ word :: after → word.text ≠ [] →
        (Reading.EndsOptions schema before ∨
          (Reading.owedAfter schema before.dropLast ≠ .nothing ∨ before = [] ∧ 0 < parsed.cursorIndex) ∧
            Redirect.isOperator word.text = false ∧ Redirect.gluedLength word.text = 0 ∧
              word.text.head? ≠ some '-'.toUInt8) →
        word ∈ parsed.arguments ∨ word.text ∈ parsed.subcommandPath := by
  intro parsed schema words
  have known : schema = (Cut.of line cursor).schema? database := by
    simp only [schema, parsed, parse_command]; rfl
  by_cases first : (Cut.of line cursor).complete = []
  · have blank : parsed.arguments = [] ∧ parsed.cursorIndex = 0 := by
      simp only [parsed]; rw [parse_of_first database first]; simp
    refine ⟨by simp [blank.1], fun before word after split _ place => ?_⟩
    -- With nothing but the text under the cursor there is no word in front of another.
    have single : (Cut.of line cursor).current.toList.length ≤ 1 := by
      cases (Cut.of line cursor).current <;> simp
    have length := congrArg List.length split
    simp only [words, Cut.words, first, List.drop_nil, List.nil_append, List.length_append,
      List.length_cons] at length
    obtain rfl : before = [] := List.eq_nil_of_length_eq_zero (by omega)
    rcases place with ⟨early, dashes, late, split, _⟩ | ⟨owed | ⟨_, later⟩, _⟩
    · simp at split
    · exact absurd rfl owed
    · omega
  · have fields : parsed.arguments = (Reading.ofCut schema (Cut.of line cursor)).arguments ∧
        parsed.subcommandPath = (Reading.ofCut schema (Cut.of line cursor)).path := by
      simp only [parsed, known]; rw [parse_of_words database first]; exact ⟨rfl, rfl⟩
    rw [fields.1, fields.2]
    refine ⟨fun argument member => ?_, fun before word after split typed place => ?_⟩
    · obtain ⟨before, after, split, free, operand⟩ :=
        Reading.ofCut_standsIn schema (Cut.of line cursor) argument member
      refine ⟨before, after, split, fun running => ?_⟩
      obtain ⟨other, unglued, _⟩ := operand (Reading.foldl_running running)
      refine ⟨other, unglued, fun operator last operates owed => ?_⟩
      obtain ⟨earlier, rfl⟩ := List.getLast?_eq_some_iff.mp last
      rw [List.dropLast_concat] at owed
      simp [Reading.owedAfter_of_operator running operates owed] at free
    · rcases place with ended | ⟨skipped, other, unglued, undashed⟩
      · exact Reading.ofCut_operand split (Reading.owedAfter_of_ended ended) (Reading.isOperand_of_ended ended word) typed
      · refine Reading.ofCut_operand split ?_ (fun _ => ⟨other, unglued, ?_, fun dash => absurd dash undashed⟩) typed
        · rcases List.eq_nil_or_concat before with rfl | ⟨earlier, operator, rfl⟩
          · rfl
          · rw [List.concat_eq_append, List.dropLast_concat] at skipped
            rw [List.concat_eq_append]
            exact Reading.owedAfter_of_owed (skipped.resolve_right (by simp)) operator
        · rintro dashes
          exact undashed (by rw [dashes]; rfl)

/-- Redirections are recorded: after two dashes an operator and its file, and a word with an operator at its front; the
    file of an operator that is the value of an option, the file of another one, or the command. -/
theorem redirections_recorded :
    (parse none (utf8 "tool run -- > out.txt") 21).arguments = [⟨utf8 ">", 12, 13⟩, ⟨utf8 "out.txt", 14, 21⟩] ∧
      (parse none (utf8 "tool run -- 2>out.txt ") 22).arguments = [⟨utf8 "2>out.txt", 12, 21⟩] ∧
      (parse none (utf8 "tool run -m > out.txt ") 22).arguments = [⟨utf8 "out.txt", 14, 21⟩] ∧
      (parse none (utf8 "tool run > > out.txt ") 21).arguments = [⟨utf8 "out.txt", 13, 20⟩] ∧
      (parse none (utf8 "> out.txt ") 10).arguments = [⟨utf8 "out.txt", 2, 9⟩] := by
  decide

end ShellCompletion
