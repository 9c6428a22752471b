import ShellCompletion.Proofs.Line.Reading

/-!
# Words that belong to the word before them

An option that takes a value and a redirection operator own the word that follows them, whatever it is
(`step_owed_value`, `step_owed_target`). A word becomes an argument only where nothing is owed, and as an
operand (`ofCut_standsIn`), and every word that stands so is an argument or names a subcommand (`ofCut_operand`).
After the two dashes that end the options nothing is owed any more, and every word is an operand.
-/
namespace ShellCompletion

theorem Redirect.of_dash {word : Bytes} (dash : word.head? = some '-'.toUInt8) :
    isOperator word = false ∧ gluedLength word = 0 := by
  have heads : ∀ operator ∈ operators, operator ≠ [] ∧ operator.head? ≠ some '-'.toUInt8 := by decide
  obtain ⟨rest, rfl⟩ := List.head?_eq_some_iff.mp dash
  have digit : Bytes.isDigit '-'.toUInt8 = false := by decide
  constructor
  · simp only [isOperator, List.dropWhile_cons, digit, Bool.false_eq_true, if_false, Bool.and_eq_false_iff]
    left
    rw [List.contains_eq_mem, decide_eq_false_iff_not]
    exact fun member => (heads _ member).2 rfl
  · simp only [gluedLength, List.dropWhile_cons, digit, Bool.false_eq_true, if_false]
    cases found : operators.find? (·.isPrefixOf ('-'.toUInt8 :: rest)) with
    | none => rfl
    | some operator =>
      -- An operator that the word starts with would start with the dash itself.
      obtain ⟨nonempty, head⟩ := heads operator (List.mem_of_find?_eq_some found)
      obtain ⟨c, more, rfl⟩ := List.exists_cons_of_ne_nil nonempty
      have start := List.find?_some found
      simp only [List.isPrefixOf, Bool.and_eq_true, beq_iff_eq] at start
      simp [start.1] at head

theorem isOptionWord_iff {word : Bytes} :
    isOptionWord word ↔ word.head? = some '-'.toUInt8 ∧ 1 < word.length ∧ word ≠ utf8 "--" := by
  simp [isOptionWord, and_assoc, and_left_comm]

/-- The words after the command as far as they have been typed. -/
def Cut.words (cut : Cut) : List Token := cut.complete.drop 1 ++ cut.current.toList

namespace Reading

variable {schema : Option Schema} {reading : Reading} {word : Token}

/-! ## What a word leaves owed -/

/-- The next word is looked at: it is not owed, and the options have not ended. -/
def Looks (reading : Reading) : Prop := reading.owed = .nothing ∧ reading.optionsEnded = false

theorem takeWord_owed (schema : Option Schema) (reading : Reading) (word : Token) :
    (reading.takeWord schema word).owed = reading.owed := by
  unfold takeWord
  split
  · rfl
  · cases schema with
    | some known => dsimp only; split <;> rfl
    | none => dsimp only; split <;> rfl

theorem step_owed_value (schema : Option Schema) (reading : Reading) (word : Token) :
    (reading.step schema word).owed = .value ↔
      reading.Looks ∧ isOptionWord word.text ∧ (reading.scope schema).takesValue word.text := by
  unfold step
  split_ifs with owed ended operator glued dashes option
  · simp [Looks, owed]
  · simp [takeWord_owed, Looks, ended, not_not.mp owed]
  · have other : ¬ isOptionWord word.text := fun option => by
      simp [(Redirect.of_dash (isOptionWord_iff.mp option).1).1] at operator
    simp [other]
  · have other : ¬ isOptionWord word.text := fun option => by
      simp [(Redirect.of_dash (isOptionWord_iff.mp option).1).2] at glued
    simp [other, not_not.mp owed]
  · simp [isOptionWord_iff, dashes, not_not.mp owed]
  · simp [takeOption, Looks, isOptionWord_iff, not_not.mp owed, ended, option, dashes]
  · have other : ¬ isOptionWord word.text := fun written => by
      obtain ⟨dash, long, _⟩ := isOptionWord_iff.mp written
      exact option ⟨dash, long⟩
    simp [takeWord_owed, not_not.mp owed, other]

theorem step_owed_target (schema : Option Schema) (reading : Reading) (word : Token) :
    (reading.step schema word).owed = .target ↔ reading.Looks ∧ Redirect.isOperator word.text := by
  unfold step
  split_ifs with owed ended operator glued dashes option
  · simp [Looks, owed]
  · simp [takeWord_owed, Looks, ended, not_not.mp owed]
  · simp [Looks, not_not.mp owed, ended, operator]
  · simp [operator, not_not.mp owed]
  · simp [operator, not_not.mp owed]
  · simp only [takeOption, operator]
    split_ifs <;> simp
  · simp [takeWord_owed, not_not.mp owed, operator]

theorem step_option (schema : Option Schema) (looks : reading.Looks) (written : isOptionWord word.text) :
    reading.step schema word = reading.takeOption schema word.text := by
  obtain ⟨dash, long, other⟩ := isOptionWord_iff.mp written
  obtain ⟨operator, glued⟩ := Redirect.of_dash dash
  simp [step, looks.1, looks.2, operator, glued, other, dash, long]

theorem step_option_nodes (looks : reading.Looks) (written : isOptionWord word.text) :
    (reading.step schema word).nodes = reading.nodes := by
  rw [step_option schema looks written]
  rfl

/-- After the two dashes that end the options nothing is owed any more. -/
theorem step_owed_of_ended (ended : (reading.step schema word).optionsEnded = true) :
    (reading.step schema word).owed = .nothing := by
  have dashes : Redirect.isOperator (utf8 "--") = false := by decide
  rw [step_optionsEnded] at ended
  cases owed : (reading.step schema word).owed with
  | nothing => rfl
  | value =>
    obtain ⟨⟨_, running⟩, option, _⟩ := (step_owed_value schema reading word).mp owed
    simp [running, (isOptionWord_iff.mp option).2.2] at ended
  | target =>
    obtain ⟨⟨_, running⟩, operator⟩ := (step_owed_target schema reading word).mp owed
    rcases ended with ended | ⟨_, text⟩
    · simp [running] at ended
    · simp [text, dashes] at operator

/-! ## Runs -/

/-- What the words leave owed to the one that follows them. -/
def owedAfter (schema : Option Schema) (words : List Token) : Owed := (words.foldl (step schema) {}).owed

theorem owedAfter_concat (schema : Option Schema) (before : List Token) (word : Token) :
    owedAfter schema (before ++ [word]) = ((before.foldl (step schema) {}).step schema word).owed := by
  simp [owedAfter]

theorem owedAfter_of_ended {words : List Token} (ended : EndsOptions schema words) :
    owedAfter schema words = .nothing := by
  rw [← foldl_optionsEnded] at ended
  rcases List.eq_nil_or_concat words with rfl | ⟨before, word, rfl⟩
  · rfl
  · rw [List.concat_eq_append, List.foldl_append] at ended
    rw [List.concat_eq_append, owedAfter_concat]
    exact step_owed_of_ended ended

theorem foldl_running {words : List Token} (running : ¬ EndsOptions schema words) :
    (words.foldl (step schema) {}).optionsEnded = false := by
  rw [Bool.eq_false_iff, ne_eq, foldl_optionsEnded]
  exact running

/-- An operator before the end of the options owns the word after it, unless it is owed itself. -/
theorem owedAfter_of_operator {before : List Token} {operator : Token}
    (running : ¬ EndsOptions schema (before ++ [operator])) (operates : Redirect.isOperator operator.text)
    (free : owedAfter schema before = .nothing) : owedAfter schema (before ++ [operator]) = .target := by
  rw [owedAfter_concat, step_owed_target]
  exact ⟨⟨free, foldl_running fun ended => running (ended.append [operator])⟩, operates⟩

theorem step_argument {argument : Token} (member : argument ∈ (reading.step schema word).arguments) :
    argument ∈ reading.arguments ∨ argument = word ∧ reading.owed = .nothing ∧ reading.IsOperand word := by
  have takes := step_takes schema reading word
  generalize reading.step schema word = next at takes member
  cases takes with
  | argument free operand =>
    rcases List.mem_append.mp member with earlier | here
    · exact .inl earlier
    · exact .inr ⟨by simpa using here, free, operand⟩
  | _ => exact .inl member

/-- The word stands among the words where nothing is owed, and as an operand. -/
def StandsIn (schema : Option Schema) (words : List Token) (word : Token) : Prop :=
  ∃ before after, words = before ++ word :: after ∧ owedAfter schema before = .nothing ∧
    (before.foldl (step schema) {}).IsOperand word

theorem StandsIn.append {words : List Token} (stands : StandsIn schema words word) (more : List Token) :
    StandsIn schema (words ++ more) word := by
  obtain ⟨before, after, rfl, place⟩ := stands
  exact ⟨before, after ++ more, by simp, place⟩

theorem foldl_standsIn (schema : Option Schema) (words : List Token) :
    ∀ argument ∈ (words.foldl (step schema) {}).arguments, StandsIn schema words argument := by
  induction words using List.reverseRecOn with
  | nil => simp
  | append_singleton words word ih =>
    intro argument member
    rw [List.foldl_append] at member
    rcases step_argument member with earlier | ⟨rfl, free, operand⟩
    · exact (ih argument earlier).append [word]
    · exact ⟨words, [], rfl, free, operand⟩

theorem Records.isOperand (records : reading.Records word.text) : reading.IsOperand word := by
  intro running
  obtain ⟨operator, glued, dash⟩ := records.operand running
  refine ⟨operator, glued, fun dashes => ?_, dash⟩
  have short : (utf8 "--").length ≤ 1 := dashes ▸ dash (by rw [dashes]; decide)
  exact absurd short (by decide)

/-- Every argument of a line stands among its words so, the one under the cursor like the others. -/
theorem ofCut_standsIn (schema : Option Schema) (cut : Cut) :
    ∀ argument ∈ (ofCut schema cut).arguments, StandsIn schema cut.words argument := by
  intro argument member
  have complete (earlier : argument ∈ (ofComplete schema cut).arguments) : StandsIn schema cut.words argument :=
    (foldl_standsIn schema (cut.complete.drop 1) argument earlier).append cut.current.toList
  rcases ofCut_takes schema cut with ⟨records, word, under, taken⟩ | ⟨_, owed, same⟩
  · rw [taken] at member
    rcases List.mem_append.mp member with earlier | here
    · exact complete earlier
    · obtain rfl : argument = word := by simpa using here
      rw [Cut.text_of_current under] at records
      exact ⟨cut.complete.drop 1, [], by simp [Cut.words, under], records.free, records.isOperand⟩
  · rw [same] at member
    exact complete member

/-! ## After the options -/

theorem step_keeps (schema : Option Schema) (reading : Reading) (word : Token) :
    reading.arguments ⊆ (reading.step schema word).arguments ∧
      reading.path ⊆ (reading.step schema word).path ∧
      reading.options ⊆ (reading.step schema word).options := by
  have takes := step_takes schema reading word
  generalize reading.step schema word = next at takes
  cases takes <;> simp [takeOption, takeArgument]

theorem foldl_keeps (schema : Option Schema) (words : List Token) (reading : Reading) :
    reading.arguments ⊆ (words.foldl (step schema) reading).arguments ∧
      reading.path ⊆ (words.foldl (step schema) reading).path ∧
      reading.options ⊆ (words.foldl (step schema) reading).options := by
  induction words generalizing reading with
  | nil => simp
  | cons word words ih =>
    obtain ⟨arguments, path, options⟩ := step_keeps schema reading word
    obtain ⟨arguments', path', options'⟩ := ih (reading.step schema word)
    exact ⟨List.Subset.trans arguments arguments', List.Subset.trans path path', List.Subset.trans options options'⟩

/-- Where nothing is owed an operand is an argument or names a subcommand. -/
theorem step_operand (free : reading.owed = .nothing) (operand : reading.IsOperand word) :
    word ∈ (reading.step schema word).arguments ∨ word.text ∈ (reading.step schema word).path := by
  have takes := step_takes schema reading word
  generalize reading.step schema word = next at takes
  cases takes with
  | owed owed => exact absurd free owed
  | operator _ running operates => simp [(operand running).1] at operates
  | glued _ running _ glued => exact absurd (operand running).2.1 (Nat.ne_of_gt glued)
  | dashes _ running dashes => exact absurd dashes (operand running).2.2.1
  | option _ running _ _ _ dash long => exact absurd ((operand running).2.2.2 dash) (Nat.not_le.mpr long)
  | subcommand => exact .inr (by simp)
  | guessed => exact .inr (by simp)
  | argument => exact .inl (by simp [takeArgument])

theorem foldl_operand {before : List Token} (free : owedAfter schema before = .nothing)
    (operand : (before.foldl (step schema) {}).IsOperand word) (after : List Token) :
    word ∈ ((before ++ word :: after).foldl (step schema) {}).arguments ∨
      word.text ∈ ((before ++ word :: after).foldl (step schema) {}).path := by
  rw [List.foldl_append, List.foldl_cons]
  obtain ⟨arguments, path, _⟩ := foldl_keeps schema after ((before.foldl (step schema) {}).step schema word)
  exact (step_operand free operand).imp (arguments ·) (path ·)

theorem ofComplete_subset (schema : Option Schema) (cut : Cut) :
    (ofComplete schema cut).arguments ⊆ (ofCut schema cut).arguments := by
  rcases ofCut_takes schema cut with ⟨_, word, _, taken⟩ | ⟨_, owed, same⟩
  · rw [taken]; exact List.subset_append_left _ _
  · rw [same]; exact List.Subset.refl _

/-- Every word that stands where nothing is owed and as an operand is an argument or names a subcommand; the text
under the cursor can be nothing but an argument. -/
theorem ofCut_operand {cut : Cut} {before after : List Token} (split : cut.words = before ++ word :: after)
    (free : owedAfter schema before = .nothing) (operand : (before.foldl (step schema) {}).IsOperand word)
    (typed : word.text ≠ []) : word ∈ (ofCut schema cut).arguments ∨ word.text ∈ (ofCut schema cut).path := by
  have complete (rest : List Token) (all : cut.complete.drop 1 = before ++ word :: rest) :
      word ∈ (ofCut schema cut).arguments ∨ word.text ∈ (ofCut schema cut).path := by
    have read := foldl_operand free operand rest
    rw [← all, ← ofComplete, ← (ofCut_keeps schema cut).2.1] at read
    exact read.imp (ofComplete_subset schema cut ·) id
  have words : cut.complete.drop 1 ++ cut.current.toList = before ++ word :: after := split
  cases current : cut.current with
  | none => exact complete after (by simpa [current] using words)
  | some typing =>
    rw [current] at words
    rcases List.eq_nil_or_concat after with rfl | ⟨rest, final, rfl⟩
    · obtain ⟨same, last⟩ := List.append_inj' words rfl
      obtain rfl : typing = word := by simpa using last
      have records : (ofComplete schema cut).Records cut.text := by
        rw [Cut.text_of_current current, ofComplete, same]
        exact ⟨free, typed, fun running => ⟨(operand running).1, (operand running).2.1, (operand running).2.2.2⟩⟩
      rcases ofCut_takes schema cut with ⟨_, under, here, taken⟩ | ⟨other, _⟩
      · obtain rfl := Option.some.inj (current.symm.trans here)
        exact .inl (by simp [taken, takeArgument])
      · exact absurd records other
    · rw [List.concat_eq_append, ← List.cons_append, ← List.append_assoc] at words
      exact complete rest (List.append_inj' words rfl).1

theorem isOperand_of_ended {before : List Token} (ended : EndsOptions schema before) (word : Token) :
    (before.foldl (step schema) {}).IsOperand word := by
  intro running
  rw [(foldl_optionsEnded schema before).mpr ended] at running
  exact absurd running (by decide)

/-- A word that is owed leaves nothing owed itself, whatever it is. -/
theorem owedAfter_of_owed {before : List Token} (owed : owedAfter schema before ≠ .nothing) (word : Token) :
    owedAfter schema (before ++ [word]) = .nothing := by
  rw [owedAfter_concat, step, if_pos (show (before.foldl (step schema) {}).owed ≠ .nothing from owed)]

end Reading
end ShellCompletion
