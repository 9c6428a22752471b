import Mathlib.Data.List.Induction
import Mathlib.Tactic.SplitIfs
import ShellCompletion.Line.Parse

namespace ShellCompletion

namespace Redirect

theorem gluedLength_le (word : Bytes) : gluedLength word ≤ word.length := by
  have split : (word.takeWhile Bytes.isDigit).length + (word.dropWhile Bytes.isDigit).length = word.length := by
    rw [← List.length_append, List.takeWhile_append_dropWhile]
  unfold gluedLength
  dsimp only
  split
  · omega
  · split_ifs with flush
    · simp only [Bool.and_eq_true, decide_eq_true_eq] at flush
      omega
    · omega

end Redirect

theorem Cut.text_of_current {cut : Cut} {word : Token} (current : cut.current = some word) :
    cut.text = word.text := by
  simp [Cut.text, current]

namespace Reading

variable {schema : Option Schema} {reading : Reading} {word : Token}

/-- The word is none of those that are set aside before `--`: no redirection and no option. -/
def IsOperand (reading : Reading) (word : Token) : Prop :=
  reading.optionsEnded = false →
    Redirect.isOperator word.text = false ∧ Redirect.gluedLength word.text = 0 ∧ word.text ≠ utf8 "--" ∧
      (word.text.head? = some '-'.toUInt8 → word.text.length ≤ 1)

theorem IsOperand.ended (operand : reading.IsOperand word) (dashes : word.text = utf8 "--") :
    reading.optionsEnded = true := by
  cases ended : reading.optionsEnded with
  | true => rfl
  | false => exact absurd dashes (operand ended).2.2.1

/-- What a complete word is read as, and the reading after it. -/
inductive Takes (schema : Option Schema) (reading : Reading) (word : Token) : Reading → Prop
  | owed : reading.owed ≠ .nothing → Takes schema reading word { reading with owed := .nothing }
  | operator : reading.owed = .nothing → reading.optionsEnded = false →
      Redirect.isOperator word.text → Takes schema reading word { reading with owed := .target }
  | glued : reading.owed = .nothing → reading.optionsEnded = false →
      Redirect.isOperator word.text = false → 0 < Redirect.gluedLength word.text →
      Takes schema reading word reading
  | dashes : reading.owed = .nothing → reading.optionsEnded = false → word.text = utf8 "--" →
      Takes schema reading word { reading with optionsEnded := true }
  | option : reading.owed = .nothing → reading.optionsEnded = false →
      Redirect.isOperator word.text = false → Redirect.gluedLength word.text = 0 →
      word.text ≠ utf8 "--" → word.text.head? = some '-'.toUInt8 → 1 < word.text.length →
      Takes schema reading word (reading.takeOption schema word.text)
  | subcommand (known : Schema) (next : Subcommand) : reading.owed = .nothing → reading.IsOperand word →
      reading.subcommandsClosed = false → schema = some known →
      findSubcommand (reading.children known) word.text = some next →
      Takes schema reading word
        { reading with path := reading.path ++ [word.text], nodes := next :: reading.nodes }
  | guessed : reading.owed = .nothing → reading.IsOperand word → reading.subcommandsClosed = false →
      schema = none → reading.path.length < maxGuessedSubcommands → looksLikeSubcommand word.text →
      Takes schema reading word { reading with path := reading.path ++ [word.text] }
  | argument : reading.owed = .nothing → reading.IsOperand word →
      (∀ known, reading.subcommandsClosed = false → schema = some known →
        findSubcommand (reading.children known) word.text = none) →
      (reading.subcommandsClosed = false → schema = none → reading.path.length < maxGuessedSubcommands →
        looksLikeSubcommand word.text = false) →
      Takes schema reading word (reading.takeArgument word)

private theorem takeWord_takes (free : reading.owed = .nothing) (operand : reading.IsOperand word) :
    Takes schema reading word (reading.takeWord schema word) := by
  unfold takeWord
  by_cases closed : reading.subcommandsClosed = true
  · rw [if_pos closed]
    exact .argument free operand (by simp [closed]) (by simp [closed])
  · rw [if_neg closed]
    have open_ : reading.subcommandsClosed = false := by simpa using closed
    cases schema with
    | some known =>
      cases found : findSubcommand (reading.children known) word.text with
      | some next => simpa [found] using Takes.subcommand known next free operand open_ rfl found
      | none => simpa [found] using Takes.argument free operand (by simpa using fun _ => found) (by simp)
    | none =>
      dsimp only
      split_ifs with guess
      · simp only [Bool.and_eq_true, decide_eq_true_eq] at guess
        exact .guessed free operand open_ rfl guess.1 guess.2
      · exact .argument free operand (by simp) (fun _ _ room => by simpa [room] using guess)

/-- A step reads the word as one of the cases. -/
theorem step_takes (schema : Option Schema) (reading : Reading) (word : Token) :
    Takes schema reading word (reading.step schema word) := by
  unfold step
  split_ifs with owed ended operator glued dashes option
  · exact .owed owed
  · exact takeWord_takes (by simpa using owed) (by simp [IsOperand, ended])
  · exact .operator (by simpa using owed) (by simpa using ended) operator
  · exact .glued (by simpa using owed) (by simpa using ended) (by simpa using operator) glued
  · exact .dashes (by simpa using owed) (by simpa using ended) dashes
  · exact .option (by simpa using owed) (by simpa using ended) (by simpa using operator)
      (by simpa using glued) dashes option.1 option.2
  · refine takeWord_takes (by simpa using owed) fun _ =>
      ⟨by simpa using operator, by simpa using glued, dashes, ?_⟩
    intro dash
    simpa [dash] using option

/-- A text under the cursor that becomes an argument as far as it has been typed. -/
structure Records (reading : Reading) (text : Bytes) : Prop where
  free : reading.owed = .nothing
  typed : text ≠ []
  operand : reading.optionsEnded = false →
    Redirect.isOperator text = false ∧ Redirect.gluedLength text = 0 ∧
      (text.head? = some '-'.toUInt8 → text.length ≤ 1)

theorem stepCurrent_takes (reading : Reading) (word : Token) :
    reading.Records word.text ∧ reading.stepCurrent word = reading.takeArgument word ∨
      ¬ reading.Records word.text ∧ ∃ owed, reading.stepCurrent word = { reading with owed } := by
  unfold stepCurrent
  split_ifs with owed empty ended operator glued option
  · exact .inr ⟨fun records => owed records.free, .nothing, rfl⟩
  · exact .inr ⟨fun records => records.typed (by simpa using empty), reading.owed, rfl⟩
  · exact .inl ⟨⟨by simpa using owed, by simpa using empty, by simp [ended]⟩, rfl⟩
  · refine .inr ⟨fun records => ?_, .target, rfl⟩
    simp [(records.operand (by simpa using ended)).1] at operator
  · refine .inr ⟨fun records => ?_, reading.owed, rfl⟩
    simp [(records.operand (by simpa using ended)).2.1] at glued
  · refine .inr ⟨fun records => ?_, reading.owed, rfl⟩
    have := (records.operand (by simpa using ended)).2.2 option.1
    omega
  · refine .inl ⟨⟨by simpa using owed, by simpa using empty, fun _ => ?_⟩, rfl⟩
    exact ⟨by simpa using operator, by simpa using glued, fun dash => by simpa [dash] using option⟩

/-- What the complete words after the command are read as. -/
def ofComplete (schema : Option Schema) (cut : Cut) : Reading := (cut.complete.drop 1).foldl (step schema) {}

theorem ofCut_takes (schema : Option Schema) (cut : Cut) :
    ((ofComplete schema cut).Records cut.text ∧
        ∃ word, cut.current = some word ∧ ofCut schema cut = (ofComplete schema cut).takeArgument word) ∨
      ¬ (ofComplete schema cut).Records cut.text ∧
        ∃ owed, ofCut schema cut = { ofComplete schema cut with owed } := by
  cases current : cut.current with
  | none =>
    refine .inr ⟨fun records => records.typed (by simp [Cut.text, current]), (ofComplete schema cut).owed, ?_⟩
    simp [ofCut, current, ofComplete]
  | some word =>
    have same : ofCut schema cut = (ofComplete schema cut).stepCurrent word := by
      simp [ofCut, current, ofComplete]
    rw [same, Cut.text_of_current current]
    rcases stepCurrent_takes (ofComplete schema cut) word with ⟨records, taken⟩ | other
    · exact .inl ⟨records, word, rfl, taken⟩
    · exact .inr other

/-- The word under the cursor changes only the arguments and what is owed. -/
theorem ofCut_keeps (schema : Option Schema) (cut : Cut) :
    (ofCut schema cut).optionsEnded = (ofComplete schema cut).optionsEnded ∧
      (ofCut schema cut).path = (ofComplete schema cut).path ∧
      (ofCut schema cut).nodes = (ofComplete schema cut).nodes := by
  rcases ofCut_takes schema cut with ⟨_, word, _, taken⟩ | ⟨_, owed, same⟩
  · rw [taken]; exact ⟨rfl, rfl, rfl⟩
  · rw [same]; exact ⟨rfl, rfl, rfl⟩

theorem ofCut_options (schema : Option Schema) (cut : Cut) :
    (ofCut schema cut).options = (ofComplete schema cut).options := by
  rcases ofCut_takes schema cut with ⟨_, word, _, taken⟩ | ⟨_, owed, same⟩
  · rw [taken]; rfl
  · rw [same]

theorem ofCut_arguments (schema : Option Schema) (cut : Cut) :
    ∃ typing, (ofCut schema cut).arguments = (ofComplete schema cut).arguments ++ typing ∧
      ∀ word ∈ typing, cut.current = some word := by
  rcases ofCut_takes schema cut with ⟨_, word, under, taken⟩ | ⟨_, owed, same⟩
  · exact ⟨[word], by rw [taken]; rfl, by simpa using under⟩
  · exact ⟨[], by rw [same, List.append_nil], by simp⟩

theorem step_arguments (schema : Option Schema) (reading : Reading) (word : Token) :
    (reading.step schema word).arguments = reading.arguments ∨
      (reading.step schema word).arguments = reading.arguments ++ [word] := by
  have takes := step_takes schema reading word
  generalize reading.step schema word = next at takes
  cases takes with
  | argument => exact .inr rfl
  | _ => exact .inl rfl

theorem foldl_arguments (schema : Option Schema) (words : List Token) (reading : Reading) :
    ∃ taken, taken.Sublist words ∧
      (words.foldl (step schema) reading).arguments = reading.arguments ++ taken := by
  induction words generalizing reading with
  | nil => exact ⟨[], .slnil, by simp⟩
  | cons word words ih =>
    obtain ⟨taken, sublist, arguments⟩ := ih (reading.step schema word)
    rcases step_arguments schema reading word with same | more
    · exact ⟨taken, sublist.cons word, by rw [List.foldl_cons, arguments, same]⟩
    · exact ⟨word :: taken, sublist.cons_cons word, by rw [List.foldl_cons, arguments, more]; simp⟩

theorem step_closed (schema : Option Schema) (word : Token) (closed : reading.subcommandsClosed = true) :
    (reading.step schema word).subcommandsClosed = true ∧ (reading.step schema word).path = reading.path ∧
      (reading.step schema word).nodes = reading.nodes := by
  have takes := step_takes schema reading word
  generalize reading.step schema word = next at takes
  cases takes <;> simp_all [takeOption, takeArgument]

/-- Once closed, the subcommands stay as they are. -/
theorem foldl_closed (schema : Option Schema) (words : List Token) (closed : reading.subcommandsClosed = true) :
    (words.foldl (step schema) reading).path = reading.path ∧
      (words.foldl (step schema) reading).nodes = reading.nodes := by
  induction words generalizing reading with
  | nil => exact ⟨rfl, rfl⟩
  | cons word words ih =>
    obtain ⟨still, path, nodes⟩ := step_closed schema word closed
    rw [List.foldl_cons, ← path, ← nodes]
    exact ih still

/-- Two dashes among the words end the options: no option and no redirection before them takes them. -/
def EndsOptions (schema : Option Schema) (words : List Token) : Prop :=
  ∃ before word after, words = before ++ word :: after ∧ word.text = utf8 "--" ∧
    (before.foldl (step schema) {}).owed = .nothing

theorem EndsOptions.append {words : List Token} (ended : EndsOptions schema words) (more : List Token) :
    EndsOptions schema (words ++ more) := by
  obtain ⟨before, dashes, after, rfl, text, free⟩ := ended
  exact ⟨before, dashes, after ++ more, by simp, text, free⟩

theorem step_optionsEnded (schema : Option Schema) (reading : Reading) (word : Token) :
    (reading.step schema word).optionsEnded = true ↔
      reading.optionsEnded = true ∨ reading.owed = .nothing ∧ word.text = utf8 "--" := by
  have operator : Redirect.isOperator (utf8 "--") = false := by decide
  have glued : Redirect.gluedLength (utf8 "--") = 0 := by decide
  have takes := step_takes schema reading word
  generalize reading.step schema word = next at takes
  cases takes with
  | owed owed => simp [owed]
  | operator free running operator' => simp [free, running]; intro dashes; simp [dashes, operator] at operator'
  | glued free running _ glued' => simp [free, running]; intro dashes; simp [dashes, glued] at glued'
  | dashes free running dashes => simp [free, dashes]
  | option free running _ _ other => simp [takeOption, free, running, other]
  | subcommand _ _ free operand => simpa [free] using operand.ended
  | guessed free operand => simpa [free] using operand.ended
  | argument free operand => simpa [takeArgument, free] using operand.ended

theorem foldl_optionsEnded (schema : Option Schema) (words : List Token) :
    (words.foldl (step schema) {}).optionsEnded = true ↔ EndsOptions schema words := by
  induction words using List.reverseRecOn with
  | nil => simp [EndsOptions]
  | append_singleton words word ih =>
    rw [List.foldl_append, List.foldl_cons, List.foldl_nil, step_optionsEnded, ih]
    constructor
    · rintro (ended | ⟨free, text⟩)
      · exact ended.append [word]
      · exact ⟨words, word, [], rfl, text, free⟩
    · rintro ⟨before, dashes, after, split, text, free⟩
      rcases List.eq_nil_or_concat after with rfl | ⟨after', final, rfl⟩
      · obtain ⟨rfl, same⟩ := List.append_inj' split rfl
        obtain rfl : word = dashes := by simpa using same
        exact .inr ⟨free, text⟩
      · have split' : words ++ [word] = (before ++ dashes :: after') ++ [final] := by simpa using split
        exact .inl ⟨before, dashes, after', (List.append_inj' split' rfl).1, text, free⟩

theorem ofCut_optionsEnded (schema : Option Schema) (cut : Cut) :
    (ofCut schema cut).optionsEnded = true ↔ EndsOptions schema (cut.complete.drop 1) := by
  rw [(ofCut_keeps schema cut).1, ofComplete, foldl_optionsEnded]

end Reading
end ShellCompletion
