import ShellCompletion.Proofs.Acceptance.Names
import ShellCompletion.Proofs.Ranking.FirstTexts
import ShellCompletion.Suggestion

namespace ShellCompletion

/-- The categories of the values that schemas, files and the environment give. -/
def Category.IsValue (category : Category) : Prop :=
  category = .argument ∨ category = .executable ∨ category = .directory ∨ category = .file

theorem EntryKind.category_isValue (kind : EntryKind) : kind.category.IsValue := by
  cases kind <;> simp [EntryKind.category, Category.IsValue]

variable {context : PathContext} {filter : PathFilter} {current token : Bytes} {listings : Listings}
  {candidate : Candidate}

theorem pathCandidates_category (member : candidate ∈ (pathCandidates context filter current token listings).1) :
    candidate.category.IsValue := by
  obtain ⟨_, _, entry, _, _, _, rfl⟩ := mem_pathCandidates.mp member
  exact entry.kind.category_isValue

theorem executablesIn_subset (settings : Settings) (env : Environment) (typed : Bytes)
    (found : List (Bytes × List Entry)) :
    executablesIn settings env typed found ⊆ found.flatMap fun (directory, entries) =>
      (entries.filter fun entry => entry.kind == .executable && settings.accepts entry.name typed).map fun entry =>
        Candidate.of .executable entry.name (some (env.contractHome directory)) :=
  Handler.distinctTexts_subset _

theorem executablesIn_category {settings : Settings} {env : Environment} {typed : Bytes}
    {found : List (Bytes × List Entry)} (member : candidate ∈ executablesIn settings env typed found) :
    candidate.category.IsValue := by
  obtain ⟨⟨directory, entries⟩, _, here⟩ := List.mem_flatMap.mp (executablesIn_subset _ _ _ _ member)
  obtain ⟨entry, _, rfl⟩ := List.mem_map.mp here
  exact .inr (.inl rfl)

namespace Suggestion

theorem programCandidates_category (member : candidate ∈ (programCandidates context current token listings).1) :
    candidate.category.IsValue := by
  unfold programCandidates at member
  split_ifs at member
  · exact pathCandidates_category member
  · exact executablesIn_category member

theorem valueCandidates_category {filesWhenUntyped : Bool} {type : Option ValueType}
    (member : candidate ∈ (valueCandidates context filesWhenUntyped current token type listings).1) :
    candidate.category.IsValue := by
  unfold valueCandidates at member
  split at member
  · split_ifs at member
    · exact pathCandidates_category member
    · exact nomatch member
  · exact pathCandidates_category member
  · exact pathCandidates_category member
  · obtain ⟨word, _, rfl⟩ := List.mem_map.mp member
    exact .inl rfl
  · exact programCandidates_category member
  · exact programCandidates_category member
  · obtain ⟨name, _, rfl⟩ := List.mem_map.mp member
    exact .inl rfl
  all_goals exact nomatch member

/-- Options are offered under one of their forms, as short or long ones, unless that form has been given. -/
theorem mem_ofOptions {settings : Settings} {parsed : ParsedLine} {options : List OptionSpec}
    (member : candidate ∈ ofOptions settings parsed options) :
    ∃ option ∈ options, option.hasForm candidate.text ∧ candidate.text ∉ parsed.options ∧
      (candidate.category = .shortOption ∨ candidate.category = .longOption) := by
  have form : ∀ option category form, candidate ∈ (formCandidate? settings parsed option category form) →
      candidate.text = form ∧ form ∉ parsed.options ∧ candidate.category = category := by
    intro option category form found
    unfold formCandidate? at found
    split_ifs at found with fits
    · obtain rfl := Option.some.inj found
      exact ⟨rfl, by simpa using (Bool.and_eq_true_iff.mp fits).2, rfl⟩
    · exact nomatch found
  obtain ⟨option, listed, here⟩ := List.mem_flatMap.mp member
  refine ⟨option, (List.mem_filter.mp listed).1, ?_⟩
  rcases List.mem_append.mp here with short | long
  · obtain ⟨spelling, is, found⟩ := Option.bind_eq_some_iff.mp (Option.mem_toList.mp short)
    obtain ⟨text, fresh, category⟩ := form option .shortOption spelling found
    exact ⟨by simp [OptionSpec.hasForm, is, text], text ▸ fresh, .inl category⟩
  · obtain ⟨spelling, is, found⟩ := Option.bind_eq_some_iff.mp (Option.mem_toList.mp long)
    obtain ⟨text, fresh, category⟩ := form option .longOption spelling found
    exact ⟨by simp [OptionSpec.hasForm, is, text], text ▸ fresh, .inr category⟩

theorem subcommand_of_category {known : Schema} {parsed : ParsedLine} (category : candidate.category = .subcommand)
    (member : candidate ∈ (subcommandCandidates context (some known) current parsed listings).1) :
    ∃ child ∈ known.childrenAt (known.resolve parsed.subcommandPath),
      candidate = .of .subcommand child.name child.description := by
  unfold subcommandCandidates at member
  dsimp only at member
  split at member
  · obtain ⟨child, listed, rfl⟩ := List.mem_map.mp member
    exact ⟨child, (List.mem_filter.mp listed).1, rfl⟩
  · exfalso
    rcases List.mem_append.mp member with value | option
    · have := valueCandidates_category value
      simp [category, Category.IsValue] at this
    · obtain ⟨_, _, _, _, other⟩ := mem_ofOptions option
      simp [category] at other

theorem commandNames_category {settings : Settings} {database : Option Database}
    (member : candidate ∈ commandNames settings database token) : candidate.category = .command := by
  unfold commandNames at member
  rcases List.mem_append.mp member with described | common
  · cases database with
    | none => exact nomatch described
    | some database =>
      obtain ⟨name, _, rfl⟩ := List.mem_map.mp described
      rfl
  · obtain ⟨name, _, rfl⟩ := List.mem_map.mp common
    rfl

/-- Whatever is typed, an option is offered only under a form that has not been given. -/
theorem fresh_of_category {database : Option Database} {parsed : ParsedLine}
    (category : candidate.category = .shortOption ∨ candidate.category = .longOption)
    (member : candidate ∈ (candidates context database current parsed listings).1) :
    candidate.text ∉ parsed.options := by
  have noValue : ¬ candidate.category.IsValue := by
    rcases category with short | long <;> simp [Category.IsValue, *]
  have options {options : List OptionSpec} (option : candidate ∈ ofOptions context.settings parsed options) :
      candidate.text ∉ parsed.options := by
    obtain ⟨_, _, _, fresh, _⟩ := mem_ofOptions option
    exact fresh
  unfold candidates at member
  generalize database.bind (·.find? parsed.command) = schema at member
  cases kind : parsed.context with
  | command =>
    rw [kind] at member
    rcases List.mem_append.mp member with named | program
    · split_ifs at named
      · exact nomatch named
      · have := commandNames_category named
        simp [this] at category
    · exact absurd (programCandidates_category program) noValue
  | subcommand =>
    rw [kind] at member
    cases schema with
    | none => exact absurd (valueCandidates_category member) noValue
    | some known =>
      dsimp only [subcommandCandidates] at member
      split at member
      · obtain ⟨child, _, rfl⟩ := List.mem_map.mp member
        simp [Candidate.of] at category
      · rcases List.mem_append.mp member with value | option
        · exact absurd (valueCandidates_category value) noValue
        · exact options option
  | shortOption | longOption =>
    rw [kind] at member
    cases schema with
    | none => exact nomatch member
    | some known =>
      rcases List.mem_append.mp member with own | global
      · exact options own
      · exact options global
  | optionValue | argument =>
    rw [kind] at member
    exact absurd (valueCandidates_category member) noValue

end Suggestion

end ShellCompletion
