import Mathlib.Data.List.Infix
import ShellCompletion.Proofs.Acceptance.Subcommands
import ShellCompletion.Proofs.Schema.WellFormed

/-!
# Options that are accepted

The suggestions take options from the subcommand that a line has reached and from the command; the reading of the line
looks an option up among those of every subcommand on the way. The subcommands that the reading keeps are those along
the path (`Reading.ofComplete_scope`), so an option that is suggested is in scope (`Schema.mem_scopeAt`), and its form
is never taken for several flags (`Scope.forms_of_find`). The check has made this form a word of its own. Hence the
line that accepts it has one more option, and asks for its value if it takes one (`option_accepted`).
-/
namespace ShellCompletion

/-! ## Forms of checked options -/

/-- A form of a well-formed option is written as an option, and can be typed as a word. -/
theorem OptionSpec.WellFormed.form {option : OptionSpec} (wellFormed : option.WellFormed) {form : Bytes}
    (has : option.hasForm form) : isOptionWord form ∧ isValidName form := by
  rw [OptionSpec.hasForm, Bool.or_eq_true, beq_iff_eq, beq_iff_eq] at has
  rw [isOptionWord_iff, isValidName_iff]
  rcases has with short | long
  · obtain ⟨second, rest, rfl, other, words⟩ := wellFormed.short form short
    refine ⟨⟨rfl, by simp, ?_⟩, List.cons_ne_nil _ _, words⟩
    intro dashes
    exact other (List.cons.inj (List.cons.inj dashes).2).1
  · obtain ⟨third, rest, rfl, words⟩ := wellFormed.long form long
    refine ⟨⟨rfl, by simp, ?_⟩, List.cons_ne_nil _ _, words⟩
    intro dashes
    exact List.cons_ne_nil _ _ (List.cons.inj (List.cons.inj dashes).2).2

theorem Schema.Leads.wellFormed {schema : Schema} {path : List Bytes} {node : Subcommand}
    (leads : schema.Leads path (some node)) (passes : schema.check = .ok ()) : node.WellFormed := by
  cases leads with
  | down above found =>
    obtain ⟨owner, siblings⟩ := above.checked passes
    have member := List.mem_of_find?_eq_some found
    refine (checkSubcommands_iff_wellFormed owner _).mp siblings node (mem_families.mpr ⟨node, member, ?_⟩)
    rw [Subcommand.family_eq]
    exact List.mem_cons_self

/-! ## The scope along a path -/

namespace Schema

/-- The subcommands that the words of a path lead to, the innermost first. -/
def nodesAlong (schema : Schema) (path : List Bytes) : List Subcommand := (path.inits.filterMap schema.resolve).reverse

/-- The options in scope at the end of a path: those of the subcommands along it, the innermost first, and then those
    of the command. -/
def scopeAt (schema : Schema) (path : List Bytes) : Scope := .at? (some schema) (schema.nodesAlong path)

theorem nodesAlong_concat {schema : Schema} {path : List Bytes} {word : Bytes} {node : Subcommand}
    (leads : schema.Leads (path ++ [word]) (some node)) :
    schema.nodesAlong (path ++ [word]) = node :: schema.nodesAlong path := by
  simp [nodesAlong, List.inits_append, leads.resolve_eq]

/-- The options that are suggested: those of the subcommand at the end of the path, and those of the command. -/
def optionsAt (schema : Schema) (path : List Bytes) : List OptionSpec :=
  (((schema.resolve path).map Subcommand.options).getD []) ++ schema.globalOptions

theorem optionsAt_wellFormed {schema : Schema} {path : List Bytes} (leads : schema.Leads path (schema.resolve path))
    (passes : schema.check = .ok ()) : ∀ option ∈ schema.optionsAt path, option.WellFormed := by
  intro option member
  rcases List.mem_append.mp member with own | global
  · cases reached : schema.resolve path with
    | none => simp [reached] at own
    | some node =>
      rw [reached] at own leads
      exact (leads.wellFormed passes).options option own
  · have wellFormed := (Schema.check_iff_wellFormed schema).mp passes
    exact wellFormed.options option (List.mem_append_left _ global)

theorem mem_scopeAt {schema : Schema} {path : List Bytes} (leads : schema.Leads path (schema.resolve path))
    {option : OptionSpec} (member : option ∈ schema.optionsAt path) : option ∈ (schema.scopeAt path).options := by
  rcases List.mem_append.mp member with own | global
  · refine List.mem_append_left _ (List.mem_flatMap.mpr ?_)
    cases reached : schema.resolve path with
    | none => simp [reached] at own
    | some node =>
      rw [reached] at own leads
      cases leads with
      | down above found =>
        rw [nodesAlong_concat (.down above found)]
        exact ⟨node, List.mem_cons_self, own⟩
  · exact List.mem_append_right _ global

end Schema

namespace Reading

variable {known : Schema} {reading : Reading}

/-- The subcommands of the reading are those along its path. -/
def Follows (known : Schema) (reading : Reading) : Prop :=
  reading.Arrives known ∧ reading.nodes = known.nodesAlong reading.path

theorem step_follows (follows : reading.Follows known) (word : Token) :
    (reading.step (some known) word).Follows known := by
  refine ⟨step_arrives follows.1 word, ?_⟩
  have arrives := step_arrives follows.1 word
  have takes := step_takes (some known) reading word
  generalize reading.step (some known) word = next at takes arrives ⊢
  cases takes with
  | subcommand => rw [Schema.nodesAlong_concat arrives, follows.2]
  | guessed _ _ _ none_ => cases none_
  | owed | operator | glued | dashes | option | argument => exact follows.2

theorem foldl_follows (follows : reading.Follows known) (words : List Token) :
    (words.foldl (step (some known)) reading).Follows known := by
  induction words generalizing reading with
  | nil => exact follows
  | cons word words ih => exact ih (step_follows follows word)

theorem ofComplete_scope (known : Schema) (cut : Cut) :
    (ofComplete (some known) cut).scope (some known) = known.scopeAt (ofComplete (some known) cut).path := by
  have start : ({} : Reading).Follows known := ⟨.root, rfl⟩
  rw [scope, ofComplete, (foldl_follows start (cut.complete.drop 1)).2]
  rfl

end Reading

namespace Scope

variable {scope : Scope} {form : Bytes} {option : OptionSpec}

/-- A declared form is never taken for several flags: the word gives that one, and no other decides on its value. -/
theorem forms_of_find (found : scope.find? form = some option) :
    scope.flags form = [form] ∧ scope.valueType form = option.valueType := by
  have whole : scope.splits form = false := by simp [splits, found]
  simp [flags, valueType, valueForm, whole, found]

theorem exists_find (member : option ∈ scope.options) (has : option.hasForm form) :
    ∃ first, scope.find? form = some first :=
  Option.isSome_iff_exists.mp (List.find?_isSome.mpr ⟨option, member, has⟩)

end Scope

/-! ## Accepting an option -/

variable {database : Database} {line : Bytes} {cursor : Nat} {known : Schema}

theorem Classifies.dashed {schema : Option Schema} {cut : Cut} {reading : Reading} {context : Context}
    (classifies : Classifies schema cut reading context) (option : context = .shortOption ∨ context = .longOption) :
    reading.optionsEnded = false ∧ cut.text.head? = some '-'.toUInt8 := by
  cases classifies with
  | long running dash | short running dash => exact ⟨running, dash⟩
  | _ => simp at option

/-- An option that is completed behind the words of a line is taken with them, and is followed by its value exactly if
    it takes one. -/
theorem parse_behind_option {database : Option Database} {schema : Option Schema} {cut : Cut} {word : Token}
    (words : cut.complete ≠ []) (complete : (Cut.of line cursor).complete = cut.complete ++ [word])
    (current : (Cut.of line cursor).current = none) (described : (Cut.of line cursor).schema? database = schema)
    (looks : (Reading.ofComplete schema cut).Looks) (written : isOptionWord word.text) :
    let before := Reading.ofComplete schema cut
    let scope := before.scope schema
    let parsed := parse database line cursor
    parsed.subcommandPath = before.path ∧ parsed.options = before.options ++ scope.flags word.text ∧
      parsed.arguments = before.arguments ∧ ∀ name type, parsed.context = .optionValue name type ↔
        scope.takesValue word.text ∧ name = word.text ∧ type = scope.valueType word.text := by
  intro before scope parsed
  have words' : (Cut.of line cursor).complete ≠ [] := by simp [complete]
  have previous : (Cut.of line cursor).previous? = some word := by
    obtain ⟨first, more, split⟩ := List.exists_cons_of_ne_nil words
    simp [Cut.previous?, complete, split]
  have read : Reading.ofCut schema (Cut.of line cursor) = before.takeOption schema word.text := by
    rw [Reading.ofCut_completed schema words complete current, Reading.step_option schema looks written]
  have fields := parse_of_words database words'
  dsimp only at fields
  rw [described, read] at fields
  refine ⟨by rw [show parsed = _ from fields]; rfl, by rw [show parsed = _ from fields]; rfl,
    by rw [show parsed = _ from fields]; rfl, fun name type => ?_⟩
  have value := @parse_optionValue_iff database line cursor words' name type
  dsimp only at value
  rw [described, read] at value
  refine value.trans ⟨?_, ?_⟩
  · rintro ⟨_, option, awaits, rfl, rfl⟩
    obtain rfl : word = option := Option.some.inj (previous.symm.trans awaits.previous)
    exact ⟨awaits.takes, rfl, rfl⟩
  · rintro ⟨takes, rfl, rfl⟩
    have empty : (Cut.of line cursor).text = [] := by simp [Cut.text, current]
    have unglued := (Cut.of line cursor).glued_le (before.takeOption schema word.text)
    rw [empty, List.length_nil, Nat.le_zero] at unglued
    exact ⟨⟨unglued, fun _ => by simp [empty]⟩, word, ⟨previous, looks.2, written, takes⟩, rfl, rfl⟩

/-- A declared form that is typed out where an option is, and nothing is owed, is one more option. It is followed by
    its value exactly if it takes one, and this is of the kind that the innermost option of that form has. -/
theorem parse_given (schema : (Cut.of line cursor).schema? (some database) = some known)
    (context : (parse (some database) line cursor).context = .shortOption ∨
      (parse (some database) line cursor).context = .longOption)
    (free : Reading.owedAfter (some known) ((Cut.of line cursor).complete.drop 1) = .nothing) {text : Bytes}
    {option : OptionSpec}
    (found : (known.scopeAt (parse (some database) line cursor).subcommandPath).find? text = some option)
    (written : isOptionWord text) (literal : text.IsLiteral) :
    let parsed := parse (some database) line cursor
    let scope := known.scopeAt parsed.subcommandPath
    let new := line.take parsed.replaceStart ++ text ++ [' '.toUInt8]
    let again := parse (some database) new new.length
    again.command = parsed.command ∧ again.subcommandPath = parsed.subcommandPath ∧
      again.options = parsed.options ++ [text] ∧ again.arguments = argumentsBefore line parsed ∧
      ∀ name type, again.context = .optionValue name type ↔
        scope.takesValue text ∧ name = text ∧ type = option.valueType := by
  intro parsed scope new again
  obtain ⟨words, classifies, _⟩ := parse_known schema rfl (by rcases context with is | is <;> rw [is] <;> nofun)
  obtain ⟨running, dash⟩ := classifies.dashed context
  have ended := (Reading.ofCut_keeps (some known) (Cut.of line cursor)).1
  have looks : (Reading.ofComplete (some known) (Cut.of line cursor)).Looks := ⟨free, ended ▸ running⟩
  have advance : (Cut.of line cursor).advance (some database) = 0 := by
    rw [Cut.advance, if_neg words, schema, Cut.glued, if_neg (by simp [running]), (Redirect.of_dash dash).2]
  have typed : text ≠ [] := by
    rintro rfl
    simp [isOptionWord] at written
  obtain ⟨complete, current, command⟩ := Cut.of_completed (some database) words advance literal typed
  have described : (Cut.of new new.length).schema? (some database) = some known := by
    rw [← schema, Cut.schema?, show (Cut.of new new.length).command = _ from command]
    rfl
  obtain ⟨path, options, arguments, value⟩ := parse_behind_option words complete current described looks written
  -- The words before the option are those of the line, so their scope is that at the end of its path.
  obtain ⟨pathBefore, optionsBefore⟩ := parse_path_options (some database) words
  have argumentsBefore := argumentsBefore_eq (some database) words
  rw [schema] at pathBefore optionsBefore argumentsBefore
  rw [Reading.ofComplete_scope, ← pathBefore] at options value
  obtain ⟨flags, valueType⟩ := Scope.forms_of_find found
  rw [flags, ← optionsBefore] at options
  rw [valueType] at value
  refine ⟨?_, path.trans pathBefore.symm, options, arguments.trans argumentsBefore.symm, value⟩
  rw [show again.command = _ from parse_command _ _ _, show parsed.command = _ from parse_command _ _ _]
  exact command

/-- What has been given stays given, whatever is typed behind it. -/
theorem options_subset_of_fresh (database : Option Database) (fresh : line.IsFresh)
    (words : (Cut.of line line.length).complete ≠ []) (rest : Bytes) (past : line.length ≤ cursor) :
    (parse database line line.length).options ⊆ (parse database (line ++ rest) cursor).options := by
  obtain ⟨more, complete⟩ := Cut.complete_prefix fresh rest past
  obtain ⟨first, after, split⟩ := List.exists_cons_of_ne_nil words
  have split' : (Cut.of (line ++ rest) cursor).complete = first :: (after ++ more) := by rw [← complete, split]; rfl
  have schema : (Cut.of (line ++ rest) cursor).schema? database = (Cut.of line line.length).schema? database := by
    rw [Cut.schema?, Cut.command_eq split', ← Cut.command_eq split]
    rfl
  rw [(parse_path_options database words).2, (parse_path_options database (by simp [split'])).2, schema,
    Reading.ofComplete, Reading.ofComplete, split, split', List.drop_one, List.tail_cons, List.drop_one,
    List.tail_cons, List.foldl_append]
  exact (Reading.foldl_keeps _ more _).2.2

theorem Suggestion.mem_optionCandidates {settings : Settings} {parsed : ParsedLine} {candidate : Candidate}
    (member : candidate ∈ optionCandidates settings (some known) parsed) :
    ∃ option ∈ known.optionsAt parsed.subcommandPath, option.hasForm candidate.text := by
  rcases List.mem_append.mp member with own | global
  · obtain ⟨option, listed, has, _⟩ := mem_ofOptions own
    exact ⟨option, List.mem_append_left _ listed, has⟩
  · obtain ⟨option, listed, has, _⟩ := mem_ofOptions global
    exact ⟨option, List.mem_append_right _ listed, has⟩

/-- A suggested option that is accepted with a blank after it is recorded, typed and spent. It is recorded as it is
    written, behind the options given before, and the path and the arguments before the cursor stay. What follows it is
    its value exactly if it takes one, of the kind that the innermost option in scope of that form has. Whatever is
    typed behind it, the option is not suggested again. -/
theorem option_accepted {library : JsonLibrary}
    (accepted : ∀ schema ∈ database.schemas, ∃ text, Schema.ofText library text = .ok schema)
    (described : database.find? (parse (some database) line line.length).command = some known)
    (context : (parse (some database) line line.length).context = .shortOption ∨
      (parse (some database) line line.length).context = .longOption)
    (free : Reading.owedAfter (some known) ((Cut.of line line.length).complete.drop 1) = .nothing)
    (places : PathContext) (current : Bytes) (listings : Listings) :
    let parsed := parse (some database) line line.length
    let scope := known.scopeAt parsed.subcommandPath
    ∀ candidate ∈ (Suggestion.candidates places (some database) current parsed listings).1,
      (∀ byte ∈ candidate.text, byte ≠ '\\'.toUInt8 ∧ byte ≠ '"'.toUInt8 ∧ byte ≠ '\''.toUInt8) →
      let new := line.take parsed.replaceStart ++ candidate.text ++ [' '.toUInt8]
      let again := parse (some database) new new.length
      again.command = parsed.command ∧ again.subcommandPath = parsed.subcommandPath ∧
        again.options = parsed.options ++ [candidate.text] ∧ again.arguments = argumentsBefore line parsed ∧
        (∃ option, scope.find? candidate.text = some option ∧ ∀ name type, again.context = .optionValue name type ↔
          scope.takesValue candidate.text ∧ name = candidate.text ∧ type = option.valueType) ∧
        ∀ rest cursor places current listings, new.length ≤ cursor →
          ∀ other ∈ (Suggestion.candidates places (some database) current
            (parse (some database) (new ++ rest) cursor) listings).1,
          other.category = .shortOption ∨ other.category = .longOption → other.text ≠ candidate.text := by
  intro parsed scope candidate member unquoted new again
  have schema : (Cut.of line line.length).schema? (some database) = some known := by
    rwa [parse_command] at described
  have leads : known.Leads parsed.subcommandPath (known.resolve parsed.subcommandPath) := parse_leads schema
  have passes : known.check = .ok () := by
    obtain ⟨text, read⟩ := accepted known (List.mem_of_find?_eq_some described)
    exact Schema.check_of_ofText read
  have route : Suggestion.candidates places (some database) current parsed =
      pure (Suggestion.optionCandidates places.settings (some known) parsed) := by
    have known' : database.find? parsed.command = some known := described
    rcases context with is | is <;>
      simp only [Suggestion.candidates, show parsed.context = _ from is, Option.bind_some, known']
  rw [route] at member
  obtain ⟨option, listed, has⟩ := Suggestion.mem_optionCandidates member
  obtain ⟨written, valid⟩ := (Schema.optionsAt_wellFormed leads passes option listed).form has
  obtain ⟨first, found⟩ := Scope.exists_find (Schema.mem_scopeAt leads listed) has
  obtain ⟨literal, _⟩ := Bytes.isLiteral_of_isValidName valid unquoted
  obtain ⟨command, path, options, arguments, value⟩ := parse_given schema context free found written literal
  refine ⟨command, path, options, arguments, ⟨first, found, value⟩, ?_⟩
  intro rest cursor places current listings past other again' category same
  have fresh : Bytes.IsFresh new := by
    refine .inr ⟨line.take parsed.replaceStart ++ candidate.text, ' '.toUInt8, rfl, ?_, by decide⟩
    rw [Quoting.after_append, after_take_replaceStart, Quoting.after_literal literal]
  have words : (Cut.of new new.length).complete ≠ [] := by
    intro none_
    rw [parse_of_first (some database) none_] at options
    simp at options
  have given : candidate.text ∈ again.options := by
    rw [show again.options = _ from options]
    exact List.mem_append_right _ List.mem_cons_self
  exact Suggestion.fresh_of_category category again'
    (same ▸ options_subset_of_fresh (some database) fresh words rest past given)

set_option maxRecDepth 2000 in
/-- A form of several letters, which the subcommand declares with another kind of value than the command. -/
theorem option_accepted_innermost :
    let document := utf8 ("\x7b\"command\":\"vc\"," ++
      "\"global_options\":[\x7b\"short\":\"-ab\",\"value_type\":\"Number\"\x7d]," ++
      "\"subcommands\":[\x7b\"name\":\"add\",\"options\":[\x7b\"short\":\"-ab\",\"value_type\":\"Url\"\x7d]\x7d]\x7d")
    let outer : OptionSpec := ⟨some (utf8 "-ab"), none, none, true, some .number⟩
    let inner : OptionSpec := ⟨some (utf8 "-ab"), none, none, true, some .url⟩
    let known : Schema := ⟨utf8 "vc", none, [outer], [⟨utf8 "add", none, [], [inner], [], []⟩], []⟩
    let database : Database := ⟨[known], by decide⟩
    let parsed := parse (some database) (utf8 "vc add x -a") 11
    let new := (utf8 "vc add x -a").take parsed.replaceStart ++ utf8 "-ab" ++ [' '.toUInt8]
    let again := parse (some database) new new.length
    Schema.ofText Json.library document = .ok known ∧ parsed.context = .shortOption ∧ new = utf8 "vc add x -ab " ∧
      again.subcommandPath = [utf8 "add"] ∧ again.options = [utf8 "-ab"] ∧ again.arguments = [⟨utf8 "x", 7, 8⟩] ∧
      again.context = .optionValue (utf8 "-ab") (some .url) := by
  intro document outer inner known database parsed new again
  let places : PathContext := ⟨{}, { entries := [] }, ⟨fun _ => .ok [], id⟩, 0⟩
  have read : Schema.ofText Json.library document = .ok known := by rfl
  have accepted : ∀ schema ∈ database.schemas, ∃ text, Schema.ofText Json.library text = .ok schema := by
    intro schema member
    obtain rfl : schema = known := List.mem_singleton.mp member
    exact ⟨document, read⟩
  have described : database.find? parsed.command = some known := by rfl
  have context : parsed.context = .shortOption := by decide +kernel
  have free : Reading.owedAfter (some known) ((Cut.of (utf8 "vc add x -a") 11).complete.drop 1) = .nothing := by
    decide +kernel
  have offered : Candidate.of .shortOption (utf8 "-ab") ∈
      (Suggestion.candidates places (some database) [] parsed {}).1 := by decide +kernel
  obtain ⟨_, path, options, arguments, ⟨option, found, value⟩, _⟩ := option_accepted accepted described
    (.inl context) free places [] {} _ offered (by decide +kernel)
  have first : (known.scopeAt parsed.subcommandPath).find? (utf8 "-ab") = some inner := by rfl
  obtain rfl : inner = option := Option.some.inj (first.symm.trans found)
  exact ⟨read, context, by decide +kernel, path.trans (by decide +kernel), options.trans (by decide +kernel),
    arguments.trans (by decide +kernel), (value _ _).mpr ⟨by decide +kernel, rfl, rfl⟩⟩

end ShellCompletion
