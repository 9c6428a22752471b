import ShellCompletion.Proofs.Line.Classification
import ShellCompletion.Schema.Bundled
import ShellCompletion.Suggestion

/-!
# The subcommand that a line has reached

The reading of a line keeps the subcommand it has reached, and the suggestions look that subcommand up again
by the words that led to it. Each of these words names a subcommand below the one before it
(`Reading.foldl_arrives`), so the lookup follows all of them and arrives where the reading did
(`Schema.Leads.resolve_eq`). Hence both see the same subcommands and arguments there (`parse_resolves`).
-/
namespace ShellCompletion

/-- Each word of the path names a subcommand below the one before it; the last of them is `node`. -/
inductive Schema.Leads (schema : Schema) : List Bytes → Option Subcommand → Prop
  | root : Leads schema [] none
  | down {path : List Bytes} {node : Option Subcommand} {word : Bytes} {next : Subcommand} :
      Leads schema path node → findSubcommand (schema.childrenAt node) word = some next →
      Leads schema (path ++ [word]) (some next)

namespace Schema.Leads

variable {schema : Schema} {path : List Bytes} {node : Option Subcommand}

/-- A walk along the path arrives at the subcommand that the path leads to, and goes on from there. -/
theorem resolve_append (leads : schema.Leads path node) (rest : List Bytes) :
    schema.resolve (path ++ rest) = descend node (schema.childrenAt node) rest := by
  induction leads generalizing rest with
  | root => rfl
  | down _ found ih => rw [List.append_assoc, ih, List.cons_append, descend, found]; rfl

theorem resolve_eq (leads : schema.Leads path node) : schema.resolve path = node := by
  simpa [descend] using leads.resolve_append []

end Schema.Leads

/-- A text that is one word wherever it stands, and neither an option nor a redirection. -/
structure Bytes.IsPlainWord (text : Bytes) : Prop where
  literal : text.IsLiteral
  nonempty : text ≠ []
  undashed : text.head? ≠ some '-'.toUInt8
  operator : Redirect.isOperator text = false
  unglued : Redirect.gluedLength text = 0

namespace Reading

variable {known : Schema} {reading : Reading} {word : Token}

theorem isOperand_of_plain (plain : Bytes.IsPlainWord word.text) : reading.IsOperand word := fun _ =>
  ⟨plain.operator, plain.unglued, fun dashes => plain.undashed (dashes ▸ rfl), fun dash => absurd dash plain.undashed⟩

/-- The word names a subcommand below those read so far. -/
structure Names (known : Schema) (reading : Reading) (word : Token) (next : Subcommand) : Prop where
  free : reading.owed = .nothing
  operand : reading.IsOperand word
  open_ : reading.subcommandsClosed = false
  found : findSubcommand (reading.children known) word.text = some next

theorem Names.step_eq {next : Subcommand} (names : Names known reading word next) :
    reading.step (some known) word =
      { reading with path := reading.path ++ [word.text], nodes := next :: reading.nodes } := by
  obtain ⟨free, operand, open_, found⟩ := names
  have takes := step_takes (some known) reading word
  generalize reading.step (some known) word = after at takes ⊢
  cases takes with
  | owed owed => exact absurd free owed
  | operator _ running operator => simp [(operand running).1] at operator
  | glued _ running _ glued => simp [(operand running).2.1] at glued
  | dashes _ running dashes => exact absurd dashes (operand running).2.2.1
  | option _ running _ _ _ dash long =>
    have := (operand running).2.2.2 dash
    omega
  | subcommand known' next' _ _ _ same found' =>
    obtain rfl := Option.some.inj same
    rw [found] at found'
    rw [Option.some.inj found']
  | guessed _ _ _ none_ => cases none_
  | argument _ _ others => simp [others known open_ rfl] at found

/-- The path of the reading leads to the innermost of its subcommands. -/
def Arrives (known : Schema) (reading : Reading) : Prop := known.Leads reading.path reading.nodes.head?

theorem step_arrives (arrives : reading.Arrives known) (word : Token) :
    (reading.step (some known) word).Arrives known := by
  have takes := step_takes (some known) reading word
  generalize reading.step (some known) word = next at takes ⊢
  cases takes with
  | subcommand _ next _ _ _ same found =>
    obtain rfl := Option.some.inj same
    exact .down arrives found
  | guessed _ _ _ none_ => cases none_
  | owed | operator | glued | dashes | option | argument => exact arrives

theorem foldl_arrives (arrives : reading.Arrives known) (words : List Token) :
    (words.foldl (step (some known)) reading).Arrives known := by
  induction words generalizing reading with
  | nil => exact arrives
  | cons word words ih => exact ih (step_arrives arrives word)

theorem ofCut_arrives (known : Schema) (cut : Cut) : (ofCut (some known) cut).Arrives known := by
  obtain ⟨_, path, nodes⟩ := ofCut_keeps (some known) cut
  have start : ({} : Reading).Arrives known := .root
  rw [Arrives, path, nodes]
  exact foldl_arrives start (cut.complete.drop 1)

end Reading

variable {database : Option Database} {line : Bytes} {cursor : Nat} {known : Schema}

/-- The text under the cursor is a redirection operator, carries one or follows one. -/
def Cut.Redirects (database : Option Database) (cut : Cut) : Prop := 0 < cut.advance database ∨ cut.AtRedirection

instance (database : Option Database) (cut : Cut) : Decidable (cut.Redirects database) :=
  inferInstanceAs (Decidable (_ ∨ _))

/-- The path of a parsed line leads to the subcommand that the reading has reached. -/
theorem parse_leads (described : (Cut.of line cursor).schema? database = some known) :
    known.Leads (parse database line cursor).subcommandPath
      (known.resolve (parse database line cursor).subcommandPath) := by
  by_cases first : (Cut.of line cursor).complete = []
  · rw [parse_of_first database first]
    exact .root
  · have leads := Reading.ofCut_arrives known (Cut.of line cursor)
    rw [parse_of_words database first]
    dsimp only
    rw [described, leads.resolve_eq]
    exact leads

/-- Once the command is complete, the text under the cursor is classified by a reading that has arrived where
    a walk along the path of the line does. -/
theorem parse_known (described : (Cut.of line cursor).schema? database = some known) {context : Context}
    (is : (parse database line cursor).context = context) (past : context ≠ .command) :
    (Cut.of line cursor).complete ≠ [] ∧
      Classifies (some known) (Cut.of line cursor) (Reading.ofCut (some known) (Cut.of line cursor)) context ∧
      known.resolve (parse database line cursor).subcommandPath =
        (Reading.ofCut (some known) (Cut.of line cursor)).nodes.head? := by
  have words : (Cut.of line cursor).complete ≠ [] := by
    rwa [ne_eq, ← parse_context_eq_command_iff database, is]
  have classifies := parse_classifies database words
  rw [is, described] at classifies
  refine ⟨words, classifies, ?_⟩
  rw [parse_of_words database words]
  dsimp only
  rw [described]
  exact (Reading.ofCut_arrives known (Cut.of line cursor)).resolve_eq

theorem filled_eq_zero (words : (Cut.of line cursor).complete ≠ [])
    (none_ : argumentsBefore line (parse database line cursor) = []) :
    (parse database line cursor).arguments.length -
      (if (parse database line cursor).current.isEmpty then 0 else 1) = 0 := by
  rw [argumentsBefore_eq database words] at none_
  rcases arguments_of_words database words with ⟨records, current, word, _, split, _⟩ | ⟨_, same⟩
  · have typed : (parse database line cursor).current.isEmpty = false := by simpa [current] using records.typed
    simp [split, none_, typed]
  · simp [same, none_]

/-- Where a subcommand is typed that none of the known ones matches, the suggestions are the values of an
    argument and the global options. -/
theorem Suggestion.candidates_of_unnamed {parsed : ParsedLine}
    (described : database.bind (·.find? parsed.command) = some known) (context : parsed.context = .subcommand)
    (places : PathContext) (current : Bytes)
    (unnamed : subcommandNames places.settings parsed.current
      (known.childrenAt (known.resolve parsed.subcommandPath)) = []) :
    candidates places database current parsed = (do
      let values ← valueCandidates places true current parsed.current
        (argumentTypeAt (known.argumentsAt (known.resolve parsed.subcommandPath))
          (parsed.arguments.length - if parsed.current.isEmpty then 0 else 1))
      return values ++ ofOptions places.settings parsed known.globalOptions) := by
  simp only [candidates, context, described, subcommandCandidates, unnamed]
  rfl

/-- The words of the subcommands lead all the way down to the one that the suggestions look up. Where a
    subcommand is typed, there are some below it and no argument comes before, so that its first argument
    is what is suggested where no name matches. An argument is of the kind that it declares there, unless it
    is the file of a redirection. -/
theorem parse_resolves (database : Option Database)
    (described : database.bind (·.find? (parse database line cursor).command) = some known) :
    let parsed := parse database line cursor
    let node := known.resolve parsed.subcommandPath
    known.Leads parsed.subcommandPath node ∧
      (parsed.context = .subcommand → known.childrenAt node ≠ [] ∧ argumentsBefore line parsed = [] ∧
        parsed.arguments.length - (if parsed.current.isEmpty then 0 else 1) = 0 ∧
        ∀ places current, Suggestion.subcommandNames places.settings parsed.current (known.childrenAt node) = [] →
          Suggestion.candidates places database current parsed = do
            let values ← Suggestion.valueCandidates places true current parsed.current
              (argumentTypeAt (known.argumentsAt node) 0)
            return values ++ Suggestion.ofOptions places.settings parsed known.globalOptions) ∧
      ∀ index type, parsed.context = .argument index type → ¬ (Cut.of line cursor).Redirects database →
        type = argumentTypeAt (known.argumentsAt node) index := by
  intro parsed node
  have schema : (Cut.of line cursor).schema? database = some known := by
    rwa [parse_command] at described
  refine ⟨parse_leads schema, fun subcommand => ?_, fun index type argument away => ?_⟩
  · obtain ⟨words, classifies, reached⟩ := parse_known schema subcommand nofun
    cases classifies with
    | subcommand known' own same children first =>
      obtain rfl := Option.some.inj same
      have before : argumentsBefore line parsed = [] := by
        rw [argumentsBefore_eq database words, schema, ← List.length_eq_zero_iff, ← Reading.openPosition_eq own]
        exact first
      have filled := filled_eq_zero words before
      refine ⟨by rwa [show node = _ from reached], before, filled, fun places current unnamed => ?_⟩
      rw [Suggestion.candidates_of_unnamed described subcommand places current unnamed, filled]
    | guessed _ none_ => cases none_
  · obtain ⟨words, classifies, reached⟩ := parse_known schema argument nofun
    cases classifies with
    | glued glued =>
      refine absurd (.inl ?_) away
      rwa [Cut.advance, if_neg words, schema]
    | redirection _ _ at_ => exact absurd (.inr at_) away
    | argument known' _ same =>
      obtain rfl := Option.some.inj same
      rw [show node = _ from reached]
    | position _ none_ => cases none_

/-- The second argument of a subcommand below another one. -/
theorem parse_resolves_remote :
    let database : Database := ⟨[Bundled.git], by decide⟩
    let parsed := parse (some database) (utf8 "git remote add origin htt") 25
    let node := Bundled.git.resolve [utf8 "remote", utf8 "add"]
    parsed.context = .argument 1 (some .url) ∧ Bundled.git.Leads [utf8 "remote", utf8 "add"] node ∧
      some ValueType.url = argumentTypeAt (Bundled.git.argumentsAt node) 1 := by
  intro database parsed node
  have described : database.find? parsed.command = some Bundled.git := by rfl
  have path : parsed.subcommandPath = [utf8 "remote", utf8 "add"] := by decide +kernel
  have context : parsed.context = .argument 1 (some .url) := by decide +kernel
  have away : ¬ (Cut.of (utf8 "git remote add origin htt") 25).Redirects (some database) := by decide +kernel
  obtain ⟨leads, _, declared⟩ := parse_resolves (some database) described
  rw [show (parse (some database) (utf8 "git remote add origin htt") 25).subcommandPath = _ from path]
    at leads declared
  exact ⟨context, leads, declared 1 _ context away⟩

end ShellCompletion
