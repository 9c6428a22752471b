import ShellCompletion.Json.Reader
import ShellCompletion.Proofs.Acceptance.Categories
import ShellCompletion.Proofs.Line.Nodes
import ShellCompletion.Proofs.Schema.Checked

/-!
# Subcommands that are accepted

Where a subcommand is typed, nothing is owed and no argument has been read, so the subcommands are open
(`Reading.ofComplete_of_subcommand`). A name that is accepted there is a word, since the schema has been checked at
every depth (`Schema.Leads.validName`), and is read as the subcommand that it names (`Reading.Names.step_eq`). Hence
the line that accepts a suggested name has arrived below it (`subcommand_entered`).
-/
namespace ShellCompletion

namespace Schema.Leads

variable {schema : Schema} {path : List Bytes} {node : Option Subcommand}

theorem checked (leads : schema.Leads path node) (passes : schema.check = .ok ()) :
    ∃ owner, checkSubcommands owner (schema.childrenAt node) = .ok () := by
  induction leads with
  | root => exact ⟨schema.command, ((Schema.check_eq_ok_iff schema).mp passes).2.2.2⟩
  | @down _ _ _ next _ found ih =>
    obtain ⟨owner, siblings⟩ := ih
    have own := (checkSubcommands_eq_ok_iff owner _).mp siblings next (List.mem_of_find?_eq_some found)
    exact ⟨_, ((Subcommand.check_eq_ok_iff owner next).mp own).2.2.2.2⟩

theorem validName (leads : schema.Leads path node) (passes : schema.check = .ok ()) {child : Subcommand}
    (below : child ∈ schema.childrenAt node) : isValidName child.name := by
  obtain ⟨owner, children⟩ := leads.checked passes
  have own := (checkSubcommands_eq_ok_iff owner _).mp children child below
  exact ((Subcommand.check_eq_ok_iff owner child).mp own).1

end Schema.Leads

theorem Bytes.isSpace_of_isBlank {c : UInt8} (blank : Bytes.isBlank c) : Bytes.isSpace c := by
  rcases Bytes.eq_of_isBlank blank with rfl | rfl | rfl | rfl <;> decide

theorem Bytes.isLiteral_of_isValidName {name : Bytes} (valid : isValidName name)
    (unquoted : ∀ byte ∈ name, byte ≠ '\\'.toUInt8 ∧ byte ≠ '"'.toUInt8 ∧ byte ≠ '\''.toUInt8) :
    name.IsLiteral ∧ name ≠ [] := by
  simp only [isValidName, Bool.and_eq_true, Bool.not_eq_true', List.any_eq_false] at valid
  obtain ⟨typed, words⟩ := valid
  refine ⟨fun byte member => ?_, by simpa using typed⟩
  obtain ⟨escape, double, single⟩ := unquoted byte member
  refine ⟨escape, double, single, ?_⟩
  by_contra blank
  exact words byte member (isSpace_of_isBlank (by simpa using blank))

namespace Reading

variable {known : Schema} {reading : Reading} {word : Token}

/-- Only an argument closes the subcommands. -/
def OpenUntilArgument (reading : Reading) : Prop := reading.subcommandsClosed = true → reading.arguments ≠ []

theorem step_openUntilArgument (open_ : reading.OpenUntilArgument) (word : Token) :
    (reading.step (some known) word).OpenUntilArgument := by
  have takes := step_takes (some known) reading word
  generalize reading.step (some known) word = next at takes ⊢
  cases takes with
  | argument => exact fun _ => by simp [takeArgument]
  | option =>
    intro closed
    simp only [takeOption, Option.isNone_some, Bool.or_false] at closed
    exact open_ closed
  | guessed _ _ _ none_ => cases none_
  | owed | operator | glued | dashes | subcommand => exact open_

theorem foldl_openUntilArgument (open_ : reading.OpenUntilArgument) (words : List Token) :
    (words.foldl (step (some known)) reading).OpenUntilArgument := by
  induction words generalizing reading with
  | nil => exact open_
  | cons word words ih => exact ih (step_openUntilArgument open_ word)

/-- Where a subcommand is typed nothing is owed and no argument has been read, so the subcommands are open. -/
theorem ofComplete_of_subcommand {cut : Cut}
    (classifies : Classifies (some known) cut (ofCut (some known) cut) .subcommand) :
    (ofComplete (some known) cut).owed = .nothing ∧ (ofComplete (some known) cut).arguments = [] ∧
      (ofComplete (some known) cut).subcommandsClosed = false ∧ cut.glued (ofCut (some known) cut) = 0 := by
  cases classifies with
  | subcommand _ own _ _ first =>
    rw [openPosition_eq own, List.length_eq_zero_iff] at first
    have open_ : (ofComplete (some known) cut).OpenUntilArgument :=
      foldl_openUntilArgument (fun closed => by simp at closed) _
    refine ⟨?_, first, ?_, own.unglued⟩
    · cases owed : (ofComplete (some known) cut).owed with
      | nothing => rfl
      | value =>
        obtain ⟨option, awaits⟩ := awaits_of_owed owed
        exact absurd awaits (own.unawaited option)
      | target => exact absurd (atRedirection_of_owed owed) own.apart
    · by_contra closed
      exact open_ (by simpa using closed) first
  | guessed _ none_ => cases none_

end Reading

variable {database : Database} {line : Bytes} {cursor : Nat} {known : Schema}

/-- A word that is typed out where a subcommand is, and that names one of those that may come next, enters it: it
    joins the path, the options stay, and no argument is read. -/
theorem parse_entered (schema : (Cut.of line cursor).schema? (some database) = some known)
    (context : (parse (some database) line cursor).context = .subcommand) {name : Bytes} {next : Subcommand}
    (found : findSubcommand (known.childrenAt (known.resolve (parse (some database) line cursor).subcommandPath)) name =
      some next)
    (plain : Bytes.IsPlainWord name) :
    let parsed := parse (some database) line cursor
    let new := line.take parsed.replaceStart ++ name ++ [' '.toUInt8]
    let again := parse (some database) new new.length
    again.command = parsed.command ∧ again.subcommandPath = parsed.subcommandPath ++ [name] ∧
      again.options = parsed.options ∧ again.arguments = [] := by
  intro parsed new again
  obtain ⟨words, classifies, reached⟩ := parse_known schema context nofun
  obtain ⟨free, none_, open_, unglued⟩ := Reading.ofComplete_of_subcommand classifies
  have nodesKept := (Reading.ofCut_keeps (some known) (Cut.of line cursor)).2.2
  have advance : (Cut.of line cursor).advance (some database) = 0 := by
    rw [Cut.advance, if_neg words, schema, unglued]
  have children : (Reading.ofComplete (some known) (Cut.of line cursor)).children known =
      known.childrenAt (known.resolve parsed.subcommandPath) := by
    rw [show known.resolve parsed.subcommandPath = _ from reached, nodesKept]
    rfl
  have names : Reading.Names known (Reading.ofComplete (some known) (Cut.of line cursor))
      ⟨name, parsed.replaceStart, parsed.replaceStart + name.length⟩ next :=
    ⟨free, Reading.isOperand_of_plain plain, open_, children ▸ found⟩
  obtain ⟨command, path, options, arguments⟩ :=
    parse_completed (some database) words advance plain.literal plain.nonempty
  rw [schema, names.step_eq] at path options arguments
  obtain ⟨pathBefore, optionsBefore⟩ := parse_path_options (some database) words
  rw [schema] at pathBefore optionsBefore
  rw [show parsed.subcommandPath = _ from pathBefore, show parsed.options = _ from optionsBefore]
  exact ⟨command, path, options, arguments.trans none_⟩

/-- A suggested subcommand that is accepted with a blank after it is entered: its name joins the path, the options
    stay, and no argument is read. Its name is a word as it stands, if it has no quote and no backslash, and is
    taken for no option and no redirection. The subcommand reached is the first of those that answer to the name. -/
theorem subcommand_entered {library : JsonLibrary}
    (accepted : ∀ schema ∈ database.schemas, ∃ text, Schema.ofText library text = .ok schema)
    (described : database.find? (parse (some database) line line.length).command = some known)
    (context : (parse (some database) line line.length).context = .subcommand)
    (places : PathContext) (current : Bytes) (listings : Listings) :
    let parsed := parse (some database) line line.length
    ∀ candidate ∈ (Suggestion.candidates places (some database) current parsed listings).1,
      candidate.category = .subcommand →
      (∀ byte ∈ candidate.text, byte ≠ '\\'.toUInt8 ∧ byte ≠ '"'.toUInt8 ∧ byte ≠ '\''.toUInt8) →
      candidate.text.head? ≠ some '-'.toUInt8 → Redirect.isOperator candidate.text = false →
      Redirect.gluedLength candidate.text = 0 →
      let new := line.take parsed.replaceStart ++ candidate.text ++ [' '.toUInt8]
      let again := parse (some database) new new.length
      again.command = parsed.command ∧ again.subcommandPath = parsed.subcommandPath ++ [candidate.text] ∧
        again.options = parsed.options ∧ again.arguments = [] ∧
        ∃ next, findSubcommand (known.childrenAt (known.resolve parsed.subcommandPath)) candidate.text = some next ∧
          known.resolve again.subcommandPath = some next := by
  intro parsed candidate member category unquoted undashed operator glued new again
  have schema : (Cut.of line line.length).schema? (some database) = some known := by
    rwa [parse_command] at described
  have leads : known.Leads parsed.subcommandPath (known.resolve parsed.subcommandPath) := parse_leads schema
  have passes : known.check = .ok () := by
    obtain ⟨text, read⟩ := accepted known (List.mem_of_find?_eq_some described)
    exact Schema.check_of_ofText read
  have route : Suggestion.candidates places (some database) current parsed =
      Suggestion.subcommandCandidates places (some known) current parsed := by
    simp only [Suggestion.candidates, show parsed.context = .subcommand from context, Option.bind_some,
      show database.find? parsed.command = some known from described]
  rw [route] at member
  obtain ⟨child, sibling, rfl⟩ := Suggestion.subcommand_of_category category member
  -- The name is that of a sibling, so one of them is the first to answer to it.
  obtain ⟨next, found⟩ : ∃ next,
      findSubcommand (known.childrenAt (known.resolve parsed.subcommandPath)) child.name = some next :=
    Option.isSome_iff_exists.mp (List.find?_isSome.mpr ⟨child, sibling, by simp [Subcommand.answersTo]⟩)
  obtain ⟨literal, typed⟩ := Bytes.isLiteral_of_isValidName (leads.validName passes sibling) unquoted
  obtain ⟨command, path, options, arguments⟩ :=
    parse_entered schema context found ⟨literal, typed, undashed, operator, glued⟩
  refine ⟨command, path, options, arguments, next, found, ?_⟩
  rw [show again.subcommandPath = _ from path]
  exact (leads.down found).resolve_eq

/-- A command whose document describes two subcommands, one of which is accepted behind an option. -/
theorem subcommand_entered_remote :
    let document := utf8 "\x7b\"command\":\"vc\",\"subcommands\":[\x7b\"name\":\"remote\"\x7d,\x7b\"name\":\"show\"\x7d]\x7d"
    let remote : Subcommand := ⟨utf8 "remote", none, [], [], [], []⟩
    let known : Schema := ⟨utf8 "vc", none, [], [remote, ⟨utf8 "show", none, [], [], [], []⟩], []⟩
    let database : Database := ⟨[known], by decide⟩
    let parsed := parse (some database) (utf8 "vc -q rem") 9
    let new := (utf8 "vc -q rem").take parsed.replaceStart ++ utf8 "remote" ++ [' '.toUInt8]
    let again := parse (some database) new new.length
    Schema.ofText Json.library document = .ok known ∧ database.find? parsed.command = some known ∧
      parsed.context = .subcommand ∧ new = utf8 "vc -q remote " ∧ again.subcommandPath = [utf8 "remote"] ∧ again.options = [utf8 "-q"] ∧
      again.arguments = [] ∧ known.resolve again.subcommandPath = some remote := by
  intro document remote known database parsed new again
  let places : PathContext := ⟨{}, { entries := [] }, ⟨fun _ => .ok [], id⟩, 0⟩
  have read : Schema.ofText Json.library document = .ok known := by rfl
  have accepted : ∀ schema ∈ database.schemas, ∃ text, Schema.ofText Json.library text = .ok schema := by
    intro schema member
    obtain rfl : schema = known := List.mem_singleton.mp member
    exact ⟨document, read⟩
  have described : database.find? parsed.command = some known := by rfl
  have context : parsed.context = .subcommand := by decide +kernel
  have offered : Candidate.of .subcommand (utf8 "remote") ∈
      (Suggestion.candidates places (some database) [] parsed {}).1 := by decide +kernel
  obtain ⟨_, path, options, arguments, next, found, reached⟩ := subcommand_entered accepted
    described context places [] {} _ offered rfl (by decide +kernel) (by decide) (by decide) (by decide)
  have first : findSubcommand (known.childrenAt (known.resolve parsed.subcommandPath)) (utf8 "remote") =
      some remote := by rfl
  exact ⟨read, described, context, by decide +kernel, path.trans (by decide +kernel), options.trans (by decide +kernel),
    arguments, reached.trans (found.symm.trans first)⟩

end ShellCompletion
