import ShellCompletion.Proofs.Line.Accounting
import ShellCompletion.Proofs.Line.Exchange
import ShellCompletion.Proofs.Line.Nodes

/-!
# Another name of a subcommand

Once a word has named a subcommand nothing that is read later depends on how it was spelled (`step_respelled`). So a
line with another name of the same subcommand in its place is read the same from there on, with the words behind it
at other places (`Cut.Respells.ofCut_eq`), and the suggestions, which look the subcommands up again by their names,
arrive at the same one (`parse_alias`). Only where the text under the cursor follows the name directly and the name
is an operator, as it can be after two dashes, is that text taken for the file of a redirection
(`operator_read_as_redirection`).
-/
namespace ShellCompletion

namespace Reading

variable {known : Schema} {reading : Reading} {word : Token} {index : Nat} {spelling : Bytes}

/-! ## A reading with another spelling -/

/-- The reading with another spelling for one of the subcommands. -/
def respelled (index : Nat) (spelling : Bytes) (reading : Reading) : Reading :=
  { reading with path := reading.path.set index spelling }

theorem takeWord_respelled (named : index < reading.path.length) (word : Token) :
    (reading.takeWord (some known) word).respelled index spelling =
      (reading.respelled index spelling).takeWord (some known) word := by
  have children : (reading.respelled index spelling).children known = reading.children known := rfl
  cases found : findSubcommand (reading.children known) word.text with
  | none =>
    simp only [takeWord, apply_ite (respelled index spelling), children, found]
    rfl
  | some next =>
    simp only [takeWord, apply_ite (respelled index spelling), children, found]
    simp only [respelled, List.set_append_left _ _ named]
    rfl

theorem step_respelled (named : index < reading.path.length) (word : Token) :
    (reading.step (some known) word).respelled index spelling =
      (reading.respelled index spelling).step (some known) word := by
  simp only [step, apply_ite (respelled index spelling), takeWord_respelled named]
  rfl

theorem foldl_respelled (named : index < reading.path.length) (words : List Token) :
    (words.foldl (step (some known)) reading).respelled index spelling =
      words.foldl (step (some known)) (reading.respelled index spelling) := by
  induction words generalizing reading with
  | nil => rfl
  | cons word words ih =>
    have longer : index < (reading.step (some known) word).path.length := by
      have path := foldl_path (some known) reading [word]
      rw [List.foldl_cons, List.foldl_nil] at path
      rw [path, List.length_append]
      omega
    rw [List.foldl_cons, ih longer, step_respelled named, List.foldl_cons]

theorem stepCurrent_respelled (reading : Reading) (word : Token) :
    (reading.stepCurrent word).respelled index spelling = (reading.respelled index spelling).stepCurrent word := by
  simp only [stepCurrent, apply_ite (respelled index spelling)]
  rfl

/-! ## The word that is replaced -/

theorem names_of_grows (grows : Grows path reading (reading.step (some known) word)) :
    ∃ next, Names known reading word next := by
  have takes := step_takes (some known) reading word
  generalize reading.step (some known) word = after at takes grows
  cases takes with
  | subcommand known' next free operand open_ same found =>
    obtain rfl := Option.some.inj same
    exact ⟨next, free, operand, open_, found⟩
  | guessed _ _ _ none_ => cases none_
  | owed | operator | glued | dashes | option | argument => exact absurd grows (not_grows_of_eq rfl)

/-- The word before the text under the cursor says nothing of that text: it is no operator and, while options are
    read, not written as one. -/
structure Inert (reading : Reading) (word : Bytes) : Prop where
  operator : Redirect.isOperator word = false
  written : reading.optionsEnded = false → isOptionWord word = false

theorem IsOperand.inert (operand : reading.IsOperand word) (operator : Redirect.isOperator word.text = false) :
    reading.Inert word.text := by
  refine ⟨operator, fun running => ?_⟩
  by_contra written
  obtain ⟨dash, long, -⟩ := isOptionWord_iff.mp (by simpa using written)
  have := (operand running).2.2.2 dash
  omega

end Reading

/-- Where the words before the cursor end in another one that says nothing of the text under it, that text is what it
    was. -/
theorem contextOf_inert (schema : Option Schema) {line line' : Bytes} {cut cut' : Cut} {reading : Reading}
    (text : cut'.text = cut.text) (spaced : cut.Spaced line) (spaced' : cut'.Spaced line')
    (several : 2 ≤ cut'.complete.length ↔ 2 ≤ cut.complete.length)
    (last : cut'.last = cut.last ∨ reading.Inert cut.last ∧ reading.Inert cut'.last) :
    contextOf schema line' cut' reading = contextOf schema line cut reading := by
  unfold Cut.last at last
  unfold Cut.Spaced at spaced spaced'
  simp only [contextOf, text, several, spaced, spaced']
  rcases last with same | ⟨inert, inert'⟩
  · rw [same]
  · have silent {word : Bytes} (inert : reading.Inert word) : (!reading.optionsEnded && isOptionWord word) = false := by
      cases ended : reading.optionsEnded with
      | true => rfl
      | false => simpa using inert.written ended
    simp only [Bool.and_assoc, silent inert, silent inert', inert.operator, inert'.operator, Bool.false_and,
      Bool.and_false, Bool.false_eq_true, if_false]

/-- With a schema neither the spelling of a subcommand nor the places of the arguments say what the text under the
    cursor is. -/
theorem contextOf_respelled (known : Schema) (line : Bytes) (cut : Cut) (reading : Reading) (index : Nat)
    (spelling : Bytes) {place : Token → Token} (texts : ∀ token, (place token).text = token.text) :
    contextOf (some known) line cut ((reading.placed place).respelled index spelling) =
      contextOf (some known) line cut reading := by
  simp [contextOf, openPosition, Reading.placed, Reading.respelled, Reading.scope, Reading.children,
    Function.comp_def, texts]

/-- The second cut has another name of the same subcommand in the place of a complete word, and what stands behind
    it has moved along. -/
structure Cut.Respells (known : Schema) (command : Token) (before after : List Token) (name spelled : Token)
    (next : Subcommand) (stop' : Nat) (cut cut' : Cut) : Prop where
  complete : cut.complete = command :: before ++ name :: after
  complete' : cut'.complete = command :: before ++ spelled :: after.map (Token.moved name.stop stop')
  current : cut'.current = cut.current.map (Token.moved name.stop stop')
  cursor : cut'.cursor = stop' + (cut.cursor - name.stop)
  names : Reading.Names known (before.foldl (Reading.step (some known)) {}) name next
  names' : Reading.Names known (before.foldl (Reading.step (some known)) {}) spelled next

/-- The parsed line with what stands behind `stop` counted from `stop'`. -/
def ParsedLine.moved (stop stop' : Nat) (parsed : ParsedLine) : ParsedLine :=
  { parsed with
    arguments := parsed.arguments.map (Token.moved stop stop')
    replaceStart := stop' + (parsed.replaceStart - stop)
    replaceStop := stop' + (parsed.replaceStop - stop) }

namespace Cut.Respells

variable {known : Schema} {command name spelled : Token} {before after : List Token} {next : Subcommand} {stop' : Nat}

section
variable {cut cut' : Cut} (respells : Respells known command before after name spelled next stop' cut cut')
include respells

/-! ## The line with the other name -/

theorem complete_ne_nil : cut.complete ≠ [] := by simp [respells.complete]

theorem complete_ne_nil' : cut'.complete ≠ [] := by simp [respells.complete']

theorem ofComplete_eq :
    Reading.ofComplete (some known) cut' =
      ((Reading.ofComplete (some known) cut).placed (Token.moved name.stop stop')).respelled
        (before.foldl (Reading.step (some known)) {}).path.length spelled.text := by
  have none_ := Reading.arguments_of_open before respells.names.open_
  rw [Reading.ofComplete, Reading.ofComplete, respells.complete, respells.complete']
  simp only [List.cons_append, List.drop_one, List.tail_cons, List.foldl_append, List.foldl_cons]
  rw [respells.names.step_eq, respells.names'.step_eq]
  -- No argument stands before the name, so all of them have moved along.
  generalize before.foldl (Reading.step (some known)) {} = reading at none_
  rw [Reading.foldl_placed (Token.moved_text _ _), Reading.foldl_respelled]
  · simp [Reading.placed, Reading.respelled, none_]
  · simp [Reading.placed]

theorem ofCut_eq :
    Reading.ofCut (some known) cut' =
      ((Reading.ofCut (some known) cut).placed (Token.moved name.stop stop')).respelled
        (before.foldl (Reading.step (some known)) {}).path.length spelled.text := by
  have read := respells.ofComplete_eq
  unfold Reading.ofComplete at read
  rw [Reading.ofCut, Reading.ofCut, respells.current, read]
  cases cut.current with
  | none => rfl
  | some word =>
    dsimp only [Option.map_some]
    rw [Reading.stepCurrent_placed (Token.moved_text _ _), Reading.stepCurrent_respelled]

theorem glued_eq :
    cut'.glued (Reading.ofCut (some known) cut') = cut.glued (Reading.ofCut (some known) cut) := by
  rw [respells.ofCut_eq, Cut.glued, (Cut.text_moved respells.current respells.cursor).1]
  rfl

theorem length_eq : cut'.complete.length = cut.complete.length := by
  simp [respells.complete, respells.complete']

/-- The word before the text under the cursor is the same, or both names of the subcommand say nothing of that text. -/
theorem last_eq (operator : Redirect.isOperator spelled.text = false)
    (apart : after ≠ [] ∨ Redirect.isOperator name.text = false) :
    cut'.last = cut.last ∨ (Reading.ofCut (some known) cut).Inert cut.last ∧
      (Reading.ofCut (some known) cut).Inert cut'.last := by
  rcases List.eq_nil_or_concat' after with rfl | ⟨between, previous, rfl⟩
  · have ended : (Reading.ofCut (some known) cut).optionsEnded =
        (before.foldl (Reading.step (some known)) {}).optionsEnded := by
      rw [(Reading.ofCut_keeps _ _).1, Reading.ofComplete, respells.complete]
      simp [respells.names.step_eq]
    have inert {word : Token} (operand : (before.foldl (Reading.step (some known)) {}).IsOperand word)
        (operator : Redirect.isOperator word.text = false) : (Reading.ofCut (some known) cut).Inert word.text :=
      ⟨operator, fun running => (operand.inert operator).written (ended ▸ running)⟩
    have last : cut.last = name.text :=
      @Cut.last_eq _ ((command :: before).map Token.text) _ (by simp [respells.complete])
    have last' : cut'.last = spelled.text :=
      @Cut.last_eq _ ((command :: before).map Token.text) _ (by simp [respells.complete'])
    rw [last, last']
    exact .inr ⟨inert respells.names.operand (apart.resolve_left (by simp)), inert respells.names'.operand operator⟩
  · have last : cut.last = previous.text :=
      @Cut.last_eq _ ((command :: before ++ name :: between).map Token.text) _ (by simp [respells.complete])
    have last' : cut'.last = previous.text :=
      @Cut.last_eq _ ((command :: before ++ spelled :: between).map Token.text) _ (by simp [respells.complete'])
    exact .inl (last'.trans last.symm)

end

variable {database : Option Database} {line line' : Bytes} {cursor cursor' : Nat}
  (respells : Respells known command before after name spelled next stop' (Cut.of line cursor) (Cut.of line' cursor'))
  (described : (Cut.of line cursor).schema? database = some known)
include respells

theorem command_eq : (Cut.of line' cursor').command = (Cut.of line cursor).command := by
  rw [Cut.command_eq respells.complete, Cut.command_eq respells.complete']

include described

theorem schema?_eq : (Cut.of line' cursor').schema? database = some known := by
  rw [Cut.schema?, respells.command_eq]
  exact described

theorem parse_eq :
    let parsed := parse database line cursor
    let again := parse database line' cursor'
    again = { parsed.moved name.stop stop' with
      subcommandPath := parsed.subcommandPath.set (before.foldl (Reading.step (some known)) {}).path.length spelled.text
      context := again.context } := by
  intro parsed again
  have member : name ∈ (Cut.of line cursor).complete := by simp [respells.complete]
  have behind := Cut.complete_stop_lt_start member
  obtain ⟨text, start⟩ := Cut.text_moved respells.current respells.cursor
  simp only [again, parsed, parse_of_words database respells.complete_ne_nil,
    parse_of_words database respells.complete_ne_nil', described, respells.schema?_eq described, ParsedLine.moved,
    respells.glued_eq, text, start, respells.command_eq, respells.length_eq, respells.cursor]
  rw [respells.ofCut_eq]
  simp only [ParsedLine.mk.injEq, and_true, true_and]
  exact ⟨rfl, rfl, rfl, by omega⟩

theorem context_eq (operator : Redirect.isOperator spelled.text = false)
    (apart : after ≠ [] ∨ Redirect.isOperator name.text = false) :
    (parse database line' cursor').context = (parse database line cursor).context := by
  have text := (Cut.text_moved respells.current respells.cursor).1
  have context := contextOf_inert (some known) text (Cut.spaced_of respells.complete_ne_nil)
    (Cut.spaced_of respells.complete_ne_nil') (by rw [respells.length_eq]) (respells.last_eq operator apart)
  rw [parse_of_words database respells.complete_ne_nil, parse_of_words database respells.complete_ne_nil']
  dsimp only
  rw [described, respells.schema?_eq described, respells.glued_eq, respells.ofCut_eq,
    contextOf_respelled _ _ _ _ _ _ (Token.moved_text _ _), context]
  simp [Reading.placed, Reading.respelled]

theorem resolve_eq : known.resolve (parse database line' cursor').subcommandPath =
    known.resolve (parse database line cursor).subcommandPath := by
  rw [parse_of_words database respells.complete_ne_nil, parse_of_words database respells.complete_ne_nil']
  dsimp only
  rw [described, respells.schema?_eq described, (Reading.ofCut_arrives known _).resolve_eq,
    (Reading.ofCut_arrives known _).resolve_eq, respells.ofCut_eq]
  rfl

end Cut.Respells

/-! ## What is suggested -/

namespace Suggestion

theorem ofOptions_congr (settings : Settings) {parsed parsed' : ParsedLine} (given : parsed'.options = parsed.options)
    (current : parsed'.current = parsed.current) (options : List OptionSpec) :
    ofOptions settings parsed' options = ofOptions settings parsed options := by
  have spent : isSpent parsed' = isSpent parsed := by
    funext option
    rw [isSpent, isSpent, given]
  have form : formCandidate? settings parsed' = formCandidate? settings parsed := by
    funext option category form
    rw [formCandidate?, formCandidate?, given, current]
  rw [ofOptions, ofOptions, spent, form]

/-- The words that name the subcommands enter into the suggestions only through the subcommand that they lead to,
    and the arguments through their number. -/
theorem candidates_congr (places : PathContext) (database : Option Database) (directory : Bytes)
    {parsed parsed' : ParsedLine} (command : parsed'.command = parsed.command)
    (context : parsed'.context = parsed.context) (current : parsed'.current = parsed.current)
    (given : parsed'.options = parsed.options) (filled : parsed'.arguments.length = parsed.arguments.length)
    (reached : ∀ known, database.bind (·.find? parsed.command) = some known →
      known.resolve parsed'.subcommandPath = known.resolve parsed.subcommandPath) :
    candidates places database directory parsed' = candidates places database directory parsed := by
  have options := fun settings => ofOptions_congr settings given current
  simp only [candidates, command, context, current]
  cases described : database.bind (·.find? parsed.command) with
  | none => simp only [subcommandCandidates, optionCandidates, current]
  | some known => simp only [subcommandCandidates, optionCandidates, current, filled, reached known described, options]

end Suggestion

section
variable {database : Option Database} {line spelling : Bytes} {cursor index : Nat} {known : Schema} {name : Token}

theorem Cut.respells_of (described : (Cut.of line cursor).schema? database = some known)
    (named : (Reading.counted (some known) Reading.path (Cut.of line cursor))[index]? = some name)
    (same : let level := known.childrenAt (known.resolve ((parse database line cursor).subcommandPath.take index))
      findSubcommand level spelling = findSubcommand level name.text)
    (plain : Bytes.IsPlainWord spelling) :
    let stop' := name.start + spelling.length
    ∃ command before after spelled next, spelled.text = spelling ∧
      (before.foldl (Reading.step (some known)) {}).path.length = index ∧
      Respells known command before after name spelled next stop' (Cut.of line cursor)
        (Cut.of (line.take name.start ++ spelling ++ line.drop name.stop) (stop' + (cursor - name.stop))) := by
  intro stop'
  have words : (Cut.of line cursor).complete ≠ [] := by
    intro first
    simp [Reading.counted, first] at named
  rw [Reading.counted_of_keeps (fun reading word => (Reading.stepCurrent_keeps reading word).1) words] at named
  obtain ⟨before, after, split, count, grows⟩ := Reading.growth_getElem? named
  obtain ⟨next, names⟩ := Reading.names_of_grows grows
  obtain ⟨command, complete⟩ : ∃ command, (Cut.of line cursor).complete = command :: before ++ name :: after := by
    obtain ⟨command, more, first⟩ := List.exists_cons_of_ne_nil words
    exact ⟨command, by simpa [first] using split⟩
  have path : (before.foldl (Reading.step (some known)) {}).path.length = index := by
    rw [Reading.foldl_path, ← count]
    simp
  -- The path up to the name leads to the subcommand below which the name is looked up.
  have level : known.resolve ((parse database line cursor).subcommandPath.take index) =
      (before.foldl (Reading.step (some known)) {}).nodes.head? := by
    have start : ({} : Reading).Arrives known := .root
    rw [(parse_path_options database words).1, described, Reading.ofComplete, split, List.foldl_append,
      Reading.foldl_path, List.take_left' path]
    exact (Reading.foldl_arrives start before).resolve_eq
  rw [level] at same
  have names' : Reading.Names known (before.foldl (Reading.step (some known)) {})
      (Token.shift name.start ⟨spelling, 0, spelling.length⟩) next :=
    ⟨names.free, Reading.isOperand_of_plain plain, names.open_, same.trans names.found⟩
  obtain ⟨complete', current, at_⟩ := Cut.of_replaced complete (Quoting.after_literal plain.literal)
  rw [tokenize_literal plain.literal plain.nonempty] at complete'
  exact ⟨command, before, after, _, next, rfl, path, complete, complete', current, at_, names, names'⟩

/-- Where a name is an operator two dashes have ended the options. The text directly behind it is then still taken
    for the file of a redirection. -/
theorem operator_read_as_redirection (described : (Cut.of line cursor).schema? database = some known)
    {command : Token} {before after : List Token} {next : Subcommand}
    (complete : (Cut.of line cursor).complete = command :: before ++ name :: after)
    (names : Reading.Names known (before.foldl (Reading.step (some known)) {}) name next)
    (operator : Redirect.isOperator name.text) :
    Reading.EndsOptions (some known) ((Cut.of line cursor).complete.drop 1) ∧
      ((Cut.of line cursor).previous? = some name → (parse database line cursor).context =
        .argument (parse database line cursor).arguments.length (some (.file []))) := by
  have words : (Cut.of line cursor).complete ≠ [] := by simp [complete]
  have before_ended : Reading.EndsOptions (some known) before := by
    rw [← Reading.foldl_optionsEnded]
    by_contra running
    simp [(names.operand (by simpa using running)).1] at operator
  have ended : Reading.EndsOptions (some known) ((Cut.of line cursor).complete.drop 1) := by
    simpa [complete] using before_ended.append (name :: after)
  refine ⟨ended, fun previous => ?_⟩
  have past := (Reading.ofCut_optionsEnded _ _).mpr ended
  have at_ : (Cut.of line cursor).AtRedirection := .inl ⟨name, previous, operator⟩
  have count : (parse database line cursor).arguments.length =
      (Reading.ofCut (some known) (Cut.of line cursor)).arguments.length := by
    rw [parse_of_words database words, ← described]
  have classifies := parse_classifies database words
  rw [described] at classifies
  rw [count]
  generalize (parse database line cursor).context = context at classifies ⊢
  cases classifies with
  | glued => rfl
  | long running => simp [past] at running
  | short running => simp [past] at running
  | value option _ awaits => simpa [past] using awaits.running
  | redirection => rfl
  | subcommand _ own => exact absurd at_ own.apart
  | argument _ own => exact absurd at_ own.apart
  | guessed own => exact absurd at_ own.apart
  | position own => exact absurd at_ own.apart

/-- A word that names a subcommand can be replaced by any other name of the same subcommand: the line is parsed the
    same, but for the spelling in the path and for places, and the same is suggested. Only behind a word that is an
    operator, as it can be once two dashes have ended the options, the text under the cursor passes for the file of a
    redirection. -/
theorem parse_alias (database : Option Database)
    (described : database.bind (·.find? (parse database line cursor).command) = some known)
    (named : (Reading.counted (some known) Reading.path (Cut.of line cursor))[index]? = some name)
    (same : let level := known.childrenAt (known.resolve ((parse database line cursor).subcommandPath.take index))
      findSubcommand level spelling = findSubcommand level name.text)
    (plain : Bytes.IsPlainWord spelling) :
    let parsed := parse database line cursor
    let stop' := name.start + spelling.length
    let again := parse database (line.take name.start ++ spelling ++ line.drop name.stop)
      (stop' + (cursor - name.stop))
    let respelled := { parsed.moved name.stop stop' with subcommandPath := parsed.subcommandPath.set index spelling }
    let misread := Redirect.isOperator name.text ∧ (Cut.of line cursor).previous? = some name
    again = { respelled with context := again.context } ∧
      (¬ misread → again = respelled ∧ ∀ places directory,
        Suggestion.candidates places database directory again = Suggestion.candidates places database directory parsed) ∧
      (misread → Reading.EndsOptions (some known) ((Cut.of line cursor).complete.drop 1) ∧
        parsed.context = .argument parsed.arguments.length (some (.file []))) := by
  intro parsed stop' again respelled misread
  rw [parse_schema] at described
  obtain ⟨command, before, after, spelled, next, text, path, respells⟩ := Cut.respells_of described named same plain
  have operator : Redirect.isOperator spelled.text = false := text ▸ plain.operator
  have fields : again = { respelled with context := again.context } := by
    have fields := respells.parse_eq described
    rw [path, text] at fields
    exact fields
  refine ⟨fields, fun read => ?_, fun misread => ?_⟩
  · have context : again.context = parsed.context := by
      refine respells.context_eq described operator ?_
      by_contra directly
      obtain ⟨rfl, operator'⟩ : after = [] ∧ Redirect.isOperator name.text := by simpa using directly
      exact read ⟨operator', by simp [Cut.previous?, respells.complete]⟩
    have whole : again = respelled := by
      rw [fields, context]
      rfl
    refine ⟨whole, fun places directory => ?_⟩
    refine Suggestion.candidates_congr places database directory (by rw [whole]; rfl) context (by rw [whole]; rfl)
      (by rw [whole]; rfl) (by rw [whole]; simp [respelled, ParsedLine.moved]) ?_
    intro known' found
    obtain rfl : known = known' := by simpa [parsed, parse_schema, described] using found
    exact respells.resolve_eq described
  · obtain ⟨ended, redirection⟩ := operator_read_as_redirection described respells.complete respells.names misread.1
    exact ⟨ended, redirection misread.2⟩

end

/-- Another name of the innermost of two subcommands, with an argument typed behind it. -/
theorem parse_alias_remote :
    let database : Database := ⟨[Bundled.git], by decide⟩
    let line := utf8 "git remote remove ori"
    let parsed := parse (some database) line 21
    let again := parse (some database) (utf8 "git remote rm ori") 17
    let name : Token := ⟨utf8 "remove", 11, 17⟩
    let level := Bundled.git.childrenAt (Bundled.git.resolve (parsed.subcommandPath.take 1))
    database.find? parsed.command = some Bundled.git ∧
      (Reading.counted (some Bundled.git) Reading.path (Cut.of line 21))[1]? = some name ∧
      findSubcommand level (utf8 "rm") = findSubcommand level name.text ∧ Bytes.IsPlainWord (utf8 "rm") ∧
      again = { parsed.moved 17 13 with subcommandPath := parsed.subcommandPath.set 1 (utf8 "rm") } ∧
      ∀ places directory, Suggestion.candidates places (some database) directory again =
        Suggestion.candidates places (some database) directory parsed := by
  intro database line parsed again name level
  have described : database.find? parsed.command = some Bundled.git := by rfl
  have named : (Reading.counted (some Bundled.git) Reading.path (Cut.of line 21))[1]? = some name := by decide +kernel
  have same : findSubcommand level (utf8 "rm") = findSubcommand level name.text := by rfl
  have plain : Bytes.IsPlainWord (utf8 "rm") := ⟨by decide, by decide, by decide, by decide, by decide⟩
  have line' : line.take name.start ++ utf8 "rm" ++ line.drop name.stop = utf8 "git remote rm ori" := by decide
  have away : Redirect.isOperator name.text = false := by decide
  have alias_ := (parse_alias (some database) described named same plain).2.1 (by simp [away])
  rw [line'] at alias_
  exact ⟨described, named, same, plain, alias_⟩

/-- A subcommand with the name of an operator: behind it the text under the cursor is the file of a redirection,
    behind its alias an argument of no declared kind. -/
theorem alias_of_operator :
    let redirect : Subcommand := ⟨utf8 ">", none, [utf8 "gt"], [], [], []⟩
    let tool : Schema := ⟨utf8 "tool", none, [], [redirect], []⟩
    let database : Database := ⟨[tool], by decide⟩
    let line := utf8 "tool -- > "
    let name : Token := ⟨utf8 ">", 8, 9⟩
    let line' := line.take name.start ++ utf8 "gt" ++ line.drop name.stop
    (Reading.counted (some tool) Reading.path (Cut.of line 10))[0]? = some name ∧
      findSubcommand tool.subcommands (utf8 "gt") = findSubcommand tool.subcommands name.text ∧
      Bytes.IsPlainWord (utf8 "gt") ∧ (parse (some database) line 10).context = .argument 0 (some (.file [])) ∧
      (parse (some database) line' 11).context = .argument 0 none := by
  intro redirect tool database line name line'
  have plain : Bytes.IsPlainWord (utf8 "gt") := ⟨by decide, by decide, by decide, by decide, by decide⟩
  exact ⟨by decide +kernel, by rfl, plain, by decide +kernel, by decide +kernel⟩

end ShellCompletion
