import ShellCompletion.Proofs.Line.Replacing

/-!
# Lines that differ in their blanks

Without the places of its words (`ParsedLine.unplaced`) a parse is settled by the texts of the words up to the
cursor (`parse_unplaced`), and what it says of the word before the cursor by little more than whether that word
is an option with a value (`parse_alike`). So a line that lays out the same words with other blanks between them
is parsed the same, wherever the cursor stands in the same word or in the same gap (`parse_respaced`).
-/
namespace ShellCompletion

/-! ## Words without their places -/

/-- The token without its place on the line. -/
def Token.unplaced (token : Token) : Token := ⟨token.text, 0, 0⟩

@[simp] theorem Token.unplaced_text (token : Token) : token.unplaced.text = token.text := rfl

/-- What a parse says of a line apart from the offsets. -/
def ParsedLine.unplaced (parsed : ParsedLine) : ParsedLine :=
  { parsed with arguments := parsed.arguments.map Token.unplaced, replaceStart := 0, replaceStop := 0 }

namespace Reading

/-- The reading with its arguments at other places. -/
def placed (place : Token → Token) (reading : Reading) : Reading :=
  { reading with arguments := reading.arguments.map place }

/-- The reading without the places of its arguments. -/
def unplaced (reading : Reading) : Reading := { reading with arguments := reading.arguments.map Token.unplaced }

section
variable {place : Token → Token}

theorem takeArgument_placed (reading : Reading) (word : Token) :
    (reading.takeArgument word).placed place = (reading.placed place).takeArgument (place word) := by
  simp [takeArgument, placed]

variable (texts : ∀ token, (place token).text = token.text)
include texts

theorem takeWord_placed (schema : Option Schema) (reading : Reading) (word : Token) :
    (reading.takeWord schema word).placed place = (reading.placed place).takeWord schema (place word) := by
  have argument := @takeArgument_placed place reading word
  cases schema with
  | none =>
    simp only [takeWord, apply_ite (placed place), argument, texts]
    rfl
  | some known =>
    have children : (reading.placed place).children known = reading.children known := rfl
    cases found : findSubcommand (reading.children known) word.text with
    | none =>
      simp only [takeWord, apply_ite (placed place), argument, children, texts, found]
      rfl
    | some next =>
      simp only [takeWord, apply_ite (placed place), argument, children, texts, found]
      rfl

theorem step_placed (schema : Option Schema) (reading : Reading) (word : Token) :
    (reading.step schema word).placed place = (reading.placed place).step schema (place word) := by
  simp only [step, apply_ite (placed place), takeWord_placed texts, texts]
  rfl

theorem foldl_placed (schema : Option Schema) (reading : Reading) (words : List Token) :
    (words.foldl (step schema) reading).placed place = (words.map place).foldl (step schema) (reading.placed place) := by
  induction words generalizing reading with
  | nil => rfl
  | cons word words ih => rw [List.foldl_cons, ih, step_placed texts, List.map_cons, List.foldl_cons]

theorem stepCurrent_placed (reading : Reading) (word : Token) :
    (reading.stepCurrent word).placed place = (reading.placed place).stepCurrent (place word) := by
  simp only [stepCurrent, apply_ite (placed place), takeArgument_placed, texts]
  rfl

end

theorem foldl_unplaced (schema : Option Schema) (reading : Reading) (words : List Token) :
    (words.foldl (step schema) reading).unplaced =
      (words.map Token.unplaced).foldl (step schema) reading.unplaced :=
  foldl_placed Token.unplaced_text schema reading words

end Reading

/-! ## A parse without places -/

theorem map_unplaced_congr {words words' : List Token} (texts : words.map Token.text = words'.map Token.text) :
    words.map Token.unplaced = words'.map Token.unplaced := by
  have unplaced (words : List Token) :
      words.map Token.unplaced = (words.map Token.text).map fun text => ⟨text, 0, 0⟩ := by
    rw [List.map_map]
    rfl
  rw [unplaced, unplaced, texts]

/-- The context with another name for the option, if it is the value of one. -/
def Context.named (name : Bytes) : Context → Context
  | .optionValue _ type => .optionValue name type
  | other => other

/-- Of two words before the text under the cursor both make it the value of an option or neither, and both the
    file of a redirection or neither. -/
structure Scope.Alike (scope : Scope) (word word' : Bytes) : Prop where
  operator : Redirect.isOperator word = Redirect.isOperator word'
  written : isOptionWord word = isOptionWord word'
  takes : scope.takesValue word = scope.takesValue word'
  type : scope.valueType word = scope.valueType word'

theorem Scope.Alike.refl (scope : Scope) (word : Bytes) : scope.Alike word word := ⟨rfl, rfl, rfl, rfl⟩

/-- The text of the last complete word. -/
def Cut.last (cut : Cut) : Bytes := (cut.complete.getLast?.map Token.text).getD []

theorem Cut.last_eq {cut : Cut} {front : List Bytes} {last : Bytes}
    (texts : cut.complete.map Token.text = front ++ [last]) : cut.last = last := by
  rw [Cut.last, ← List.getLast?_map, texts, List.getLast?_concat]
  rfl

/-- Where the line before the cursor reads the same and ends in a word alike, only the name of the option that is
    awaited can differ. -/
theorem contextOf_alike (schema : Option Schema) {line line' : Bytes} {cut cut' : Cut} {reading reading' : Reading}
    (text : cut'.text = cut.text) (read : reading'.settled.unplaced = reading.settled.unplaced)
    (spaced : cut.Spaced line) (spaced' : cut'.Spaced line')
    (several : 2 ≤ cut'.complete.length ↔ 2 ≤ cut.complete.length)
    (alike : (reading.scope schema).Alike cut.last cut'.last) :
    contextOf schema line' cut' reading' = (contextOf schema line cut reading).named cut'.last := by
  have forget (line : Bytes) (cut : Cut) (reading : Reading) :
      contextOf schema line cut reading = contextOf schema line cut reading.settled.unplaced := by
    simp [contextOf, openPosition, Reading.unplaced, Reading.settled, Reading.scope, Reading.children,
      Function.comp_def]
  have scope : reading.settled.unplaced.scope schema = reading.scope schema := rfl
  rw [forget line', forget line, read]
  rw [← scope] at alike
  generalize reading.settled.unplaced = reading at alike
  obtain ⟨operator, written, takes, type⟩ := alike
  unfold Cut.last at operator written takes type ⊢
  unfold Cut.Spaced at spaced spaced'
  simp only [contextOf, text, several, spaced, spaced', ← operator, ← written, ← takes, ← type]
  cases schema with
  | none =>
    simp only [apply_ite (Context.named _)]
    rfl
  | some known =>
    simp only [apply_ite (Context.named _)]
    rfl

theorem Reading.ofCut_unplaced (schema : Option Schema) (cut : Cut) :
    (ofCut schema cut).settled.unplaced =
      ((ofComplete schema cut).unplaced.stepCurrent ⟨cut.text, 0, 0⟩).settled := by
  cases current : cut.current with
  | none =>
    have text : cut.text = [] := by simp [Cut.text, current]
    have same : ofCut schema cut = ofComplete schema cut := by simp [ofCut, current, ofComplete]
    rw [same, settled_stepCurrent text]
    rfl
  | some word =>
    have same : ofCut schema cut = (ofComplete schema cut).stepCurrent word := by
      simp [ofCut, current, ofComplete]
    have text : word.unplaced = ⟨cut.text, 0, 0⟩ := by rw [Cut.text_of_current current]; rfl
    rw [same, ← text]
    exact congrArg settled (stepCurrent_placed Token.unplaced_text (ofComplete schema cut) word)

theorem Reading.ofComplete_unplaced (schema : Option Schema) {cut cut' : Cut}
    (texts : cut'.complete.map Token.text = cut.complete.map Token.text) :
    (ofComplete schema cut').unplaced = (ofComplete schema cut).unplaced := by
  have words : (cut'.complete.drop 1).map Token.text = (cut.complete.drop 1).map Token.text := by
    rw [List.map_drop, List.map_drop, texts]
  rw [ofComplete, ofComplete, foldl_unplaced, foldl_unplaced, map_unplaced_congr words]

variable {database : Option Database} {line line' : Bytes} {cursor cursor' : Nat}

/-- Lines with the same command and the same text under the cursor, whose words before it read the same and end in
    words alike, are parsed the same but for places, the number of words, and the name of an awaited option. -/
theorem parse_alike (database : Option Database) (words : (Cut.of line cursor).complete ≠ [])
    (words' : (Cut.of line' cursor').complete ≠ [])
    (command : (Cut.of line' cursor').command = (Cut.of line cursor).command)
    (text : (Cut.of line' cursor').text = (Cut.of line cursor).text)
    (several : 2 ≤ (Cut.of line' cursor').complete.length ↔ 2 ≤ (Cut.of line cursor).complete.length)
    (read : let schema := (Cut.of line cursor).schema? database
      (Reading.ofComplete schema (Cut.of line' cursor')).unplaced =
        (Reading.ofComplete schema (Cut.of line cursor)).unplaced)
    (alike : let schema := (Cut.of line cursor).schema? database
      ((Reading.ofCut schema (Cut.of line cursor)).scope schema).Alike (Cut.of line cursor).last
        (Cut.of line' cursor').last) :
    (parse database line' cursor').unplaced =
      { (parse database line cursor).unplaced with
        context := (parse database line cursor).context.named (Cut.of line' cursor').last
        cursorIndex := (Cut.of line' cursor').complete.length } := by
  have schema : (Cut.of line' cursor').schema? database = (Cut.of line cursor).schema? database := by
    rw [Cut.schema?, command]
    rfl
  have same : (Reading.ofCut ((Cut.of line cursor).schema? database) (Cut.of line' cursor')).settled.unplaced =
      (Reading.ofCut ((Cut.of line cursor).schema? database) (Cut.of line cursor)).settled.unplaced := by
    rw [Reading.ofCut_unplaced, Reading.ofCut_unplaced, read, text]
  have context := contextOf_alike _ text same (Cut.spaced_of words) (Cut.spaced_of words') several alike
  have fields := congrArg (fun reading : Reading =>
    (reading.path, reading.options, reading.arguments, reading.optionsEnded)) same
  simp only [Reading.settled, Reading.unplaced, Prod.mk.injEq] at fields
  obtain ⟨path, options, arguments, ended⟩ := fields
  have count := congrArg List.length arguments
  rw [List.length_map, List.length_map] at count
  have glued : (Cut.of line' cursor').glued
        (Reading.ofCut ((Cut.of line cursor).schema? database) (Cut.of line' cursor')) =
      (Cut.of line cursor).glued (Reading.ofCut ((Cut.of line cursor).schema? database) (Cut.of line cursor)) := by
    simp only [Cut.glued, text, ended]
  rw [parse_of_words database words, parse_of_words database words']
  simp only [ParsedLine.unplaced, schema, command, text, path, options, arguments, count, glued, context,
    apply_ite (Context.named _)]
  rfl

/-- Apart from places a parse is settled by the texts of the words up to the cursor. -/
theorem parse_unplaced (database : Option Database)
    (command : (Cut.of line' cursor').command = (Cut.of line cursor).command)
    (texts : (Cut.of line' cursor').complete.map Token.text = (Cut.of line cursor).complete.map Token.text)
    (text : (Cut.of line' cursor').text = (Cut.of line cursor).text) :
    (parse database line' cursor').unplaced = (parse database line cursor).unplaced := by
  have length : (Cut.of line' cursor').complete.length = (Cut.of line cursor).complete.length := by
    simpa using congrArg List.length texts
  by_cases first : (Cut.of line cursor).complete = []
  · have first' : (Cut.of line' cursor').complete = [] := by simpa [first] using texts
    rw [parse_of_first database first, parse_of_first database first', command, text]
    rfl
  · have first' : (Cut.of line' cursor').complete ≠ [] := by
      rintro none_
      exact first (List.length_eq_zero_iff.mp (by simpa [none_] using length.symm))
    have last : (Cut.of line' cursor').last = (Cut.of line cursor).last := by
      rw [Cut.last, Cut.last, ← List.getLast?_map, ← List.getLast?_map, texts]
    have other := parse_alike database first first' command text (by rw [length]) (Reading.ofComplete_unplaced _ texts)
      (last ▸ .refl _ _)
    have self := parse_alike database first first rfl rfl .rfl rfl (.refl _ _)
    rw [other, last, length]
    exact self.symm

/-! ## The same words with other blanks -/

/-- The bytes are blanks. -/
def Bytes.AreBlanks (gap : Bytes) : Prop := ∀ c ∈ gap, Bytes.isBlank c

/-- The line is the words in their order, with runs of blanks before, between and after them: whatever follows a
    word starts with a blank that no quote of the word takes in. -/
inductive Lays : List Bytes → Bytes → Prop
  | blanks {gap : Bytes} : gap.AreBlanks → Lays [] gap
  | word {gap text rest : Bytes} {texts : List Bytes} : gap.AreBlanks → Lays texts rest →
      (rest ≠ [] → (∀ c ∈ rest.head?, Bytes.isBlank c) ∧ Quoting.bare.after text = .bare) →
      Lays (text :: texts) (gap ++ text ++ rest)

theorem words_separated {s t : Bytes} {c : UInt8} (bare : Quoting.bare.after s = .bare) (blank : Bytes.isBlank c) :
    words (s ++ c :: t) = words s ++ words t := by
  rw [words, tokenize_separated bare blank, List.map_append, List.map_map]
  rfl

theorem words_blanks_append {gap : Bytes} (blanks : gap.AreBlanks) (line : Bytes) :
    words (gap ++ line) = words line := by
  induction gap with
  | nil => rfl
  | cons c gap ih =>
    rw [List.cons_append, ← List.nil_append (c :: (gap ++ line)), words_separated rfl (blanks c List.mem_cons_self),
      ih fun c member => blanks c (List.mem_cons_of_mem _ member)]
    rfl

theorem Bytes.AreBlanks.after_eq {gap : Bytes} (blanks : gap.AreBlanks) : Quoting.bare.after gap = .bare := by
  induction gap with
  | nil => rfl
  | cons c gap ih =>
    rw [Quoting.after, List.foldl_cons, Quoting.feed_blank (blanks c List.mem_cons_self)]
    exact ih fun c member => blanks c (List.mem_cons_of_mem _ member)

/-- Words that close their quotes leave none open on the line that lays them out. -/
theorem Lays.after_eq {texts : List Bytes} {line : Bytes} (lays : Lays texts line)
    (closed : ∀ text ∈ texts, Quoting.bare.after text = .bare) : Quoting.bare.after line = .bare := by
  induction lays with
  | blanks blanks => exact blanks.after_eq
  | word blanks _ _ ih =>
    rw [Quoting.after_append, Quoting.after_append, blanks.after_eq, closed _ List.mem_cons_self]
    exact ih fun text member => closed text (List.mem_cons_of_mem _ member)

/-- Words that are laid out so are the words of the line. -/
theorem words_of_lays {texts : List Bytes} {line : Bytes} (lays : Lays texts line)
    (whole : ∀ text ∈ texts, text ≠ [] ∧ Quoting.bare.Joins text) : words line = texts := by
  induction lays with
  | @blanks gap blanks =>
    have alone := words_blanks_append blanks []
    rwa [List.append_nil] at alone
  | @word gap text rest texts blanks _ ends ih =>
    obtain ⟨typed, joins⟩ := whole text List.mem_cons_self
    have later := ih fun text member => whole text (List.mem_cons_of_mem _ member)
    rw [List.append_assoc, words_blanks_append blanks]
    cases rest with
    | nil =>
      rw [List.append_nil, words, tokenize_joined joins typed, ← later]
      rfl
    | cons c rest =>
      obtain ⟨blank, bare⟩ := ends (by simp)
      have one : words text = [text] := by rw [words, tokenize_joined joins typed]; rfl
      have after : words (c :: rest) = words rest := by
        rw [← List.singleton_append, words_blanks_append (by simpa [Bytes.AreBlanks] using blank)]
      rw [words_separated bare (blank c rfl), one, ← after, later]
      rfl

theorem SeparatesAt.of_take {line : Bytes} {stop offset : Nat} (before : offset < stop)
    (separates : SeparatesAt (line.take stop) offset) : SeparatesAt line offset := by
  obtain ⟨c, at_, blank⟩ := separates
  rw [List.take_take, Nat.min_eq_left (Nat.le_of_lt before)] at blank
  exact ⟨c, by rwa [List.getElem?_take_of_lt before] at at_, blank⟩

theorem Token.Within.take_stop {line : Bytes} {token : Token} (within : token.Within line) :
    line.take token.stop = line.take token.start ++ token.text := by
  have ordered := Nat.min_eq_left (Nat.le_of_lt within.nonempty)
  rw [within.text_eq, ← ordered, ← List.take_take, ordered, List.take_append_drop]

theorem joins_of_mem_words {line text : Bytes} (member : text ∈ words line) :
    text ≠ [] ∧ Quoting.bare.Joins text := by
  obtain ⟨token, inside, rfl⟩ := List.mem_map.mp member
  have within := tokenize_within line token inside
  have nonempty := within.nonempty
  have stops := within.inside
  have whole := within.take_stop
  refine ⟨within.text_ne_nil, ?_⟩
  by_contra splits
  rw [← within.fresh] at splits
  obtain ⟨offset, past, before, separates⟩ := separatesAt_of_not_joins splits
  rw [← whole, List.length_take] at before
  rw [List.length_take] at past
  rw [← whole] at separates
  exact (tokenize_isTokenization line).within token inside offset ⟨by omega, by omega⟩ (separates.of_take (by omega))

/-- Before the first word and between the words of a line stand blanks only. -/
theorem isBlank_of_free {line : Bytes} {offset : Nat} {c : UInt8} (at_ : (line)[offset]? = some c)
    (free : ∀ token ∈ tokenize line, ¬ token.Covers offset) :
    Quoting.bare.after (line.take offset) = .bare ∧ Bytes.isBlank c := by
  obtain ⟨inside, _⟩ := List.getElem?_eq_some_iff.mp at_
  obtain ⟨c', at', plain, blank⟩ := (tokenize_isTokenization line).outside offset inside free
  obtain rfl : c = c' := Option.some.inj (at_.symm.trans at')
  exact ⟨(Quoting.feed_plain plain).1, blank⟩

/-- Behind a word the line ends or goes on with an unquoted blank. -/
theorem blank_after_word {line : Bytes} {token : Token} {before after : List Token}
    (parts : tokenize line = before ++ token :: after) {c : UInt8} {rest : Bytes}
    (goes : line.drop token.stop = c :: rest) :
    Quoting.bare.after (line.take token.stop) = .bare ∧ Bytes.isBlank c := by
  have around := tokenize_around parts
  have at_ : (line)[token.stop]? = some c := by rw [← List.head?_drop, goes]; rfl
  refine isBlank_of_free at_ fun run held covers => ?_
  obtain ⟨starts, stops⟩ := covers
  rw [parts] at held
  rcases List.mem_append.mp held with earlier | held
  · have := around.1 run earlier
    have := (tokenize_within line token (by simp [parts])).nonempty
    omega
  · rcases List.mem_cons.mp held with rfl | later
    · omega
    · have := around.2 run later
      omega

section
variable {line : Bytes} {token : Token} {more : List Token} (parts : tokenize line = token :: more)
include parts

theorem blanks_before_first : Bytes.AreBlanks (line.take token.start) := by
  have around := @tokenize_around line [] more token parts
  have nonempty := (tokenize_within line token (by simp [parts])).nonempty
  intro c member
  obtain ⟨offset, at_⟩ := List.mem_iff_getElem?.mp member
  obtain ⟨inside, _⟩ := List.getElem?_eq_some_iff.mp at_
  rw [List.length_take] at inside
  rw [List.getElem?_take_of_lt (by omega)] at at_
  refine (isBlank_of_free at_ fun run held covers => ?_).2
  have starts := covers.1
  rw [parts] at held
  rcases List.mem_cons.mp held with rfl | later
  · omega
  · have := around.2 run later
    omega

theorem words_drop_stop : words (line.drop token.stop) = more.map Token.text := by
  have within := tokenize_within line token (by simp [parts])
  have member : token.text ∈ words line := by simp [words, parts]
  obtain ⟨typed, joins⟩ := joins_of_mem_words member
  have first : words (line.take token.stop) = [token.text] := by
    rw [within.take_stop, words_blanks_append (blanks_before_first parts), words, tokenize_joined joins typed]
    rfl
  have all : words line = token.text :: more.map Token.text := by rw [words, parts]; rfl
  have split := List.take_append_drop token.stop line
  cases goes : line.drop token.stop with
  | nil =>
    rw [goes, List.append_nil] at split
    rw [← split, first] at all
    exact (List.cons.inj all).2
  | cons c rest =>
    obtain ⟨bare, blank⟩ := @blank_after_word line token [] more parts c rest goes
    rw [goes] at split
    rw [← split, words_separated bare blank, first] at all
    have alone : Bytes.AreBlanks [c] := by simpa [Bytes.AreBlanks] using blank
    rw [← List.singleton_append, words_blanks_append alone]
    exact (List.cons.inj all).2

end

/-- A line lays out its own words. -/
theorem lays_words (line : Bytes) : Lays (words line) line := by
  cases parts : tokenize line with
  | nil =>
    rw [words, parts]
    refine .blanks fun c member => ?_
    obtain ⟨offset, at_⟩ := List.mem_iff_getElem?.mp member
    exact (isBlank_of_free at_ (by simp [parts])).2
  | cons token more =>
    have within := tokenize_within line token (by simp [parts])
    have nonempty := within.nonempty
    have stops := within.inside
    have later := lays_words (line.drop token.stop)
    rw [words_drop_stop parts] at later
    have whole : Lays (token.text :: more.map Token.text) _ := .word (blanks_before_first parts) later fun follows => by
      obtain ⟨c, rest, goes⟩ := List.exists_cons_of_ne_nil follows
      obtain ⟨bare, blank⟩ := @blank_after_word line token [] more parts c rest goes
      rw [within.take_stop, Quoting.after_append, within.fresh] at bare
      exact ⟨by simpa [goes] using blank, bare⟩
    rw [← within.take_stop, List.take_append_drop] at whole
    rwa [words, parts]
termination_by line.length
decreasing_by rw [List.length_drop]; omega

/-- A line lays out the words of another one exactly if it has the same words. -/
theorem lays_words_iff {line line' : Bytes} : Lays (words line) line' ↔ words line' = words line :=
  ⟨fun lays => words_of_lays lays fun _ => joins_of_mem_words, fun same => same ▸ lays_words line'⟩

/-! ## Where the cursor stands -/

/-- A place among the words of a line. -/
inductive Place where
  /-- In or at the word of that number, after so many of its bytes. -/
  | inside (index offset : Nat)
  /-- In the gap before the word of that number, or before the end of the line. -/
  | gap (index : Nat)
deriving DecidableEq, Repr

namespace Place

/-- The number of words before the place. -/
def index : Place → Nat
  | inside index _ | gap index => index

/-- What has been typed at the place of the word it stands in. -/
def typed (words : List Bytes) : Place → Bytes
  | inside index offset => (words[index]?.getD []).take offset
  | gap _ => []

end Place

/-- The cursor stands at the place. One in a gap has a blank before it, unless the line starts there, and may be
    at the first byte of the next word as well. -/
def StandsAt (line : Bytes) (cursor : Nat) : Place → Prop
  | .inside index offset => ∃ token, (tokenize line)[index]? = some token ∧ offset ≤ token.text.length ∧
      min cursor line.length = token.start + offset
  | .gap index => (∀ token ∈ (tokenize line).take index, token.stop < min cursor line.length) ∧
      ∀ token ∈ (tokenize line).drop index, min cursor line.length ≤ token.start

theorem cut_command (line : Bytes) (cursor : Nat) : (Cut.of line cursor).command = (words line).head?.getD [] := by
  simp [Cut.of, words]

theorem cut_standsAt {line : Bytes} {cursor : Nat} {place : Place} (stands : StandsAt line cursor place) :
    (Cut.of line cursor).complete = (tokenize line).take place.index ∧
      (Cut.of line cursor).text = place.typed (words line) := by
  cases place with
  | gap index =>
    obtain ⟨early, late⟩ := stands
    have stops : ∀ token ∈ (tokenize line).drop index, (Cut.of line cursor).cursor ≤ token.stop := by
      intro token member
      have starts := late token member
      have nonempty := (tokenize_within line token (List.mem_of_mem_drop member)).nonempty
      rw [Cut.of_cursor]
      omega
    obtain ⟨complete, rest⟩ := Cut.divide cursor (List.take_append_drop index (tokenize line)).symm early stops
    have start : (Cut.of line cursor).start = (Cut.of line cursor).cursor := by
      cases current : (Cut.of line cursor).current with
      | none => simp [Cut.start, current]
      | some word =>
        obtain ⟨token, after, split, starts⟩ := Cut.rest_of_current current
        have member : token ∈ (tokenize line).drop index := by rw [← rest, split]; exact List.mem_cons_self
        have past : (Cut.of line cursor).cursor ≤ token.start := late token member
        rw [Cut.start, Cut.current_of_rest split starts]
        exact Nat.le_antisymm starts past
    have text := (Cut.text_eq line cursor).2
    rw [start] at text
    refine ⟨complete, text.trans (List.drop_eq_nil_of_le ?_)⟩
    rw [List.length_take]
    exact Nat.le_refl _
  | inside index offset =>
    obtain ⟨token, at_, within, cursor_eq⟩ := stands
    obtain ⟨inside, rfl⟩ := List.getElem?_eq_some_iff.mp at_
    have parts : tokenize line =
        (tokenize line).take index ++ (tokenize line)[index] :: (tokenize line).drop (index + 1) := by
      rw [← List.drop_eq_getElem_cons inside, List.take_append_drop]
    have word := tokenize_within line _ (List.getElem_mem inside)
    have length := word.text_length
    have nonempty := word.nonempty
    have cursors : (Cut.of line cursor).cursor = (tokenize line)[index].start + offset := cursor_eq
    obtain ⟨complete, rest⟩ := Cut.divide_at parts (by omega : _ ≤ (Cut.of line cursor).cursor) (by omega)
    refine ⟨complete, ?_⟩
    have current : (Cut.of line cursor).current = some ((tokenize line)[index].upTo (Cut.of line cursor).cursor) := by
      rw [Cut.current_eq, rest, List.head?_cons, Option.filter_some, if_pos (by simp [cursors]), Option.map_some]
    rw [Cut.text_of_current current, Token.upTo, cursors, Nat.add_sub_cancel_left]
    simp [Place.typed, words, inside]

/-- Lines that differ only in the runs of unquoted blanks before, between and after their words are parsed the same
    apart from the offsets, if the cursor stands in the same word at the same byte, or in the same gap. -/
theorem parse_respaced (database : Option Database) {line line' : Bytes} {cursor cursor' : Nat} {place : Place}
    (lays : Lays (words line) line') (stands : StandsAt line cursor place) (stands' : StandsAt line' cursor' place) :
    (parse database line' cursor').unplaced = (parse database line cursor).unplaced := by
  have same : words line' = words line := lays_words_iff.mp lays
  obtain ⟨complete, text⟩ := cut_standsAt stands
  obtain ⟨complete', text'⟩ := cut_standsAt stands'
  refine parse_unplaced database ?_ ?_ ?_
  · rw [cut_command, cut_command, same]
  · rw [complete, complete', List.map_take, List.map_take]
    exact congrArg (List.take place.index) same
  · rw [text, text', same]

/-- Between two words it makes no difference how far from either the cursor stands. -/
theorem parse_respaced_gap :
    let line := utf8 "git commit  -m 'a b'"
    let line' := utf8 "\tgit\n commit -m   'a b' "
    Lays (words line) line' ∧ StandsAt line 11 (.gap 2) ∧ StandsAt line' 13 (.gap 2) ∧
      (parse none line' 13).unplaced = (parse none line 11).unplaced := by
  intro line line'
  have lays : Lays (words line) line' := lays_words_iff.mpr (by decide)
  have stands : StandsAt line 11 (.gap 2) := ⟨by decide, by decide⟩
  have stands' : StandsAt line' 13 (.gap 2) := ⟨by decide, by decide⟩
  exact ⟨lays, stands, stands', parse_respaced none lays stands stands'⟩

end ShellCompletion
