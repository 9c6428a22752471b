import Mathlib.Data.List.Forall2
import ShellCompletion.Proofs.Line.Arguments

/-!
# What each word of a line counts as

A word counts for a list of the reading where the list grows as the word is read (`growth`, `counted`).
A word lets at most one list grow (`step_counts`), and an argument ends the subcommands
(`growth_path_before`). So the subcommands, options and arguments of a parsed line come from words of their
own, in the order of the line (`parse_accounts`).
-/
namespace ShellCompletion

namespace Reading

variable {schema : Option Schema} {reading : Reading} {word : Token} {words : List Token} {α β : Type}

/-! ## What one word adds -/

/-- What a complete word counts as, in terms of the lists that it adds to. -/
inductive Counts (schema : Option Schema) (reading : Reading) (word : Token) (next : Reading) : Prop
  | nothing : next.path = reading.path → next.options = reading.options →
      next.arguments = reading.arguments → Counts schema reading word next
  | subcommand : next.path = reading.path ++ [word.text] → next.options = reading.options →
      next.arguments = reading.arguments → reading.subcommandsClosed = false →
      (schema = none → reading.path.length < maxGuessedSubcommands ∧ looksLikeSubcommand word.text) →
      Counts schema reading word next
  | option : next.path = reading.path → next.options = reading.options ++ (reading.scope schema).flags word.text →
      next.arguments = reading.arguments → word.text.head? = some '-'.toUInt8 →
      (schema = none → next.subcommandsClosed = true) → Counts schema reading word next
  | argument : next.path = reading.path → next.options = reading.options →
      next.arguments = reading.arguments ++ [word] → next.subcommandsClosed = true →
      Counts schema reading word next

theorem step_counts (schema : Option Schema) (reading : Reading) (word : Token) :
    Counts schema reading word (reading.step schema word) := by
  have takes := step_takes schema reading word
  generalize reading.step schema word = next at takes ⊢
  cases takes with
  | owed => exact .nothing rfl rfl rfl
  | operator => exact .nothing rfl rfl rfl
  | glued => exact .nothing rfl rfl rfl
  | dashes => exact .nothing rfl rfl rfl
  | option _ _ _ _ _ dash => exact .option rfl rfl rfl dash (by rintro rfl; simp [takeOption])
  | subcommand known _ _ _ open_ is => exact .subcommand rfl rfl rfl open_ (by simp [is])
  | guessed _ _ open_ _ room looks => exact .subcommand rfl rfl rfl open_ fun _ => ⟨room, looks⟩
  | argument => exact .argument rfl rfl rfl rfl

/-- A list of the reading has grown. -/
def Grows (list : Reading → List α) (before after : Reading) : Prop := (list before).length < (list after).length

instance (list : Reading → List α) (before after : Reading) : Decidable (Grows list before after) :=
  inferInstanceAs (Decidable (_ < _))

theorem not_grows_of_eq {list : Reading → List α} {before after : Reading} (same : list after = list before) :
    ¬ Grows list before after := by
  simp [Grows, same]

/-- Of two lists no word lets both grow. -/
def Exclusive (schema : Option Schema) (list : Reading → List α) (other : Reading → List β) : Prop :=
  ∀ reading word, Grows list reading (step schema reading word) → ¬ Grows other reading (step schema reading word)

theorem step_leaves (schema : Option Schema) (reading : Reading) (word : Token) :
    (reading.step schema word).path = reading.path ∧ (reading.step schema word).options = reading.options ∨
      (reading.step schema word).path = reading.path ∧ (reading.step schema word).arguments = reading.arguments ∨
      (reading.step schema word).options = reading.options ∧
        (reading.step schema word).arguments = reading.arguments := by
  rcases step_counts schema reading word with
    ⟨path, options, _⟩ | ⟨_, options, arguments, _, _⟩ | ⟨path, _, arguments, _, _⟩ | ⟨path, options, _, _⟩
  · exact .inl ⟨path, options⟩
  · exact .inr (.inr ⟨options, arguments⟩)
  · exact .inr (.inl ⟨path, arguments⟩)
  · exact .inl ⟨path, options⟩

theorem exclusive_path_options (schema : Option Schema) : Exclusive schema path options := by
  intro reading word grows
  rcases step_leaves schema reading word with ⟨_, options⟩ | ⟨path, _⟩ | ⟨options, _⟩
  · exact not_grows_of_eq options
  · exact absurd grows (not_grows_of_eq path)
  · exact not_grows_of_eq options

theorem exclusive_path_arguments (schema : Option Schema) : Exclusive schema path arguments := by
  intro reading word grows
  rcases step_leaves schema reading word with ⟨path, _⟩ | ⟨_, arguments⟩ | ⟨_, arguments⟩
  · exact absurd grows (not_grows_of_eq path)
  · exact not_grows_of_eq arguments
  · exact not_grows_of_eq arguments

theorem exclusive_options_arguments (schema : Option Schema) : Exclusive schema options arguments := by
  intro reading word grows
  rcases step_leaves schema reading word with ⟨_, options⟩ | ⟨_, arguments⟩ | ⟨_, arguments⟩
  · exact absurd grows (not_grows_of_eq options)
  · exact not_grows_of_eq arguments
  · exact not_grows_of_eq arguments

/-! ## The words at which a list grows -/

/-- The words at which a list of the reading grows, as one after the other is read. -/
def growth (schema : Option Schema) (list : Reading → List α) : Reading → List Token → List Token
  | _, [] => []
  | reading, word :: words =>
    if Grows list reading (reading.step schema word) then
      word :: growth schema list (reading.step schema word) words
    else growth schema list (reading.step schema word) words

theorem growth_sublist (list : Reading → List α) (reading : Reading) (words : List Token) :
    (growth schema list reading words).Sublist words := by
  induction words generalizing reading with
  | nil => exact .slnil
  | cons word words ih =>
    rw [growth]
    split_ifs
    · exact (ih _).cons_cons word
    · exact (ih _).cons word

theorem grows_of_mem {list : Reading → List α} (member : word ∈ growth schema list reading words) :
    ∃ before, Grows list before (before.step schema word) := by
  induction words generalizing reading with
  | nil => simp [growth] at member
  | cons first words ih =>
    rw [growth] at member
    split_ifs at member with grows
    · rcases List.mem_cons.mp member with rfl | later
      · exact ⟨reading, grows⟩
      · exact ih later
    · exact ih member

/-- Before each of these words the list has grown at those that stand before it. -/
theorem growth_getElem? {list : Reading → List α} {index : Nat}
    (at_ : (growth schema list reading words)[index]? = some word) :
    ∃ before after, words = before ++ word :: after ∧ (growth schema list reading before).length = index ∧
      Grows list (before.foldl (step schema) reading) ((before.foldl (step schema) reading).step schema word) := by
  induction words generalizing reading index with
  | nil => simp [growth] at at_
  | cons first words ih =>
    rw [growth] at at_
    split_ifs at at_ with grows
    · cases index with
      | zero =>
        obtain rfl : first = word := by simpa using at_
        exact ⟨[], words, rfl, rfl, grows⟩
      | succ index =>
        obtain ⟨before, after, rfl, count, here⟩ := ih at_
        exact ⟨first :: before, after, rfl, by rw [growth, if_pos grows, List.length_cons, count], here⟩
    · obtain ⟨before, after, rfl, count, here⟩ := ih at_
      exact ⟨first :: before, after, rfl, by rw [growth, if_neg grows, count], here⟩

/-- Where a word adds at most one entry to a list, the list holds those of the words at which it grows. -/
theorem foldl_growth {list : Reading → List α} (entry : Token → α)
    (adds : ∀ reading word, list (step schema reading word) = list reading ∨
      list (step schema reading word) = list reading ++ [entry word]) (reading : Reading) (words : List Token) :
    list (words.foldl (step schema) reading) = list reading ++ (growth schema list reading words).map entry := by
  induction words generalizing reading with
  | nil => simp [growth]
  | cons word words ih =>
    rw [List.foldl_cons, ih, growth]
    rcases adds reading word with same | more
    · simp [not_grows_of_eq same, same]
    · simp [Grows, more]

theorem foldl_path (schema : Option Schema) (reading : Reading) (words : List Token) :
    (words.foldl (step schema) reading).path =
      reading.path ++ (growth schema path reading words).map Token.text := by
  refine foldl_growth Token.text (fun reading word => ?_) reading words
  rcases step_counts schema reading word with ⟨path, _, _⟩ | ⟨path, _, _, _, _⟩ | ⟨path, _, _, _, _⟩ | ⟨path, _, _, _⟩
  · exact .inl path
  · exact .inr path
  · exact .inl path
  · exact .inl path

theorem foldl_arguments_eq (schema : Option Schema) (reading : Reading) (words : List Token) :
    (words.foldl (step schema) reading).arguments = reading.arguments ++ growth schema arguments reading words := by
  simpa using foldl_growth id (step_arguments schema) reading words

/-- Every option comes from a word at which the options grow: it is one of the flags of that word. -/
theorem foldl_options {option : Bytes} (member : option ∈ (words.foldl (step schema) reading).options) :
    option ∈ reading.options ∨
      ∃ word ∈ growth schema options reading words, ∃ scope : Scope, option ∈ scope.flags word.text := by
  induction words generalizing reading with
  | nil => exact .inl member
  | cons word words ih =>
    have keep : ∀ later ∈ growth schema options (reading.step schema word) words,
        later ∈ growth schema options reading (word :: words) := by
      intro later grown
      rw [growth]
      split_ifs
      · exact List.mem_cons_of_mem word grown
      · exact grown
    rcases ih member with before | ⟨later, grown, gives⟩
    · rcases step_counts schema reading word with
        ⟨_, same, _⟩ | ⟨_, same, _, _, _⟩ | ⟨_, more, _, _, _⟩ | ⟨_, same, _, _⟩
      · exact .inl (same ▸ before)
      · exact .inl (same ▸ before)
      · rw [more] at before
        rcases List.mem_append.mp before with earlier | here
        · exact .inl earlier
        · have grows : Grows options reading (reading.step schema word) := by
            simpa [Grows, more] using List.length_pos_of_mem here
          exact .inr ⟨word, by rw [growth, if_pos grows]; exact List.mem_cons_self, _, here⟩
      · exact .inl (same ▸ before)
    · exact .inr ⟨later, keep later grown, gives⟩

/-! ## Words in the order of the line -/

/-- The words start one after the other. -/
def Ordered (words : List Token) : Prop := words.Pairwise (fun word later => word.start < later.start)

theorem growth_apart {list : Reading → List α} {other : Reading → List β} (exclusive : Exclusive schema list other)
    (ordered : Ordered words) (reading : Reading) :
    ∀ a ∈ growth schema list reading words, ∀ b ∈ growth schema other reading words, a.start ≠ b.start := by
  induction words generalizing reading with
  | nil => simp [growth]
  | cons word words ih =>
    obtain ⟨first, rest⟩ := List.pairwise_cons.mp ordered
    have apart := ih rest (reading.step schema word)
    intro a inList b inOther
    rw [growth] at inList inOther
    split_ifs at inList inOther with grows grows'
    · exact absurd grows' (exclusive reading word grows)
    · rcases List.mem_cons.mp inList with rfl | inList
      · exact Nat.ne_of_lt (first b ((growth_sublist _ _ _).subset inOther))
      · exact apart a inList b inOther
    · rcases List.mem_cons.mp inOther with rfl | inOther
      · exact (Nat.ne_of_lt (first a ((growth_sublist _ _ _).subset inList))).symm
      · exact apart a inList b inOther
    · exact apart a inList b inOther

theorem growth_path_of_closed (closed : reading.subcommandsClosed = true) (words : List Token) :
    growth schema path reading words = [] := by
  have same := (foldl_closed schema words closed).1
  rw [foldl_path] at same
  simpa using same

/-- The words that name subcommands stand before every word at which a list grows that ends them. -/
theorem growth_path_before {list : Reading → List α} (exclusive : Exclusive schema path list)
    (ends : ∀ reading word, Grows list reading (step schema reading word) →
      (step schema reading word).subcommandsClosed = true)
    (ordered : Ordered words) (reading : Reading) :
    ∀ name ∈ growth schema path reading words, ∀ b ∈ growth schema list reading words, name.start < b.start := by
  induction words generalizing reading with
  | nil => simp [growth]
  | cons word words ih =>
    obtain ⟨first, rest⟩ := List.pairwise_cons.mp ordered
    intro name inPath b inList
    rw [growth] at inPath inList
    -- Once the list has grown the subcommands are closed, so a name is at the head or behind no such word.
    split_ifs at inPath inList with named grows grows
    · exact absurd grows (exclusive reading word named)
    · rcases List.mem_cons.mp inPath with rfl | inPath
      · exact first b ((growth_sublist _ _ _).subset inList)
      · exact ih rest _ name inPath b inList
    · simp [growth_path_of_closed (ends reading word grows)] at inPath
    · exact ih rest _ name inPath b inList

theorem ends_of_argument (reading : Reading) (word : Token)
    (grows : Grows arguments reading (reading.step schema word)) :
    (reading.step schema word).subcommandsClosed = true := by
  rcases step_counts schema reading word with
    ⟨_, _, same⟩ | ⟨_, _, same, _, _⟩ | ⟨_, _, same, _, _⟩ | ⟨_, _, _, closed⟩
  · exact absurd grows (not_grows_of_eq same)
  · exact absurd grows (not_grows_of_eq same)
  · exact absurd grows (not_grows_of_eq same)
  · exact closed

/-- While a subcommand may come there are no arguments. -/
theorem arguments_of_open (words : List Token)
    (open_ : (words.foldl (step schema) {}).subcommandsClosed = false) :
    (words.foldl (step schema) {}).arguments = [] := by
  induction words using List.reverseRecOn with
  | nil => rfl
  | append_singleton words word ih =>
    rw [List.foldl_append, List.foldl_cons, List.foldl_nil] at open_ ⊢
    generalize words.foldl (step schema) {} = reading at *
    have before : reading.subcommandsClosed = false := by
      by_contra closed
      have still := (step_closed schema word (by simpa using closed)).1
      simp [open_] at still
    rcases step_arguments schema reading word with same | more
    · rw [same, ih before]
    · have grows : Grows arguments reading (reading.step schema word) := by simp [Grows, more]
      have closed := ends_of_argument reading word grows
      simp [open_] at closed

theorem of_grows_options (grows : Grows options reading (reading.step schema word)) :
    word.text.head? = some '-'.toUInt8 ∧ (schema = none → (reading.step schema word).subcommandsClosed = true) := by
  rcases step_counts schema reading word with
    ⟨_, same, _⟩ | ⟨_, same, _, _, _⟩ | ⟨_, _, _, dash, closed⟩ | ⟨_, same, _, _⟩
  · exact absurd grows (not_grows_of_eq same)
  · exact absurd grows (not_grows_of_eq same)
  · exact ⟨dash, closed⟩
  · exact absurd grows (not_grows_of_eq same)

theorem of_grows_path (grows : Grows path reading (reading.step none word)) :
    reading.path.length < maxGuessedSubcommands ∧ looksLikeSubcommand word.text := by
  rcases step_counts none reading word with
    ⟨same, _, _⟩ | ⟨_, _, _, _, guessed⟩ | ⟨same, _, _, _, _⟩ | ⟨same, _, _, _⟩
  · exact absurd grows (not_grows_of_eq same)
  · exact guessed rfl
  · exact absurd grows (not_grows_of_eq same)
  · exact absurd grows (not_grows_of_eq same)

theorem growth_path_length (reading : Reading) (words : List Token)
    (few : reading.path.length ≤ maxGuessedSubcommands) :
    reading.path.length + (growth none path reading words).length ≤ maxGuessedSubcommands := by
  induction words generalizing reading with
  | nil => simpa [growth] using few
  | cons word words ih =>
    have step := foldl_path none reading [word]
    simp only [List.foldl_cons, List.foldl_nil, growth] at step
    rw [growth]
    split_ifs at step ⊢ with grows
    · have room := (of_grows_path grows).1
      have later := ih (reading.step none word) (by rw [step]; simp; omega)
      rw [step] at later
      simp at later ⊢
      omega
    · have later := ih (reading.step none word) (by rw [step]; simpa using few)
      rw [step] at later
      simpa using later

/-! ## A whole line -/

/-- The words of a line at which a list grows: of the complete ones, and the text under the cursor. While
    the command is still being typed there are none. -/
def counted (schema : Option Schema) (list : Reading → List α) (cut : Cut) : List Token :=
  if cut.complete = [] then []
  else growth schema list {} (cut.complete.drop 1) ++
    cut.current.toList.filter fun word => Grows list (ofComplete schema cut) ((ofComplete schema cut).stepCurrent word)

/-- A list that the text under the cursor leaves as it is grows at complete words only. -/
theorem counted_of_keeps {list : Reading → List α} {cut : Cut}
    (keeps : ∀ reading word, list (stepCurrent reading word) = list reading) (words : cut.complete ≠ []) :
    counted schema list cut = growth schema list {} (cut.complete.drop 1) := by
  rw [counted, if_neg words, List.filter_eq_nil_iff.mpr, List.append_nil]
  intro word _
  simpa using not_grows_of_eq (keeps (ofComplete schema cut) word)

theorem stepCurrent_keeps (reading : Reading) (word : Token) :
    (reading.stepCurrent word).path = reading.path ∧ (reading.stepCurrent word).options = reading.options := by
  rcases stepCurrent_takes reading word with ⟨_, taken⟩ | ⟨_, owed, same⟩
  · rw [taken]; exact ⟨rfl, rfl⟩
  · rw [same]; exact ⟨rfl, rfl⟩

theorem counted_arguments {cut : Cut} (words : cut.complete ≠ []) :
    counted schema arguments cut = (ofCut schema cut).arguments := by
  have complete : (ofComplete schema cut).arguments = growth schema arguments {} (cut.complete.drop 1) := by
    rw [ofComplete, foldl_arguments_eq]; rfl
  rw [counted, if_neg words, ← complete]
  cases current : cut.current with
  | none => simp [ofCut, current, ofComplete]
  | some word =>
    have same : ofCut schema cut = (ofComplete schema cut).stepCurrent word := by
      simp [ofCut, current, ofComplete]
    rw [same]
    rcases stepCurrent_takes (ofComplete schema cut) word with ⟨_, taken⟩ | ⟨_, owed, settled⟩
    · simp [taken, takeArgument, Grows]
    · simp [settled, Grows]

end Reading

/-- How the lists of a parsed line come from its words: from those that name subcommands, those that give
    options, and those that are arguments. -/
structure ParsedLine.Accounts (line : Bytes) (schema : Option Schema) (cut : Cut) (parsed : ParsedLine)
    (named given taken : List Token) : Prop where
  arguments_eq : parsed.arguments = taken
  /-- The starts and the texts of the arguments go together: each start is a token's, each text what that
      token has, as far as the cursor for the token under it. -/
  arguments_match : List.Forall₂ (fun start text => ∃ token ∈ tokenize line, token.start = start ∧
      (token.stop < cut.cursor ∧ text = token.text ∨
        tokenAt? line cut.cursor = some token ∧ text = token.text.take (cut.cursor - token.start)))
    (parsed.arguments.map Token.start) (parsed.arguments.map Token.text)
  arguments_ordered : (parsed.arguments.map Token.start).Pairwise (· < ·)
  path_eq : parsed.subcommandPath = named.map Token.text
  named_words : named.Sublist (cut.complete.drop 1)
  named_before : ∀ name ∈ named, ∀ argument ∈ parsed.arguments, name.start < argument.start
  given_words : given.Sublist (cut.complete.drop 1)
  options_from : ∀ option ∈ parsed.options, ∃ word ∈ given, word.text.head? = some '-'.toUInt8 ∧
    (option = word.text ∨
      isCombinedFlags word.text ∧ ∃ letter ∈ word.text.drop 1, option = ['-'.toUInt8, letter])
  /-- No word counts twice. -/
  apart : ((named ++ given ++ taken).map Token.start).Nodup
  before_cursor : ∀ word ∈ named ++ given ++ taken, word.start < cut.cursor
  guessed : schema = none → named.length ≤ 2 ∧
    ∀ name ∈ named, looksLikeSubcommand name.text ∧ ∀ option ∈ given, name.start < option.start

variable {database : Option Database} {line : Bytes} {cursor : Nat}

/-! ## Where the words stand -/

theorem Cut.complete_ordered (line : Bytes) (cursor : Nat) :
    Reading.Ordered ((Cut.of line cursor).complete.drop 1) := by
  have sublist : ((Cut.of line cursor).complete.drop 1).Sublist (tokenize line) :=
    (List.drop_sublist 1 _).trans (List.takeWhile_prefix _).sublist
  refine List.Pairwise.imp_of_mem (fun {word later} member _ stops => ?_) ((tokenize_ordered line).sublist sublist)
  have nonempty := (tokenize_within line word (sublist.subset member)).nonempty
  omega

theorem Cut.complete_start_lt {word : Token} (complete : word ∈ (Cut.of line cursor).complete) :
    word.start < (Cut.of line cursor).cursor ∧
      ∀ typing, (Cut.of line cursor).current = some typing → word.start < typing.start := by
  have nonempty := (tokenize_within line word (Cut.mem_tokenize_of_complete complete)).nonempty
  have stops := Cut.complete_stop_lt complete
  refine ⟨by omega, fun typing current => ?_⟩
  have before := Cut.complete_stop_lt_start complete
  simp only [Cut.start, current, Option.map_some, Option.getD_some] at before
  omega

theorem Cut.current_start_lt {typing : Token} (current : (Cut.of line cursor).current = some typing)
    (typed : typing.text ≠ []) : typing.start < (Cut.of line cursor).cursor := by
  obtain ⟨token, after, parts, starts, _, rfl⟩ := Cut.current_eq_some current
  rcases Nat.lt_or_eq_of_le starts with before | at_
  · exact before
  · rw [Cut.of_cursor] at at_
    exact absurd (List.drop_eq_nil_of_le (by simp [at_])) typed

theorem Cut.current_eq_upTo {typing : Token} (current : (Cut.of line cursor).current = some typing) :
    ∃ token, tokenAt? line (Cut.of line cursor).cursor = some token ∧ typing = token.upTo (Cut.of line cursor).cursor := by
  cases found : tokenAt? line (Cut.of line cursor).cursor with
  | none => simp [current_of_tokenAt_none found] at current
  | some token =>
    obtain ⟨after, _, under⟩ := current_of_tokenAt found
    exact ⟨token, rfl, Option.some.inj (current.symm.trans under)⟩

theorem Reading.ofCut_argument {schema : Option Schema} {cut : Cut} {argument : Token}
    (member : argument ∈ (ofCut schema cut).arguments) :
    argument ∈ growth schema arguments {} (cut.complete.drop 1) ∨
      cut.current = some argument ∧ argument.text ≠ [] := by
  have complete : (ofComplete schema cut).arguments = growth schema arguments {} (cut.complete.drop 1) := by
    rw [ofComplete, foldl_arguments_eq]; rfl
  rcases ofCut_takes schema cut with ⟨records, word, under, taken⟩ | ⟨_, owed, same⟩
  · rw [taken] at member
    rcases List.mem_append.mp member with earlier | here
    · exact .inl (complete ▸ earlier)
    · obtain rfl : argument = word := by simpa using here
      exact .inr ⟨under, Cut.text_of_current under ▸ records.typed⟩
  · rw [same] at member
    exact .inl (complete ▸ member)

theorem Reading.ofCut_arguments_ordered (schema : Option Schema) (line : Bytes) (cursor : Nat) :
    Ordered (ofCut schema (Cut.of line cursor)).arguments := by
  have complete : Ordered (ofComplete schema (Cut.of line cursor)).arguments :=
    (Cut.complete_ordered line cursor).sublist (ofComplete_arguments schema _)
  rcases ofCut_takes schema (Cut.of line cursor) with ⟨_, word, under, taken⟩ | ⟨_, owed, same⟩
  · rw [taken]
    refine List.pairwise_append.mpr ⟨complete, by simp, fun earlier member later here => ?_⟩
    obtain rfl : later = word := by simpa using here
    have word := List.mem_of_mem_drop ((ofComplete_arguments schema _).subset member)
    exact (Cut.complete_start_lt word).2 later under
  · rw [same]
    exact complete

/-- Words that let a list grow that no argument does are apart from the arguments. -/
theorem Reading.growth_apart_arguments {α : Type} {schema : Option Schema} {list : Reading → List α}
    (exclusive : Exclusive schema list arguments) {word argument : Token}
    (grown : word ∈ growth schema list {} ((Cut.of line cursor).complete.drop 1))
    (member : argument ∈ (ofCut schema (Cut.of line cursor)).arguments) : word.start ≠ argument.start := by
  rcases ofCut_argument member with complete | ⟨under, _⟩
  · exact growth_apart exclusive (Cut.complete_ordered line cursor) {} word grown argument complete
  · have word := List.mem_of_mem_drop ((growth_sublist _ _ _).subset grown)
    exact Nat.ne_of_lt ((Cut.complete_start_lt word).2 argument under)

theorem Reading.growth_guessed (line : Bytes) (cursor : Nat) :
    let words := (Cut.of line cursor).complete.drop 1
    (growth none path {} words).length ≤ 2 ∧ ∀ name ∈ growth none path {} words,
      looksLikeSubcommand name.text ∧ ∀ option ∈ growth none options {} words, name.start < option.start := by
  intro words
  have few := growth_path_length {} words (by decide)
  refine ⟨by simpa [maxGuessedSubcommands] using few, fun name grown => ⟨?_, ?_⟩⟩
  · obtain ⟨before, grows⟩ := grows_of_mem grown
    exact (of_grows_path grows).2
  · exact growth_path_before (exclusive_path_options none) (fun reading word grows => (of_grows_options grows).2 rfl)
      (Cut.complete_ordered line cursor) {} name grown

/-- The flags of a word are the word, or letters of it if it holds several. -/
theorem Scope.mem_flags {scope : Scope} {word option : Bytes} (member : option ∈ scope.flags word) :
    option = word ∨ isCombinedFlags word ∧ ∃ letter ∈ word.drop 1, option = ['-'.toUInt8, letter] := by
  unfold Scope.flags at member
  split_ifs at member with splits
  · simp only [Scope.splits, Bool.and_eq_true] at splits
    obtain ⟨letter, inside, rfl⟩ := List.mem_map.mp member
    exact .inr ⟨splits.1, letter, inside, rfl⟩
  · exact .inl (by simpa using member)

/-- Each argument starts where a token does, and is what that token has, as far as the cursor. -/
theorem Reading.ofCut_argument_token (schema : Option Schema) {argument : Token}
    (member : argument ∈ (ofCut schema (Cut.of line cursor)).arguments) :
    ∃ token ∈ tokenize line, token.start = argument.start ∧
      (token.stop < (Cut.of line cursor).cursor ∧ argument.text = token.text ∨
        tokenAt? line (Cut.of line cursor).cursor = some token ∧
          argument.text = token.text.take ((Cut.of line cursor).cursor - token.start)) := by
  rcases ofCut_argument member with grown | ⟨under, _⟩
  · have complete := List.mem_of_mem_drop ((growth_sublist _ _ _).subset grown)
    exact ⟨argument, Cut.mem_tokenize_of_complete complete, rfl, .inl ⟨Cut.complete_stop_lt complete, rfl⟩⟩
  · obtain ⟨token, found, rfl⟩ := Cut.current_eq_upTo under
    exact ⟨token, List.mem_of_find?_eq_some found, rfl, .inr ⟨found, rfl⟩⟩

theorem Reading.ofCut_option {schema : Option Schema} {cut : Cut} {option : Bytes}
    (member : option ∈ (ofCut schema cut).options) :
    ∃ word ∈ growth schema options {} (cut.complete.drop 1), word.text.head? = some '-'.toUInt8 ∧
      (option = word.text ∨
        isCombinedFlags word.text ∧ ∃ letter ∈ word.text.drop 1, option = ['-'.toUInt8, letter]) := by
  have same : (ofCut schema cut).options = (ofComplete schema cut).options := by
    rcases ofCut_takes schema cut with ⟨_, word, _, taken⟩ | ⟨_, owed, same⟩
    · rw [taken]; rfl
    · rw [same]
  rw [same, ofComplete] at member
  rcases foldl_options member with before | ⟨word, grown, scope, flag⟩
  · simp at before
  · obtain ⟨_, grows⟩ := grows_of_mem grown
    exact ⟨word, grown, (of_grows_options grows).1, Scope.mem_flags flag⟩

/-- No word lets two of the lists grow, and none lets one grow twice. -/
theorem Reading.growth_nodup (schema : Option Schema) (line : Bytes) (cursor : Nat) :
    let words := (Cut.of line cursor).complete.drop 1
    ((growth schema path {} words ++ growth schema options {} words ++
      (ofCut schema (Cut.of line cursor)).arguments).map Token.start).Nodup := by
  intro words
  have distinct : ∀ {tokens : List Token}, Ordered tokens → (tokens.map Token.start).Nodup := fun ordered =>
    List.pairwise_map.mpr (ordered.imp fun before => Nat.ne_of_lt before)
  have ordered := Cut.complete_ordered line cursor
  rw [List.map_append, List.map_append, List.nodup_append, List.nodup_append]
  refine ⟨⟨distinct (ordered.sublist (growth_sublist _ _ _)), distinct (ordered.sublist (growth_sublist _ _ _)), ?_⟩,
    distinct (ofCut_arguments_ordered schema line cursor), ?_⟩
  · intro start inPath start' inOptions
    obtain ⟨name, named, rfl⟩ := List.mem_map.mp inPath
    obtain ⟨option, given, rfl⟩ := List.mem_map.mp inOptions
    exact growth_apart (exclusive_path_options schema) ordered {} name named option given
  · rw [← List.map_append]
    intro start inOthers start' inArguments
    obtain ⟨argument, taken, rfl⟩ := List.mem_map.mp inArguments
    obtain ⟨word, other, rfl⟩ := List.mem_map.mp inOthers
    rcases List.mem_append.mp other with named | given
    · exact growth_apart_arguments (exclusive_path_arguments schema) named taken
    · exact growth_apart_arguments (exclusive_options_arguments schema) given taken

/-- The subcommands, options and arguments of a line come from different words before the cursor, in the
    order of the line: a subcommand is a complete word that stands before every argument, an option a
    complete word with a dash or a letter of one, and an argument a token up to the cursor. Without a schema
    at most two words name subcommands, and they look like some and stand before the options. -/
theorem parse_accounts (database : Option Database) (line : Bytes) (cursor : Nat) :
    let parsed := parse database line cursor
    let cut := Cut.of line cursor
    let schema := database.bind (·.find? parsed.command)
    parsed.Accounts line schema cut (Reading.counted schema Reading.path cut)
      (Reading.counted schema Reading.options cut) (Reading.counted schema Reading.arguments cut) := by
  intro parsed cut schema
  by_cases first : cut.complete = []
  · have fields : parsed.arguments = [] ∧ parsed.options = [] ∧ parsed.subcommandPath = [] := by
      simp only [parsed]; rw [parse_of_first database first]; exact ⟨rfl, rfl, rfl⟩
    obtain ⟨arguments, options, path⟩ := fields
    constructor <;> simp [Reading.counted, first, arguments, options, path]
  · have known : schema = cut.schema? database := by
      simp only [schema, parsed, parse_command]; rfl
    have fields : parsed.arguments = (Reading.ofCut schema cut).arguments ∧
        parsed.options = (Reading.ofCut schema cut).options ∧
        parsed.subcommandPath = (Reading.ofCut schema cut).path := by
      simp only [parsed, known]; rw [parse_of_words database first]; exact ⟨rfl, rfl, rfl⟩
    obtain ⟨arguments, options, path⟩ := fields
    have keeps := Reading.stepCurrent_keeps
    rw [Reading.counted_of_keeps (fun reading word => (keeps reading word).1) first,
      Reading.counted_of_keeps (fun reading word => (keeps reading word).2) first, Reading.counted_arguments first]
    have complete {α : Type} {list : Reading → List α} {word : Token}
        (grown : word ∈ Reading.growth schema list {} (cut.complete.drop 1)) : word ∈ cut.complete :=
      List.mem_of_mem_drop ((Reading.growth_sublist _ _ _).subset grown)
    constructor
    case arguments_eq => exact arguments
    case arguments_match =>
      rw [arguments, List.forall₂_map_left_iff, List.forall₂_map_right_iff, List.forall₂_same]
      exact fun argument member => Reading.ofCut_argument_token schema member
    case arguments_ordered =>
      rw [arguments]
      exact List.pairwise_map.mpr (Reading.ofCut_arguments_ordered schema line cursor)
    case path_eq =>
      rw [path, (Reading.ofCut_keeps schema cut).2.1, Reading.ofComplete, Reading.foldl_path]
      rfl
    case named_words => exact Reading.growth_sublist _ _ _
    case named_before =>
      rw [arguments]
      intro name named argument member
      rcases Reading.ofCut_argument member with grown | ⟨under, _⟩
      · exact Reading.growth_path_before (Reading.exclusive_path_arguments schema) Reading.ends_of_argument
          (Cut.complete_ordered line cursor) {} name named argument grown
      · exact (Cut.complete_start_lt (complete named)).2 argument under
    case given_words => exact Reading.growth_sublist _ _ _
    case options_from =>
      rw [options]
      exact fun option member => Reading.ofCut_option member
    case apart => exact Reading.growth_nodup schema line cursor
    case before_cursor =>
      intro word member
      rcases List.mem_append.mp member with other | taken
      · rcases List.mem_append.mp other with named | given
        · exact (Cut.complete_start_lt (complete named)).1
        · exact (Cut.complete_start_lt (complete given)).1
      · rcases Reading.ofCut_argument taken with grown | ⟨under, typed⟩
        · exact (Cut.complete_start_lt (complete grown)).1
        · exact Cut.current_start_lt under typed
    case guessed =>
      intro none_
      rw [none_]
      exact Reading.growth_guessed line cursor

end ShellCompletion
