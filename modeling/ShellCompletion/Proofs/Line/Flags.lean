import ShellCompletion.Proofs.Line.Exchange
import ShellCompletion.Proofs.Line.Owed
import ShellCompletion.Schema.Bundled

/-!
# Flags written together

A word such as `-am` that no option is spelled like is read as its letters would be one after the other
(`foldl_letters`), if only the last of them may take a value: that one decides whether a value follows and of what
kind (`alike_letter`). So a line with the letters as separate flags in the place of the word is parsed the same
(`parse_apart`).
-/
namespace ShellCompletion

/-! ## The letters of a word -/

/-- The flag of one letter. -/
def flagOf (letter : UInt8) : Bytes := ['-'.toUInt8, letter]

section
variable {letter : UInt8} (alpha : Bytes.isAlpha letter)
include alpha

theorem ne_dash : letter ≠ '-'.toUInt8 := Bytes.ne_of_test alpha (by decide)

theorem isOptionWord_flagOf : isOptionWord (flagOf letter) := by
  have dashes : utf8 "--" = flagOf '-'.toUInt8 := by decide
  refine isOptionWord_iff.mpr ⟨rfl, Nat.lt_add_one 1, fun same => ne_dash alpha ?_⟩
  rw [dashes] at same
  exact (List.cons.inj (List.cons.inj same).2).1

theorem isLiteral_flagOf : Bytes.IsLiteral (flagOf letter) := by
  have dash : Bytes.IsLiteral ['-'.toUInt8] := by decide
  have letter_ : Bytes.IsLiteral [letter] := Bytes.isLiteral_of_test (by simpa using alpha) (by decide +kernel)
  exact dash.append letter_

theorem not_dashes (rest : Bytes) : (utf8 "--").isPrefixOf ('-'.toUInt8 :: letter :: rest) = false := by
  have dashes : utf8 "--" = ['-'.toUInt8, '-'.toUInt8] := by decide
  simp [dashes, List.isPrefixOf, (ne_dash alpha).symm]

end

/-- A dash and several letters: the last one, and at least one before it. -/
theorem letters_of_combined {word : Bytes} (combined : isCombinedFlags word) :
    ∃ first last, first ≠ [] ∧ word = '-'.toUInt8 :: (first ++ [last]) ∧
      (∀ letter ∈ first ++ [last], Bytes.isAlpha letter) ∧
      Scope.letters word = first.map flagOf ++ [flagOf last] := by
  match word, combined with
  | dash :: a :: b :: rest, combined =>
    simp only [isCombinedFlags, Bool.and_eq_true, beq_iff_eq, List.all_eq_true] at combined
    obtain ⟨rfl, alpha⟩ := combined
    have split := List.dropLast_concat_getLast (List.cons_ne_nil a (b :: rest))
    refine ⟨(a :: b :: rest).dropLast, (a :: b :: rest).getLast (by simp), by simp, ?_, ?_, ?_⟩
    · rw [split]
    · rw [split]; exact alpha
    · rw [Scope.letters, List.drop_one, List.tail_cons]
      conv_lhs => rw [← split]
      rw [List.map_append]
      rfl

theorem length_letters {word : Bytes} (combined : isCombinedFlags word) :
    (Scope.letters word).length = word.length - 2 + 1 := by
  obtain ⟨first, last, some_, rfl, _, letters⟩ := letters_of_combined combined
  have positive := List.length_pos_iff.mpr some_
  simp only [letters, List.length_append, List.length_map, List.length_cons, List.length_nil]
  omega

theorem literal_letters {word : Bytes} (combined : isCombinedFlags word) :
    ∀ flag ∈ Scope.letters word, Bytes.IsLiteral flag ∧ flag ≠ [] := by
  obtain ⟨first, last, _, _, alpha, letters⟩ := letters_of_combined combined
  rw [letters, ← List.map_singleton, ← List.map_append]
  intro flag member
  obtain ⟨letter, inside, rfl⟩ := List.mem_map.mp member
  exact ⟨isLiteral_flagOf (alpha letter inside), List.cons_ne_nil _ _⟩

theorem isOptionWord_of_combined {word : Bytes} (combined : isCombinedFlags word) : isOptionWord word := by
  obtain ⟨first, last, some_, rfl, alpha, -⟩ := letters_of_combined combined
  obtain ⟨head, more, rfl⟩ := List.exists_cons_of_ne_nil some_
  have dashes : utf8 "--" = ['-'.toUInt8, '-'.toUInt8] := by decide
  exact isOptionWord_iff.mpr ⟨rfl, by simp, by simp [dashes]⟩

namespace Scope

variable {scope : Scope} {word : Bytes}

theorem combined_of_splits (splits : scope.splits word) : isCombinedFlags word := by
  rw [Scope.splits, Bool.and_eq_true] at splits
  exact splits.1

theorem flags_flagOf (scope : Scope) (letter : UInt8) : scope.flags (flagOf letter) = [flagOf letter] := rfl

/-- A word that splits makes the next word a value just as the flag of its last letter does. -/
theorem alike_letter (splits : scope.splits word) {first : List Bytes} {flag : Bytes}
    (letters_ : letters word = first ++ [flag]) : scope.Alike word flag := by
  have combined := combined_of_splits splits
  obtain ⟨front, last, some_, split, alpha, spelled⟩ := letters_of_combined combined
  obtain rfl : flagOf last = flag := by
    simpa using (List.append_inj' (spelled.symm.trans letters_) rfl).2
  obtain ⟨head, more, rfl⟩ := List.exists_cons_of_ne_nil some_
  have final : Bytes.isAlpha last := alpha last (by simp)
  have form : scope.valueForm word = flagOf last := by
    rw [valueForm, if_pos splits, split, ← List.cons_append, List.getLast?_concat]
    rfl
  have form' : scope.valueForm (flagOf last) = flagOf last := rfl
  have dashes : (utf8 "--").isPrefixOf word = false := by
    rw [split]
    exact not_dashes (alpha head (by simp)) _
  have dashes' : (utf8 "--").isPrefixOf (flagOf last) = false := not_dashes final []
  have written := isOptionWord_of_combined combined
  refine ⟨?_, ?_, ?_, ?_⟩
  · rw [(Redirect.of_dash (isOptionWord_iff.mp written).1).1, (@Redirect.of_dash (flagOf last) rfl).1]
  · rw [written, isOptionWord_flagOf final]
  · rw [takesValue, takesValue, dashes, dashes', form, form']
    rfl
  · rw [valueType, valueType, form, form']

end Scope

namespace Reading

variable {schema : Option Schema} {reading : Reading} {word : Bytes}

/-- The word is read as flags written together: it is looked at, it is a dash and letters and no option is spelled
    so, and of its letters only the last one may take a value. -/
structure Clusters (schema : Option Schema) (reading : Reading) (word : Bytes) : Prop where
  looks : reading.Looks
  combined : isCombinedFlags word
  undeclared : (reading.scope schema).find? word = none
  free : ∀ flag ∈ (Scope.letters word).dropLast, (reading.scope schema).takesValue flag = false

theorem Clusters.splits (clusters : reading.Clusters schema word) : (reading.scope schema).splits word := by
  simp [Scope.splits, clusters.combined, clusters.undeclared]

theorem step_flag {letter : UInt8} (alpha : Bytes.isAlpha letter) {flag : Token} (text : flag.text = flagOf letter)
    (looks : reading.Looks) (free : (reading.scope schema).takesValue (flagOf letter) = false) :
    reading.step schema flag =
      { reading with
        options := reading.options ++ [flagOf letter]
        subcommandsClosed := reading.subcommandsClosed || schema.isNone } := by
  have written : isOptionWord flag.text := by rw [text]; exact isOptionWord_flagOf alpha
  rw [step_option schema looks written, takeOption, text, free, Scope.flags_flagOf]
  simp [looks.1]

theorem foldl_flags {letters : List UInt8} (alpha : ∀ letter ∈ letters, Bytes.isAlpha letter) {flags : List Token}
    (texts : flags.map Token.text = letters.map flagOf) (looks : reading.Looks)
    (free : ∀ letter ∈ letters, (reading.scope schema).takesValue (flagOf letter) = false) :
    flags.foldl (step schema) reading =
      { reading with
        options := reading.options ++ letters.map flagOf
        subcommandsClosed := reading.subcommandsClosed || (schema.isNone && !letters.isEmpty) } := by
  induction letters generalizing flags reading with
  | nil =>
    obtain rfl : flags = [] := by simpa using texts
    simp
  | cons letter letters ih =>
    cases flags with
    | nil => simp at texts
    | cons flag flags =>
      obtain ⟨text, texts⟩ := List.cons.inj texts
      have first := step_flag (alpha letter List.mem_cons_self) text looks (free letter List.mem_cons_self)
      have later := @ih (reading.step schema flag) (fun other member => alpha other (List.mem_cons_of_mem _ member))
        flags texts (by rw [first]; exact looks)
        (by rw [first]; exact fun other member => free other (List.mem_cons_of_mem _ member))
      rw [List.foldl_cons, later, first]
      cases schema <;> simp

/-- The letters of the word as separate flags are read as the word itself. -/
theorem foldl_letters (clusters : reading.Clusters schema word) {flags : List Token}
    (texts : flags.map Token.text = Scope.letters word) {cluster : Token} (text : cluster.text = word) :
    flags.foldl (step schema) reading = reading.step schema cluster := by
  obtain ⟨first, last, -, -, alpha, letters⟩ := letters_of_combined clusters.combined
  have alike := Scope.alike_letter clusters.splits letters
  have free := clusters.free
  have final : Bytes.isAlpha last := alpha last (by simp)
  rw [letters] at texts free
  rw [List.dropLast_concat] at free
  obtain ⟨before, final_, rfl, texts', texts_⟩ := List.map_eq_append_iff.mp texts
  obtain ⟨flag, rfl, form⟩ := List.map_eq_singleton_iff.mp texts_
  have read := foldl_flags (fun letter member => alpha letter (by simp [member])) texts' clusters.looks
    fun letter member => free _ (List.mem_map_of_mem member)
  have looks : (before.foldl (step schema) reading).Looks := by rw [read]; exact clusters.looks
  have written : isOptionWord flag.text := by rw [form]; exact isOptionWord_flagOf final
  have written' : isOptionWord cluster.text := by rw [text]; exact isOptionWord_of_combined clusters.combined
  have flags : (reading.scope schema).flags word = first.map flagOf ++ [flagOf last] := by
    rw [Scope.flags, if_pos clusters.splits, letters]
  rw [List.foldl_append, List.foldl_cons, List.foldl_nil, step_option schema looks written,
    step_option schema clusters.looks written', read, form, text]
  have closed : (schema.isNone && !first.isEmpty || schema.isNone) = schema.isNone := by cases schema <;> simp
  simp only [takeOption, flags, alike.takes, Scope.flags_flagOf, List.append_assoc, Bool.or_assoc, closed]
  rfl

end Reading

/-! ## The letters in the place of the word -/

section
variable {schema : Option Schema} {cut cut' : Cut} {command cluster : Token} {before after flags after' : List Token}
  (complete : cut.complete = command :: before ++ cluster :: after)
  (complete' : cut'.complete = command :: before ++ (flags ++ after'))
  (texts : flags.map Token.text = Scope.letters cluster.text)
  (same : after'.map Token.text = after.map Token.text)
  (clusters : (before.foldl (Reading.step schema) {}).Clusters schema cluster.text)
include complete complete' texts same clusters

theorem Reading.ofComplete_letters :
    (ofComplete schema cut').unplaced = (ofComplete schema cut).unplaced := by
  rw [ofComplete, ofComplete, complete, complete']
  simp only [List.cons_append, List.drop_one, List.tail_cons, List.foldl_append, List.foldl_cons]
  rw [foldl_letters clusters texts rfl, foldl_unplaced, foldl_unplaced, map_unplaced_congr same]

/-- The word before the text under the cursor is the same, or the word and its last letter's flag. -/
theorem alike_letters : ((Reading.ofCut schema cut).scope schema).Alike cut.last cut'.last := by
  rcases List.eq_nil_or_concat' after with rfl | ⟨between, previous, rfl⟩
  · obtain rfl : after' = [] := by simpa using same
    obtain ⟨first, last, -, -, -, letters⟩ := letters_of_combined clusters.combined
    have last_eq : cut.last = cluster.text :=
      @Cut.last_eq _ ((command :: before).map Token.text) _ (by simp [complete])
    have last_eq' : cut'.last = flagOf last :=
      @Cut.last_eq _ ((command :: before).map Token.text ++ first.map flagOf) _ (by simp [complete', texts, letters])
    have read : Reading.ofComplete schema cut =
        (before.foldl (Reading.step schema) {}).step schema cluster := by
      rw [Reading.ofComplete, complete]
      simp
    have scope : (Reading.ofCut schema cut).scope schema = (before.foldl (Reading.step schema) {}).scope schema := by
      rw [Reading.scope, (Reading.ofCut_keeps _ _).2.2, read,
        Reading.step_option_nodes clusters.looks (isOptionWord_of_combined clusters.combined)]
      rfl
    rw [last_eq, last_eq', scope]
    exact Scope.alike_letter clusters.splits letters
  · have last_eq : cut.last = previous.text :=
      @Cut.last_eq _ ((command :: before ++ cluster :: between).map Token.text) _ (by simp [complete])
    have last_eq' : cut'.last = previous.text :=
      @Cut.last_eq _ ((command :: before ++ flags).map Token.text ++ between.map Token.text) _
        (by simp [complete', same])
    rw [last_eq, last_eq']
    exact .refl _ _

end

/-- A word that several flags of one letter are written together in can be replaced by these flags: the line is
    parsed the same but for places, the number of words, and the name of an option whose value is awaited. -/
theorem parse_apart (database : Option Database) {line apart : Bytes} {cursor : Nat} {cluster : Token}
    {before after : List Token} (complete : (Cut.of line cursor).complete = before ++ cluster :: after)
    (behind : before ≠ [])
    (clusters : let schema := database.bind (·.find? (parse database line cursor).command)
      ((before.drop 1).foldl (Reading.step schema) {}).Clusters schema cluster.text)
    (lays : Lays (Scope.letters cluster.text) apart) :
    let line' := line.take cluster.start ++ apart ++ line.drop cluster.stop
    let cursor' := cluster.start + apart.length + (cursor - cluster.stop)
    ∃ name, (parse database line' cursor').unplaced =
      { (parse database line cursor).unplaced with
        context := (parse database line cursor).context.named name
        cursorIndex := (parse database line cursor).cursorIndex + (cluster.text.length - 2) } := by
  intro line' cursor'
  have literal := literal_letters clusters.combined
  have closed := lays.after_eq fun flag member => Quoting.after_literal (literal flag member).1
  have apart_words := words_of_lays lays fun flag member =>
    ⟨(literal flag member).2, Quoting.joins_literal (literal flag member).1⟩
  obtain ⟨complete', current, at_⟩ := Cut.of_replaced complete closed
  change (Cut.of line' cursor').complete = _ at complete'
  generalize flags_eq : (tokenize apart).map _ = flags at complete'
  generalize after_eq : after.map _ = after' at complete'
  have texts : flags.map Token.text = Scope.letters cluster.text := by
    rw [← flags_eq, ← apart_words, List.map_map]
    rfl
  have same : after'.map Token.text = after.map Token.text := by
    rw [← after_eq, List.map_map]
    rfl
  have text : (Cut.of line' cursor').text = (Cut.of line cursor).text := (Cut.text_moved current at_).1
  obtain ⟨command, more, rfl⟩ := List.exists_cons_of_ne_nil behind
  rw [parse_schema] at clusters
  have command : (Cut.of line' cursor').command = (Cut.of line cursor).command := by
    rw [Cut.command_eq complete, Cut.command_eq complete']
  have longer : (Cut.of line' cursor').complete.length =
      (Cut.of line cursor).complete.length + (cluster.text.length - 2) := by
    have count := (congrArg List.length texts).trans (length_letters clusters.combined)
    have later := congrArg List.length same
    simp only [List.length_map] at count later
    simp only [complete, complete', List.length_append, List.length_cons]
    omega
  have several : 2 ≤ (Cut.of line cursor).complete.length := by
    simp only [complete, List.length_append, List.length_cons]
    omega
  have index : (parse database line cursor).cursorIndex = (Cut.of line cursor).complete.length := by
    rw [parse_of_words database (by simp [complete])]
  rw [index, ← longer]
  exact ⟨_, parse_alike database (by simp [complete]) (by simp [complete']) command text (by omega)
    (Reading.ofComplete_letters complete complete' texts same clusters)
    (alike_letters complete complete' texts same clusters)⟩

/-- A message goes with the last of two flags, whether these are written together or apart. -/
theorem parse_apart_message :
    let database : Database := ⟨[Bundled.git], by decide⟩
    let line := utf8 "git commit -am fix"
    let schema := Database.find? database (parse (some database) line 18).command
    let cluster : Token := ⟨utf8 "-am", 11, 14⟩
    (Cut.of line 18).complete = [⟨utf8 "git", 0, 3⟩, ⟨utf8 "commit", 4, 10⟩] ++ cluster :: [] ∧
      Reading.Clusters schema ([⟨utf8 "commit", 4, 10⟩].foldl (Reading.step schema) {}) cluster.text ∧
      Lays (Scope.letters cluster.text) (utf8 "-a -m") ∧
      ∃ name, (parse (some database) (utf8 "git commit -a -m fix") 20).unplaced =
        { (parse (some database) line 18).unplaced with
          context := (parse (some database) line 18).context.named name
          cursorIndex := (parse (some database) line 18).cursorIndex + 1 } := by
  intro database line schema cluster
  have complete : (Cut.of line 18).complete = [⟨utf8 "git", 0, 3⟩, ⟨utf8 "commit", 4, 10⟩] ++ cluster :: [] := by
    decide +kernel
  have clusters : Reading.Clusters schema ([⟨utf8 "commit", 4, 10⟩].foldl (Reading.step schema) {}) cluster.text :=
    ⟨⟨by decide +kernel, by decide +kernel⟩, by decide, by decide +kernel, by decide +kernel⟩
  have lays : Lays (Scope.letters cluster.text) (utf8 "-a -m") := by
    have same : Scope.letters cluster.text = words (utf8 "-a -m") := by decide
    rw [same]
    exact lays_words _
  have line' : line.take cluster.start ++ utf8 "-a -m" ++ line.drop cluster.stop = utf8 "git commit -a -m fix" := by
    decide
  have cursor' : cluster.start + (utf8 "-a -m").length + (18 - cluster.stop) = 20 := by decide
  have letters : cluster.text.length - 2 = 1 := by decide
  have apart := parse_apart (some database) complete (by simp) clusters lays
  dsimp only at apart
  rw [line', cursor', letters] at apart
  exact ⟨complete, clusters, lays, apart⟩

end ShellCompletion
