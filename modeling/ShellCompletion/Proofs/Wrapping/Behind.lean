import ShellCompletion.Proofs.Line.Replacing
import ShellCompletion.Proofs.Wrapping.Span
import ShellCompletion.Schema.Bundled

/-!
# A line behind a wrapper

A wrapper is a command whose first argument is a command with its own words, such as `sudo`. The first
word of the line behind it is that argument, whatever follows (`foldl_wrapper`), so the line is
completed as it would be without the wrapper (`complete_behind`).
-/
namespace ShellCompletion

open Engine

/-- The command only runs another one: it has no subcommands, and its first argument is that command. -/
structure Schema.IsWrapper (schema : Schema) : Prop where
  alone : schema.subcommands = []
  runs : schema.arguments.head?.bind (·.valueType) = some .commandWithArgs

/-- The word can be a command behind a wrapper: it is no redirection, no option and not the two dashes
    that end the options. -/
structure Token.IsRunnable (word : Token) : Prop where
  free : Redirect.isOperator word.text = false
  unglued : Redirect.gluedLength word.text = 0
  dash : word.text = utf8 "-" ∨ word.text.head? ≠ some '-'.toUInt8

variable {name line : Bytes} {cursor : Nat} {schema : Schema}

theorem complete_before (literal : name.IsLiteral) (named : name ≠ []) (line : Bytes) (cursor : Nat) :
    (Cut.of (name ++ ' '.toUInt8 :: line) (name.length + 1 + cursor)).complete =
      ⟨name, 0, name.length⟩ :: (Cut.of line cursor).complete.map (Token.shift (name.length + 1)) := by
  have blank : Bytes.isBlank ' '.toUInt8 := by decide
  have bare := Quoting.after_literal literal
  have fresh : Bytes.IsFresh (name ++ [' '.toUInt8]) := .inr ⟨name, _, rfl, bare, blank⟩
  have first : tokenize (name ++ [' '.toUInt8]) = [⟨name, 0, name.length⟩] := by
    rw [tokenize_separated bare blank, tokenize_literal literal named]
    rfl
  have complete := (Cut.of_append fresh line cursor).1
  rwa [first, List.append_assoc, List.length_append] at complete

theorem step_wrapper (wrapper : schema.IsWrapper) {word : Token} (runnable : word.IsRunnable) :
    ({} : Reading).step (some schema) word = ({} : Reading).takeArgument word := by
  have dashes : word.text ≠ utf8 "--" := by
    rcases runnable.dash with dash | other
    · rw [dash]; decide
    · rintro same; exact other (by rw [same]; decide)
  have option : ¬ (word.text.head? = some '-'.toUInt8 ∧ 1 < word.text.length) := by
    rcases runnable.dash with dash | other
    · rw [dash]; decide
    · simp [other]
  have none_ : findSubcommand (({} : Reading).children schema) word.text = none := by
    simp [Reading.children, Schema.childrenAt, wrapper.alone, findSubcommand]
  simp [Reading.step, runnable.free, runnable.unglued, dashes, option, Reading.takeWord, none_]

/-- Behind a wrapper the first word is the first argument, and no word names a subcommand. -/
theorem foldl_wrapper (wrapper : schema.IsWrapper) {word : Token} (runnable : word.IsRunnable)
    (more : List Token) :
    (∃ taken, ((word :: more).foldl (Reading.step (some schema)) {}).arguments = word :: taken) ∧
      ((word :: more).foldl (Reading.step (some schema)) {}).path = [] := by
  rw [List.foldl_cons, step_wrapper wrapper runnable]
  obtain ⟨taken, _, arguments⟩ := Reading.foldl_arguments (some schema) more (({} : Reading).takeArgument word)
  have shut : (({} : Reading).takeArgument word).subcommandsClosed = true := rfl
  have closed := Reading.foldl_closed (some schema) more shut
  exact ⟨⟨taken, by simpa [Reading.takeArgument] using arguments⟩, closed.1⟩

theorem complete_of_head {first : Token} (head : (tokenize line).head? = some first) (past : first.stop < cursor)
    (inside : cursor ≤ line.length) : ∃ more, (Cut.of line cursor).complete = first :: more := by
  have stops : first.stop < (Cut.of line cursor).cursor := by rw [Cut.of_cursor]; omega
  have member := Cut.mem_complete (List.mem_of_mem_head? head) stops
  have tokens := Cut.complete_append_rest line cursor
  cases split : (Cut.of line cursor).complete with
  | nil => simp [split] at member
  | cons token more =>
    rw [split] at tokens
    obtain rfl : token = first := by simpa [← tokens] using head
    exact ⟨more, rfl⟩

section
variable {database : Database} {first : Token} (found : database.find? name = some schema)
  (wrapper : schema.IsWrapper) (literal : name.IsLiteral) (named : name ≠ [])
  (head : (tokenize line).head? = some first) (runnable : first.IsRunnable) (past : first.stop < cursor)
  (inside : cursor ≤ line.length)
include found wrapper literal named head runnable past inside

/-- The line is read as the wrapper with the first word behind it as its first argument. -/
theorem parse_behind :
    let parsed := parse (some database) (name ++ ' '.toUInt8 :: line) (name.length + 1 + cursor)
    parsed.command = name ∧ parsed.subcommandPath = [] ∧ parsed.context ≠ .command ∧
      0 < filledArguments parsed ∧ parsed.arguments.head? = some (first.shift (name.length + 1)) := by
  obtain ⟨more, words⟩ := complete_of_head head past inside
  have complete := complete_before literal named line cursor
  rw [words, List.map_cons] at complete
  generalize name ++ ' '.toUInt8 :: line = outer at complete ⊢
  generalize name.length + 1 + cursor = offset at complete ⊢
  intro parsed
  have nonempty : (Cut.of outer offset).complete ≠ [] := by simp [complete]
  have known : (Cut.of outer offset).schema? (some database) = some schema := by
    rw [Cut.schema?, Cut.command_eq complete]; exact found
  have moved : (first.shift (name.length + 1)).IsRunnable := ⟨runnable.free, runnable.unglued, runnable.dash⟩
  obtain ⟨⟨taken, arguments⟩, path⟩ :=
    foldl_wrapper wrapper moved (more.map (Token.shift (name.length + 1)))
  have read : Reading.ofComplete ((Cut.of outer offset).schema? (some database)) (Cut.of outer offset) =
      (first.shift (name.length + 1) :: more.map (Token.shift (name.length + 1))).foldl
        (Reading.step (some schema)) {} := by
    rw [Reading.ofComplete, known, complete, List.drop_one, List.tail_cons]
  obtain ⟨filled, under, all, _⟩ := filled_arguments (some database) outer offset
  rw [read, arguments] at filled all
  refine ⟨?_, ?_, ?_, ?_, ?_⟩
  · rw [parse_command, Cut.command_eq complete]
  · simp only [parsed]
    rw [parse_of_words (some database) nonempty]
    dsimp only
    rw [(Reading.ofCut_keeps _ _).2.1, read, path]
  · rw [ne_eq, parse_context_eq_command_iff]; exact nonempty
  · rw [filled]; exact Nat.succ_pos _
  · rw [all]; rfl

/-- A wrapper runs the line behind it. -/
theorem wrappedCommand_behind (starts : line.head?.any (!Bytes.isBlank ·)) :
    wrappedCommand? (some database)
        (parse (some database) (name ++ ' '.toUInt8 :: line) (name.length + 1 + cursor)) =
      some (name.length + 1) := by
  obtain ⟨command, path, context, filled, argument⟩ :=
    parse_behind found wrapper literal named head runnable past inside
  generalize parse _ _ _ = parsed at command path context filled argument ⊢
  have start : first.start = 0 := by
    obtain ⟨token, more, tokens, start⟩ := tokenize_starts starts
    obtain rfl : token = first := by simpa [tokens] using head
    exact start
  have runs : argumentTypeAt (schema.argumentsAt (schema.resolve [])) 0 = some .commandWithArgs := by
    have runs := wrapper.runs
    cases arguments : schema.arguments with
    | nil => simp [arguments] at runs
    | cons spec specs => simpa [Schema.resolve, descend, Schema.argumentsAt, argumentTypeAt, arguments] using runs
  obtain ⟨count, counted⟩ : ∃ count, filledArguments parsed = count + 1 := ⟨_, (Nat.succ_pred filled.ne').symm⟩
  simp [wrappedCommand?, context, command, found, path, runs, counted, List.range_succ_eq_map,
    ← List.head?_eq_getElem?, argument, Token.shift, start]

end

/-- Behind a wrapper a line is completed as it would be alone at the next depth, with its span moved. -/
theorem complete_behind {world : World} {ask : List Bytes → StateM Engine (List Bytes)} {number : Nat}
    {directory : Bytes} {database : Database} {first : Token} {depth : Nat}
    (registered : world.database = some database) (found : database.find? name = some schema)
    (wrapper : schema.IsWrapper) (literal : name.IsLiteral) (named : name ≠ [])
    (starts : line.head?.any (!Bytes.isBlank ·)) (head : (tokenize line).head? = some first)
    (runnable : first.IsRunnable) (past : first.stop < cursor) (inside : cursor ≤ line.length)
    (below : depth < maxDepth) (engine : Engine) :
    let inner := complete world ask number directory (maxDepth - (depth + 1)) line cursor engine
    complete world ask number directory (maxDepth - depth) (name ++ ' '.toUInt8 :: line)
        (name.length + 1 + cursor) engine =
      (⟨inner.1.candidates, inner.1.replaceStart + (name.length + 1), inner.1.replaceStop + (name.length + 1)⟩,
        inner.2) := by
  have wrapped := wrappedCommand_behind found wrapper literal named head runnable past inside starts
  rw [← registered] at wrapped
  have left : maxDepth - depth = (maxDepth - (depth + 1)) + 1 := by omega
  have rest : (name ++ ' '.toUInt8 :: line).drop (name.length + 1) = line := by
    rw [← List.drop_drop, List.drop_left]; rfl
  have stop : (parse world.database (name ++ ' '.toUInt8 :: line) (name.length + 1 + cursor)).replaceStop -
      (name.length + 1) = cursor := by
    rw [parse_replaceStop, Cut.of_cursor, List.length_append, List.length_cons]; omega
  rw [left, complete_wrapped wrapped, rest, stop]

/-- A world with schemas and nothing else to be found. -/
def World.bareOf (database : Database) : World where
  environment := { entries := [] }
  epoch := 0
  database := some database
  reader := ⟨fun _ => .ok [], id⟩
  files := ⟨.empty, []⟩
  runner := fun _ => .error []
  history := none

/-- A quoted word, a redirection and a cursor in the middle of a word, behind the bundled `sudo`. -/
theorem complete_behind_sudo :
    let database : Database := ⟨[Bundled.git, Bundled.asOtherUser], by decide⟩
    let line := utf8 "git commit -m 'a b' > log.txt"
    let inner := complete (.bareOf database) (fun _ => pure []) 0 [] (maxDepth - 1) line 27 {}
    complete (.bareOf database) (fun _ => pure []) 0 [] (maxDepth - 0) (utf8 "sudo" ++ ' '.toUInt8 :: line)
        ((utf8 "sudo").length + 1 + 27) {} =
      (⟨inner.1.candidates, inner.1.replaceStart + ((utf8 "sudo").length + 1),
        inner.1.replaceStop + ((utf8 "sudo").length + 1)⟩, inner.2) := by
  intro database line
  have found : database.find? (utf8 "sudo") = some Bundled.asOtherUser := by rfl
  have literal : (utf8 "sudo").IsLiteral := by decide
  have head : (tokenize line).head? = some ⟨utf8 "git", 0, 3⟩ := by decide
  exact complete_behind rfl found ⟨rfl, rfl⟩ literal (by decide) (by decide) head ⟨by decide, by decide, by decide⟩
    (by decide) (by decide) (by decide) {}

end ShellCompletion
