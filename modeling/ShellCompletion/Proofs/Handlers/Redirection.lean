import ShellCompletion.Engine
import ShellCompletion.Proofs.Line.Accounting
import ShellCompletion.Proofs.Line.Classification
import ShellCompletion.Proofs.Line.Replacing

/-!
# Handlers at the file of a redirection

The file of a redirection passes for an argument, so a handler answers there just if the command and the words before it
concern it (`Handler.answers_at_target`), and where none is concerned the handlers run nothing and add nothing
(`handlerCandidates_none`). A handler that is concerned answers in the place of the file
(`Handler.processId_answers_at_target`).
-/
namespace ShellCompletion

/-- The text under the cursor is the file of a redirection: it follows an operator or carries one, and no two dashes
    stand before it. -/
structure Cut.IsTarget (cut : Cut) : Prop where
  follows : (∃ operator ∈ cut.complete.getLast?, Redirect.isOperator operator.text) ∨ 0 < Redirect.gluedLength cut.text
  running : ∀ word ∈ cut.complete, word.text ≠ utf8 "--"

namespace Handler

/-- The command, the words before the cursor and the options are such that the handler has something to say. -/
def concerns (handler : Handler) (parsed : ParsedLine) : Bool :=
  let words := wordsBefore parsed
  match handler with
  | processId => parsed.command == utf8 "kill"
  | account => parsed.command == utf8 "sudo" && words.isEmpty
  | branch => parsed.command == utf8 "git" && words.head?.any branchActions.contains
  | package => isInstall (behindSudo parsed.command words).1 (behindSudo parsed.command words).2 parsed.options

theorem answers_eq (handler : Handler) (parsed : ParsedLine) :
    handler.answers parsed = (completesWord parsed && handler.concerns parsed) := by
  cases handler <;> rfl

/-- The commands that some handler knows. -/
def commands : List Bytes := [utf8 "kill", utf8 "sudo", utf8 "git", utf8 "pacman", utf8 "apt", utf8 "apt-get"]

theorem command_of_isInstall {command : Bytes} {words options : List Bytes}
    (install : isInstall command words options) :
    command = utf8 "pacman" ∨ command = utf8 "apt" ∨ command = utf8 "apt-get" := by
  unfold isInstall at install
  split_ifs at install with pacman
  · exact .inl pacman
  · simp only [Bool.and_eq_true, Bool.or_eq_true, beq_iff_eq] at install
    exact .inr install.1

theorem behindSudo_command (command : Bytes) (words : List Bytes) :
    (behindSudo command words).1 = command ∨ command = utf8 "sudo" := by
  unfold behindSudo
  split
  · exact .inl rfl
  · split_ifs with behind
    · exact .inr behind
    · exact .inl rfl

theorem command_of_concerns {handler : Handler} {parsed : ParsedLine} (concerns : handler.concerns parsed) :
    parsed.command ∈ commands := by
  have known {command : Bytes} (named : parsed.command = command) (listed : command ∈ commands) :
      parsed.command ∈ commands := named ▸ listed
  cases handler with
  | processId => exact known (beq_iff_eq.mp concerns) (by decide)
  | account => exact known (beq_iff_eq.mp (Bool.and_eq_true_iff.mp concerns).1) (by decide)
  | branch => exact known (beq_iff_eq.mp (Bool.and_eq_true_iff.mp concerns).1) (by decide)
  | package =>
    rcases behindSudo_command parsed.command (wordsBefore parsed) with same | behind
    · have install := command_of_isInstall concerns
      rw [same] at install
      rcases install with named | named | named <;> exact known named (by decide)
    · exact known behind (by decide)

/-- A command that a handler knows is no operator and, as far as it is typed, carries none. -/
theorem not_redirection_of_known {command : Bytes} (known : command ∈ commands) :
    Redirect.isOperator command = false ∧ ∀ typed, Redirect.gluedLength (command.take typed) = 0 := by
  have free : ∀ command ∈ commands, ∀ c ∈ command, c ≠ '&'.toUInt8 ∧ c ≠ '<'.toUInt8 ∧ c ≠ '>'.toUInt8 := by
    decide +kernel
  have words : ∀ command ∈ commands, Redirect.isOperator command = false := by decide +kernel
  refine ⟨words command known, fun typed => Redirect.gluedLength_of_apart fun c head => ?_⟩
  exact free command known c (List.mem_of_mem_take ((List.dropWhile_sublist _).subset (List.mem_of_mem_head? head)))

end Handler

variable {database : Option Database} {line : Bytes} {cursor : Nat}

theorem Cut.text_of_first (first : (Cut.of line cursor).complete = []) :
    ∃ typed, (Cut.of line cursor).text = (Cut.of line cursor).command.take typed := by
  cases current : (Cut.of line cursor).current with
  | none => exact ⟨0, by simp [Cut.text, current]⟩
  | some word =>
    obtain ⟨token, found, rfl⟩ := Cut.current_eq_upTo current
    obtain ⟨after, parts, _⟩ := current_of_tokenAt found
    have command : (Cut.of line cursor).command = token.text := by
      rw [first, List.nil_append] at parts
      simp [Cut.of, parts]
    exact ⟨_, by rw [Cut.text_of_current current, command]; rfl⟩

namespace Cut.IsTarget

theorem optionsEnded (target : (Cut.of line cursor).IsTarget) (schema : Option Schema) :
    (Reading.ofCut schema (Cut.of line cursor)).optionsEnded = false := by
  rw [Bool.eq_false_iff, ne_eq, Reading.ofCut_optionsEnded]
  rintro ⟨before, word, after, split, dashes, _⟩
  have member : word ∈ (Cut.of line cursor).complete.drop 1 := by simp [split]
  exact target.running word (List.mem_of_mem_drop member) dashes

/-- Behind a command that a handler knows the file follows an operator among the words, or carries one. -/
theorem behind (target : (Cut.of line cursor).IsTarget) (known : (Cut.of line cursor).command ∈ Handler.commands) :
    (Cut.of line cursor).complete ≠ [] ∧
      ((∃ operator ∈ (Cut.of line cursor).previous?, Redirect.isOperator operator.text) ∨
        0 < Redirect.gluedLength (Cut.of line cursor).text) := by
  obtain ⟨other, unglued⟩ := Handler.not_redirection_of_known known
  cases complete : (Cut.of line cursor).complete with
  | nil =>
    obtain ⟨typed, text⟩ := Cut.text_of_first complete
    rcases target.follows with ⟨operator, last, _⟩ | glued
    · simp [complete] at last
    · rw [text, unglued] at glued
      exact absurd glued (Nat.lt_irrefl 0)
  | cons first more =>
    refine ⟨List.cons_ne_nil _ _, target.follows.imp_left fun ⟨operator, last, operates⟩ => ⟨operator, ?_, operates⟩⟩
    rw [Cut.previous_eq, if_neg]
    · exact last
    · -- The only complete word is the command, which is no operator.
      intro short
      obtain rfl : more = [] := by simpa [complete] using short
      obtain rfl : first = operator := by simpa [complete] using last
      rw [Cut.command_eq complete, operates] at other
      exact absurd other (by decide)

/-- The file of a redirection passes for a plain word unless it starts with a dash. -/
theorem completesWord (target : (Cut.of line cursor).IsTarget) (words : (Cut.of line cursor).complete ≠ [])
    (behind : (∃ operator ∈ (Cut.of line cursor).previous?, Redirect.isOperator operator.text) ∨
      0 < Redirect.gluedLength (Cut.of line cursor).text)
    (undashed : (parse database line cursor).current.head? ≠ some '-'.toUInt8) :
    Handler.completesWord (parse database line cursor) := by
  have running := target.optionsEnded ((Cut.of line cursor).schema? database)
  have glued : (Cut.of line cursor).glued
      (Reading.ofCut ((Cut.of line cursor).schema? database) (Cut.of line cursor)) =
        Redirect.gluedLength (Cut.of line cursor).text := by simp [Cut.glued, running]
  have undashed' : (Cut.of line cursor).text.head? ≠ some '-'.toUInt8 := by
    intro dash
    have none_ := (Redirect.of_dash dash).2
    rw [(parse_replaceStart database line cursor).2, Cut.advance, if_neg words, glued, none_] at undashed
    exact undashed dash
  have classifies := parse_classifies database words
  have apart {reading : Reading} {schema : Option Schema} (own : (Cut.of line cursor).IsWord schema reading)
      (same : (Cut.of line cursor).glued reading = Redirect.gluedLength (Cut.of line cursor).text) : False := by
    rcases behind with operator | carries
    · exact own.apart (.inl operator)
    · rw [← same, own.unglued] at carries
      exact Nat.lt_irrefl 0 carries
  unfold Handler.completesWord
  generalize (parse database line cursor).context = context at classifies
  cases classifies with
  | glued => simpa using undashed
  | long _ dash => exact absurd dash undashed'
  | short _ dash => exact absurd dash undashed'
  | value option plain awaits =>
    rcases behind with ⟨operator, previous, operates⟩ | carries
    · obtain rfl : option = operator := Option.some.inj (awaits.previous.symm.trans previous)
      have other := (Redirect.of_dash (isOptionWord_iff.mp awaits.written).1).1
      rw [operates] at other
      exact absurd other (by decide)
    · rw [← glued, plain.unglued] at carries
      exact absurd carries (Nat.lt_irrefl 0)
  | redirection => simpa using undashed
  | subcommand _ own => exact (apart own glued).elim
  | argument _ own => exact (apart own glued).elim
  | guessed own => exact (apart own glued).elim
  | position own => exact (apart own glued).elim

end Cut.IsTarget

theorem handlerCandidates_none (world : World) (ask : List Bytes → StateM Engine (List Bytes)) (request : Nat)
    {parsed : ParsedLine} {handlers : List Handler} (silent : ∀ handler ∈ handlers, handler.answers parsed = false)
    (engine : Engine) : Engine.handlerCandidates world ask request parsed handlers engine = ([], engine) := by
  induction handlers with
  | nil => rfl
  | cons handler rest ih =>
    have later := ih fun other member => silent other (List.mem_cons_of_mem _ member)
    unfold Engine.handlerCandidates
    rw [silent handler List.mem_cons_self]
    change (if engine.requests.isSuperseded request then pure [] else
      Engine.handlerCandidates world ask request parsed rest : StateM Engine _) engine = _
    split_ifs
    · rfl
    · exact later

namespace Handler

/-- At the file of a redirection a handler answers exactly if the command and the words concern it and no dash starts
    the file. Where that holds for none, the handlers run nothing and add nothing. -/
theorem answers_at_target (database : Option Database) (target : (Cut.of line cursor).IsTarget) :
    let parsed := parse database line cursor
    (∀ handler : Handler, handler.answers parsed ↔
      parsed.current.head? ≠ some '-'.toUInt8 ∧ handler.concerns parsed) ∧
      ((parsed.current.head? = some '-'.toUInt8 ∨ ∀ handler : Handler, ¬ handler.concerns parsed) →
        ∀ world ask request engine,
          Engine.handlerCandidates world ask request parsed all engine = ([], engine)) := by
  intro parsed
  have answers_iff (handler : Handler) : handler.answers parsed ↔
      parsed.current.head? ≠ some '-'.toUInt8 ∧ handler.concerns parsed := by
    rw [answers_eq, Bool.and_eq_true]
    constructor
    · rintro ⟨word, concerns⟩
      exact ⟨by simpa [completesWord] using (Bool.and_eq_true_iff.mp word).2, concerns⟩
    · rintro ⟨undashed, concerns⟩
      have known := command_of_concerns concerns
      rw [show parsed.command = (Cut.of line cursor).command from parse_command database line cursor] at known
      obtain ⟨words, behind⟩ := target.behind known
      exact ⟨target.completesWord words behind undashed, concerns⟩
  refine ⟨answers_iff, fun unconcerned world ask request engine => ?_⟩
  refine handlerCandidates_none world ask request (fun handler _ => ?_) engine
  rw [Bool.eq_false_iff, ne_eq, answers_iff]
  rintro ⟨undashed, concerns⟩
  rcases unconcerned with dash | none_
  · exact undashed dash
  · exact none_ handler concerns

/-- No handler knows what to say about the state of a repository, whatever it is written to. -/
theorem silent_at_target :
    let line := utf8 "git status > lo"
    (Cut.of line 15).IsTarget ∧ ∀ world ask request engine,
      Engine.handlerCandidates world ask request (parse none line 15) all engine = ([], engine) := by
  intro line
  have target : (Cut.of line 15).IsTarget := ⟨.inl ⟨⟨utf8 ">", 11, 12⟩, by decide, by decide⟩, by decide⟩
  have unconcerned (handler : Handler) : ¬ handler.concerns (parse none line 15) := by cases handler <;> decide
  exact ⟨target, (answers_at_target none target).2 (.inr unconcerned)⟩

/-- In the place of the file that `kill` writes to, processes are offered. -/
theorem processId_answers_at_target :
    (Cut.of (utf8 "kill > lo") 9).IsTarget ∧ processId.answers (parse none (utf8 "kill > lo") 9) :=
  ⟨⟨.inl ⟨⟨utf8 ">", 5, 6⟩, by decide, by decide⟩, by decide⟩, by decide⟩

end Handler

end ShellCompletion
