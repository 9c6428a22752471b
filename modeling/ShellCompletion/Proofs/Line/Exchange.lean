import ShellCompletion.Proofs.Line.Spacing

namespace ShellCompletion

/-- The token with its offsets behind `stop` counted from `stop'`. -/
def Token.moved (stop stop' : Nat) (token : Token) : Token :=
  ⟨token.text, stop' + (token.start - stop), stop' + (token.stop - stop)⟩

@[simp] theorem Token.moved_text (stop stop' : Nat) (token : Token) : (token.moved stop stop').text = token.text := rfl

theorem Token.moved_shift (stop stop' : Nat) :
    Token.moved stop stop' ∘ Token.shift (stop + 1) = Token.shift (stop' + 1) := by
  funext token
  simp only [Function.comp_apply, Token.moved, Token.shift, Token.mk.injEq, true_and]
  omega

namespace Cut

/-- A text that closes its quotes between a place where a word can start and a blank: its words are complete, and
    behind the blank the line is cut as a line of its own. -/
theorem of_between {before text : Bytes} (fresh : before.IsFresh) (closed : Quoting.bare.after text = .bare)
    {c : UInt8} (blank : Bytes.isBlank c) (line : Bytes) (cursor : Nat) :
    let k := before.length + text.length + 1
    let cut := Cut.of (before ++ text ++ c :: line) (k + cursor)
    cut.complete = tokenize before ++ ((tokenize text).map (Token.shift before.length) ++
        (Cut.of line cursor).complete.map (Token.shift k)) ∧
      cut.current = (Cut.of line cursor).current.map (Token.shift k) ∧ cut.cursor = k + (Cut.of line cursor).cursor := by
  intro k cut
  have bare : Quoting.bare.after (before ++ text) = .bare := by rw [Quoting.after_append, fresh.after_eq, closed]
  have front : Bytes.IsFresh (before ++ text ++ [c]) := .inr ⟨_, c, rfl, bare, blank⟩
  have length : (before ++ text ++ [c]).length = k := by rw [List.length_append, List.length_append]; rfl
  have tokens : tokenize (before ++ text ++ [c]) =
      tokenize before ++ (tokenize text).map (Token.shift before.length) := by
    rw [tokenize_separated bare blank, fresh.tokenize_append]
    exact List.append_nil _
  obtain ⟨complete, current⟩ := Cut.of_append front line cursor
  rw [length, tokens, List.append_assoc (before ++ text), List.append_assoc (tokenize before)] at complete
  rw [length, List.append_assoc (before ++ text)] at current
  refine ⟨complete, current, ?_⟩
  rw [of_cursor, of_cursor, List.length_append, List.length_append, List.length_cons]
  omega

variable {line text : Bytes} {cursor : Nat} {word : Token} {before after : List Token}

/-- With another text that closes its quotes in the place of a complete word, the words of that text stand in the
    place of the word, and what comes behind them has moved along. -/
theorem of_replaced (complete : (Cut.of line cursor).complete = before ++ word :: after)
    (closed : Quoting.bare.after text = .bare) :
    let stop' := word.start + text.length
    let cut := Cut.of (line.take word.start ++ text ++ line.drop word.stop) (stop' + (cursor - word.stop))
    cut.complete = before ++ ((tokenize text).map (Token.shift word.start) ++ after.map (Token.moved word.stop stop')) ∧
      cut.current = (Cut.of line cursor).current.map (Token.moved word.stop stop') ∧
      cut.cursor = stop' + ((Cut.of line cursor).cursor - word.stop) := by
  have member : word ∈ (Cut.of line cursor).complete := by simp [complete]
  have split := complete_append_rest line cursor
  rw [complete, List.append_assoc, List.cons_append] at split
  obtain ⟨earlier, fresh⟩ := tokenize_take_start split.symm
  have within := tokenize_within line word (mem_tokenize_of_complete member)
  have nonempty := within.nonempty
  have inside := within.inside
  have stops : word.stop < cursor := by
    have := complete_stop_lt member
    rw [of_cursor] at this
    omega
  obtain ⟨c, rest, goes⟩ : ∃ c rest, line.drop word.stop = c :: rest :=
    List.exists_cons_of_ne_nil (by
      intro none_
      have blank := blank_after_complete member
      simp [none_] at blank)
  obtain ⟨bare, blank⟩ := blank_after_word split.symm goes
  rw [within.take_stop, Quoting.after_append, fresh.after_eq] at bare
  have front : (line.take word.start).length = word.start := by rw [List.length_take]; omega
  have run := within.text_length
  obtain ⟨typed, joins⟩ : word.text ≠ [] ∧ Quoting.bare.Joins word.text :=
    joins_of_mem_words (List.mem_map_of_mem (mem_tokenize_of_complete member))
  -- The line itself has the text of the word there.
  have same : line.take word.start ++ word.text ++ c :: rest = line := by
    rw [← within.take_stop, ← goes, List.take_append_drop]
  have place (text : Bytes) : word.start + text.length + 1 + (cursor - word.stop - 1) =
      word.start + text.length + (cursor - word.stop) := by omega
  have stop_eq : word.start + word.text.length = word.stop := by omega
  have cursor_eq : word.stop + (cursor - word.stop) = cursor := by omega
  obtain ⟨own, under, at_⟩ := of_between fresh bare blank rest (cursor - word.stop - 1)
  obtain ⟨new, under', at'⟩ := of_between fresh closed blank rest (cursor - word.stop - 1)
  rw [front, place, same, stop_eq, cursor_eq] at own under at_
  rw [front, place] at new under' at'
  rw [earlier, complete, tokenize_joined joins typed] at own
  rw [earlier] at new
  have later : after = (Cut.of rest (cursor - word.stop - 1)).complete.map (Token.shift (word.stop + 1)) :=
    (List.cons.inj (List.append_cancel_left own)).2
  dsimp only
  rw [goes, later, under, at_, List.map_map, Option.map_map, Token.moved_shift]
  exact ⟨new, under', by rw [at']; omega⟩

theorem text_moved {cut cut' : Cut} {stop stop' : Nat} (current : cut'.current = cut.current.map (Token.moved stop stop'))
    (cursor : cut'.cursor = stop' + (cut.cursor - stop)) :
    cut'.text = cut.text ∧ cut'.start = stop' + (cut.start - stop) := by
  unfold Cut.text Cut.start
  rw [current, cursor]
  cases cut.current with
  | none => exact ⟨rfl, rfl⟩
  | some word => exact ⟨rfl, rfl⟩

end Cut
end ShellCompletion
