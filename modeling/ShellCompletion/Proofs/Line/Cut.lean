import Mathlib.Data.List.TakeWhile
import ShellCompletion.Line.Parse
import ShellCompletion.Proofs.Line.Tokens

namespace ShellCompletion

theorem Token.Within.upTo_eq {line : Bytes} {token : Token} (within : token.Within line) {cursor : Nat}
    (after : token.start ≤ cursor) (before : cursor ≤ token.stop) :
    token.upTo cursor = ⟨(line.take cursor).drop token.start, token.start, cursor⟩ := by
  have length : token.start + (cursor - token.start) = min cursor token.stop := by omega
  rw [Token.upTo, within.text_eq, List.take_drop, List.take_take, length]
  simp [Nat.min_eq_left before]

namespace Cut

variable {line : Bytes} {cursor : Nat}

theorem of_cursor (line : Bytes) (cursor : Nat) : (Cut.of line cursor).cursor = min cursor line.length := rfl

theorem of_cursor_le (line : Bytes) (cursor : Nat) : (Cut.of line cursor).cursor ≤ line.length := by
  rw [of_cursor]; omega

theorem complete_stop_lt {token : Token} (member : token ∈ (Cut.of line cursor).complete) :
    token.stop < (Cut.of line cursor).cursor := by
  simpa [of_cursor] using List.mem_takeWhile_imp member

theorem mem_tokenize_of_complete {token : Token} (member : token ∈ (Cut.of line cursor).complete) :
    token ∈ tokenize line :=
  (List.takeWhile_prefix _).subset member

/-- The tokens that do not end before the cursor. -/
def rest (line : Bytes) (cursor : Nat) : List Token :=
  (tokenize line).dropWhile (·.stop < min cursor line.length)

theorem complete_append_rest (line : Bytes) (cursor : Nat) :
    (Cut.of line cursor).complete ++ rest line cursor = tokenize line :=
  List.takeWhile_append_dropWhile

/-- A division of the tokens at the cursor is the cut. -/
theorem divide (cursor : Nat) {before later : List Token} (parts : tokenize line = before ++ later)
    (early : ∀ token ∈ before, token.stop < (Cut.of line cursor).cursor)
    (late : ∀ token ∈ later, (Cut.of line cursor).cursor ≤ token.stop) :
    (Cut.of line cursor).complete = before ∧ rest line cursor = later := by
  have pass : ∀ token ∈ before, decide (token.stop < min cursor line.length) = true :=
    fun token member => decide_eq_true (early token member)
  have fail : ∀ token ∈ later, decide (token.stop < min cursor line.length) = false :=
    fun token member => decide_eq_false (Nat.not_lt.mpr (late token member))
  constructor
  · simp only [Cut.of]; rw [parts]; exact takeWhile_divide _ _ _ pass fail
  · rw [rest, parts]; exact dropWhile_divide _ _ _ pass fail

/-- A token that the cursor stands in or at divides the others. -/
theorem divide_at {token : Token} {before after : List Token} (parts : tokenize line = before ++ token :: after)
    (starts : token.start ≤ (Cut.of line cursor).cursor) (stops : (Cut.of line cursor).cursor ≤ token.stop) :
    (Cut.of line cursor).complete = before ∧ rest line cursor = token :: after := by
  have around := tokenize_around parts
  refine divide cursor parts (fun earlier member => Nat.lt_of_lt_of_le (around.1 earlier member) starts)
    (fun later member => ?_)
  rcases List.mem_cons.mp member with rfl | member
  · exact stops
  · have := around.2 later member
    have := (tokenize_within line later (by simp [parts, member])).nonempty
    omega

theorem current_eq (line : Bytes) (cursor : Nat) :
    (Cut.of line cursor).current =
      ((rest line cursor).head?.filter (·.start ≤ (Cut.of line cursor).cursor)).map
        (·.upTo (Cut.of line cursor).cursor) := rfl

theorem rest_cons {token : Token} {after : List Token} (split : rest line cursor = token :: after) :
    tokenize line = (Cut.of line cursor).complete ++ token :: after ∧
      (Cut.of line cursor).cursor ≤ token.stop := by
  refine ⟨by rw [← split, complete_append_rest], ?_⟩
  have first := List.head?_dropWhile_not (fun t : Token => decide (t.stop < min cursor line.length))
    (tokenize line)
  rw [show List.dropWhile _ (tokenize line) = token :: after from split] at first
  simp only [List.head?_cons, decide_eq_false_iff_not, Nat.not_lt] at first
  exact first

theorem rest_of_current {word : Token} (current : (Cut.of line cursor).current = some word) :
    ∃ token after, rest line cursor = token :: after ∧ token.start ≤ (Cut.of line cursor).cursor := by
  rw [current_eq] at current
  obtain ⟨token, first, rfl⟩ := Option.map_eq_some_iff.mp current
  obtain ⟨head, starts⟩ := Option.filter_eq_some_iff.mp first
  obtain ⟨after, split⟩ := List.head?_eq_some_iff.mp head
  exact ⟨token, after, split, of_decide_eq_true starts⟩

theorem current_of_rest {token : Token} {after : List Token} (split : rest line cursor = token :: after)
    (starts : token.start ≤ (Cut.of line cursor).cursor) :
    (Cut.of line cursor).current =
      some ⟨(line.take cursor).drop token.start, token.start, (Cut.of line cursor).cursor⟩ := by
  obtain ⟨parts, stops⟩ := rest_cons split
  have within := tokenize_within line token (by simp [parts])
  have upTo := within.upTo_eq starts stops
  have text : line.take (Cut.of line cursor).cursor = line.take cursor := List.take_eq_take_min.symm
  rw [text] at upTo
  rw [current_eq, split, List.head?_cons, Option.filter_some, if_pos (by simpa using starts),
    Option.map_some, upTo]

/-- The cursor stands in or at a token, which is the first one that is not complete. -/
theorem current_eq_some {word : Token} (current : (Cut.of line cursor).current = some word) :
    ∃ token after, tokenize line = (Cut.of line cursor).complete ++ token :: after ∧
      token.start ≤ (Cut.of line cursor).cursor ∧ (Cut.of line cursor).cursor ≤ token.stop ∧
      word = ⟨(line.take cursor).drop token.start, token.start, (Cut.of line cursor).cursor⟩ := by
  obtain ⟨token, after, split, starts⟩ := rest_of_current current
  obtain ⟨parts, stops⟩ := rest_cons split
  rw [current_of_rest split starts] at current
  exact ⟨token, after, parts, starts, stops, (Option.some.inj current).symm⟩

theorem current_eq_none (current : (Cut.of line cursor).current = none) :
    ∀ token ∈ rest line cursor, (Cut.of line cursor).cursor < token.start := by
  cases split : rest line cursor with
  | nil => simp
  | cons first after =>
    have start : (Cut.of line cursor).cursor < first.start := by
      simpa [current_eq, split, Option.filter] using current
    obtain ⟨parts, _⟩ := rest_cons split
    intro token member
    rcases List.mem_cons.mp member with rfl | later
    · exact start
    · have := (tokenize_around parts).2 token later
      have := (tokenize_within line first (by simp [parts])).nonempty
      omega

theorem text_eq (line : Bytes) (cursor : Nat) :
    (Cut.of line cursor).start ≤ (Cut.of line cursor).cursor ∧
      (Cut.of line cursor).text = (line.take cursor).drop (Cut.of line cursor).start := by
  cases current : (Cut.of line cursor).current with
  | none => simp [Cut.text, Cut.start, current, of_cursor]
  | some word =>
    obtain ⟨token, after, parts, starts, stops, rfl⟩ := current_eq_some current
    simp [Cut.text, Cut.start, current, starts]

theorem complete_stop_lt_start {token : Token} (member : token ∈ (Cut.of line cursor).complete) :
    token.stop < (Cut.of line cursor).start := by
  cases current : (Cut.of line cursor).current with
  | none => simpa [Cut.start, current] using complete_stop_lt member
  | some word =>
    obtain ⟨under, after, parts, _, _, rfl⟩ := current_eq_some current
    simpa [Cut.start, current] using (tokenize_around parts).1 token member

/-- The tokens before the cursor in terms of those that end before it. -/
theorem mem_complete {token : Token} (member : token ∈ tokenize line)
    (stops : token.stop < (Cut.of line cursor).cursor) : token ∈ (Cut.of line cursor).complete := by
  rw [← complete_append_rest line cursor, List.mem_append] at member
  rcases member with complete | later
  · exact complete
  · exfalso
    cases split : rest line cursor with
    | nil => simp [split] at later
    | cons first after =>
      obtain ⟨parts, stop⟩ := rest_cons split
      rw [split] at later
      rcases List.mem_cons.mp later with rfl | after
      · omega
      · have := (tokenize_around parts).2 token after
        have := (tokenize_within line token (by simp [parts, after])).nonempty
        omega

theorem blank_after_complete {token : Token} (member : token ∈ (Cut.of line cursor).complete) :
    (line.drop token.stop).head?.any Bytes.isBlank := by
  have within := tokenize_within line token (mem_tokenize_of_complete member)
  have inside : token.stop < line.length := by
    have := complete_stop_lt member
    have := of_cursor_le line cursor
    omega
  rw [List.head?_drop, List.getElem?_eq_getElem inside]
  exact within.ended _ (List.getElem?_eq_getElem inside)

open Progress

private theorem cut_at (line : Bytes) (cursor : Nat) :
    (Cut.of line cursor).complete = ({} : Progress).closed (line.take cursor) ∧
      rest line cursor = (({} : Progress).after (line.take cursor)).tokens (line.drop cursor) := by
  have reads := reads_after (line.take cursor)
  refine divide cursor (by rw [tokenize_eq, ← tokens_append, List.take_append_drop]) ?_ ?_
  · intro token member
    simpa [of_cursor] using closed_stop_lt _ _ token member
  · intro token member
    have := offset_le_stop _ _ token member
    rw [reads.offset_eq, List.length_take] at this
    exact this

/-- Without the bytes after the cursor a line has the same complete tokens and the same text under
    the cursor. Only the token that starts at the cursor is no longer there. -/
theorem of_take (line : Bytes) (cursor : Nat) :
    (Cut.of (line.take cursor) cursor).cursor = (Cut.of line cursor).cursor ∧
      (Cut.of (line.take cursor) cursor).complete = (Cut.of line cursor).complete ∧
      ((Cut.of (line.take cursor) cursor).current = (Cut.of line cursor).current ∨
        (Cut.of (line.take cursor) cursor).current = none ∧
        (Cut.of line cursor).current =
          some ⟨[], (Cut.of line cursor).cursor, (Cut.of line cursor).cursor⟩) := by
  have reads := reads_after (line.take cursor)
  have same : (line.take cursor).take cursor = line.take cursor := by
    rw [List.take_take, Nat.min_self]
  obtain ⟨complete, remaining⟩ := cut_at line cursor
  obtain ⟨complete', remaining'⟩ := cut_at (line.take cursor) cursor
  have cursors : (Cut.of (line.take cursor) cursor).cursor = (Cut.of line cursor).cursor := by
    simp [of_cursor]
  rw [same] at complete' remaining'
  refine ⟨cursors, by rw [complete, complete'], ?_⟩
  rw [List.drop_take_self, tokens_nil] at remaining'
  cases open_ : (({} : Progress).after (line.take cursor)).pending with
  | none =>
    have empty : (Cut.of (line.take cursor) cursor).current = none := by
      rw [current_eq, remaining']; simp [last, open_]
    cases current : (Cut.of line cursor).current with
    | none => exact .inl empty
    | some word =>
      obtain ⟨token, after, split, starts⟩ := rest_of_current current
      have start := (reads.floor_le_start (line.drop cursor)) token (by simp [← remaining, split])
      have at_ : token.start = (Cut.of line cursor).cursor := by
        simp [floor, open_, reads.offset_eq] at start
        rw [of_cursor] at starts ⊢
        omega
      refine .inr ⟨empty, ?_⟩
      rw [← current, current_of_rest split starts, at_]
      simp [of_cursor]
  | some pending =>
    have started := reads.started pending open_
    obtain ⟨first, more, split, start⟩ := tokens_of_pending open_ (line.drop cursor)
    obtain ⟨first', more', split', start'⟩ := tokens_of_pending open_ []
    rw [← remaining] at split
    rw [tokens_nil, ← remaining'] at split'
    have within : pending.start ≤ (Cut.of line cursor).cursor := by
      rw [of_cursor]; simp at started; omega
    left
    rw [current_of_rest split (by omega), current_of_rest split' (by omega), cursors, start, start', same]

end Cut
end ShellCompletion
