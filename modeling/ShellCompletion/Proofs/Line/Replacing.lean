import ShellCompletion.Proofs.Line.Parsing
import ShellCompletion.Proofs.Line.Tiling

/-!
# A text in the place of the one under the cursor

A candidate takes the place of the text under the cursor. What stands before that text is a line of its own
whose tokens are the complete ones (`Cut.complete_eq`), so a new text that is one word is cut as the old one was
(`Cut.of_word`), and one with a blank after it is complete (`Cut.of_word_blank`). A text that no operator starts
leaves an operator in front of it as it is, and is read back as it stands exactly if no blank in it separates
words (`parse_replaced_iff`). A word that is typed out with a blank after it is read as one more complete word
(`parse_completed`).
-/
namespace ShellCompletion

/-! ## Where a word can start -/

/-- A word can start after the text: it is empty or ends in an unquoted blank. -/
def Bytes.IsFresh (before : Bytes) : Prop :=
  before = [] ∨ ∃ text c, before = text ++ [c] ∧ Quoting.bare.after text = .bare ∧ Bytes.isBlank c

namespace Bytes.IsFresh

variable {before : Bytes}

theorem after_eq (fresh : before.IsFresh) : Quoting.bare.after before = .bare := by
  rcases fresh with rfl | ⟨text, c, rfl, bare, blank⟩
  · rfl
  · rw [Quoting.after_append, bare]
    simp [Quoting.after, Quoting.feed_blank blank]

theorem tokenize_append (fresh : before.IsFresh) (text : Bytes) :
    tokenize (before ++ text) = tokenize before ++ (tokenize text).map (Token.shift before.length) := by
  rcases fresh with rfl | ⟨earlier, c, rfl, bare, blank⟩
  · rw [List.nil_append, show tokenize [] = [] from rfl, List.nil_append, List.length_nil,
      show Token.shift 0 = id from rfl, List.map_id]
  · rw [List.append_assoc, List.singleton_append, tokenize_separated bare blank, tokenize_separated bare blank,
      show tokenize [] = [] from rfl, List.map_nil, List.append_nil, List.length_append, List.length_singleton]

theorem stop_lt (fresh : before.IsFresh) : ∀ token ∈ tokenize before, token.stop < before.length := by
  rcases fresh with rfl | ⟨earlier, c, rfl, bare, blank⟩
  · exact fun token member => nomatch member
  · intro token member
    rw [tokenize_separated bare blank, show tokenize [] = [] from rfl, List.map_nil, List.append_nil] at member
    have inside := (tokenize_within earlier token member).inside
    rw [List.length_append, List.length_singleton]
    omega

end Bytes.IsFresh

namespace Cut

/-- What stands before the text under the cursor. -/
def before (line : Bytes) (cursor : Nat) : Bytes := line.take (Cut.of line cursor).start

variable {line : Bytes} {cursor : Nat}

theorem before_length (line : Bytes) (cursor : Nat) : (before line cursor).length = (Cut.of line cursor).start := by
  have := (Cut.text_eq line cursor).1
  have := of_cursor_le line cursor
  rw [before, List.length_take]
  omega

theorem start_free (line : Bytes) (cursor : Nat) : ∀ token ∈ tokenize line,
    ¬ (token.start < (Cut.of line cursor).start ∧ (Cut.of line cursor).start ≤ token.stop) := by
  rintro token member ⟨starts, stops⟩
  rw [← complete_append_rest line cursor, List.mem_append] at member
  rcases member with complete | later
  · have := complete_stop_lt_start complete
    omega
  · cases current : (Cut.of line cursor).current with
    | none =>
      have := current_eq_none current token later
      simp only [Cut.start, current, Option.map_none, Option.getD_none] at starts
      omega
    | some word =>
      obtain ⟨first, after, split, starts'⟩ := rest_of_current current
      obtain ⟨parts, _⟩ := rest_cons split
      rw [Cut.start, current_of_rest split starts', Option.map_some, Option.getD_some] at starts
      rw [split] at later
      rcases List.mem_cons.mp later with rfl | later
      · exact Nat.lt_irrefl _ starts
      · have := (tokenize_around parts).2 token later
        have := (tokenize_within line first (by simp [parts])).nonempty
        simp only at starts
        omega

theorem before_fresh (line : Bytes) (cursor : Nat) : (before line cursor).IsFresh := by
  have length := before_length line cursor
  have free := start_free line cursor
  unfold before at length ⊢
  generalize (Cut.of line cursor).start = start at length free
  cases start with
  | zero => exact .inl rfl
  | succ last =>
    rw [List.length_take] at length
    have separates : SeparatesAt line last := by
      by_contra word
      obtain ⟨token, member, starts, stops⟩ := (covered_iff (by omega)).mpr word
      exact free token member ⟨by omega, by omega⟩
    obtain ⟨c, at_, plain, blank⟩ := separates
    refine .inr ⟨line.take last, c, ?_, (Quoting.feed_plain plain).1, blank⟩
    rw [List.take_add_one, at_]
    rfl

theorem complete_eq (line : Bytes) (cursor : Nat) : (Cut.of line cursor).complete = tokenize (before line cursor) := by
  have fresh := before_fresh line cursor
  have length := before_length line cursor
  have parts := fresh.tokenize_append (line.drop (Cut.of line cursor).start)
  rw [before, List.take_append_drop, ← before] at parts
  refine (divide cursor parts (fun token member => ?_) (fun token member => ?_)).1
  · have := fresh.stop_lt token member
    have := (Cut.text_eq line cursor).1
    omega
  · -- A token that starts later and ends before the cursor would be complete, and those end earlier.
    by_contra early
    have complete := mem_complete (by rw [parts]; exact List.mem_append_right _ member) (Nat.lt_of_not_le early)
    have stops := complete_stop_lt_start complete
    have nonempty := (tokenize_within line token (mem_tokenize_of_complete complete)).nonempty
    obtain ⟨shifted, _, rfl⟩ := List.mem_map.mp member
    simp only [Token.shift] at stops nonempty
    omega

/-- Up to a word the line has the words before it, and a word can start there. -/
theorem tokenize_take_start {line : Bytes} {token : Token} {before after : List Token}
    (parts : tokenize line = before ++ token :: after) :
    tokenize (line.take token.start) = before ∧ Bytes.IsFresh (line.take token.start) := by
  have within := tokenize_within line token (by simp [parts])
  have nonempty := within.nonempty
  have inside := within.inside
  have cursor : (Cut.of line token.start).cursor = token.start := by rw [Cut.of_cursor]; omega
  obtain ⟨complete, rest⟩ := Cut.divide_at parts (Nat.le_of_eq cursor.symm) (by omega)
  have start : Cut.before line token.start = line.take token.start := by
    rw [Cut.before, Cut.start, Cut.current_of_rest rest (by rw [cursor])]
    rfl
  rw [← start]
  exact ⟨by rw [← Cut.complete_eq, complete], Cut.before_fresh line token.start⟩

theorem of_append {before : Bytes} (fresh : before.IsFresh) (line : Bytes) (cursor : Nat) :
    (Cut.of (before ++ line) (before.length + cursor)).complete =
        tokenize before ++ (Cut.of line cursor).complete.map (Token.shift before.length) ∧
      (Cut.of (before ++ line) (before.length + cursor)).current =
        (Cut.of line cursor).current.map (Token.shift before.length) := by
  have cursor_eq : min (before.length + cursor) (before ++ line).length = before.length + min cursor line.length := by
    rw [List.length_append]
    omega
  have early : ∀ token ∈ tokenize before, decide (token.stop < before.length + min cursor line.length) = true := by
    intro token member
    have := fresh.stop_lt token member
    rw [decide_eq_true_eq]
    omega
  have moved (token : Token) : ((token.shift before.length).stop < before.length + min cursor line.length) ↔
      token.stop < min cursor line.length := by simp only [Token.shift]; omega
  have starts (token : Token) : ((token.shift before.length).start ≤ before.length + min cursor line.length) ↔
      token.start ≤ min cursor line.length := by simp only [Token.shift]; omega
  constructor
  · simp only [Cut.of, cursor_eq, fresh.tokenize_append, List.takeWhile_append_of_pos early, List.takeWhile_map,
      Function.comp_def, moved]
  · have upTo (token : Token) : (token.shift before.length).upTo (before.length + min cursor line.length) =
        (token.upTo (min cursor line.length)).shift before.length := by
      simp only [Token.upTo, Token.shift, Token.mk.injEq, true_and]
      exact ⟨congrArg token.text.take (by omega), Nat.add_comm _ _⟩
    simp only [Cut.of, cursor_eq, fresh.tokenize_append, List.dropWhile_append_of_pos early, List.dropWhile_map,
      Function.comp_def, moved, List.head?_map, Option.filter_map, Option.map_map, starts, upTo]

/-! ## A new word -/

section
variable {text : Bytes} (joins : Quoting.bare.Joins text) (typed : text ≠ [])
include joins typed

theorem tokenize_before_append (line : Bytes) (cursor : Nat) :
    tokenize (before line cursor ++ text) = (Cut.of line cursor).complete ++
      [⟨text, (Cut.of line cursor).start, (Cut.of line cursor).start + text.length⟩] := by
  rw [(before_fresh line cursor).tokenize_append, tokenize_joined joins typed, complete_eq, before_length]
  simp [Token.shift, Nat.add_comm]

/-- A word at the end of the line takes the place of the text under the cursor. -/
theorem of_word (line : Bytes) (cursor : Nat) :
    let new := before line cursor ++ text
    (Cut.of new new.length).complete = (Cut.of line cursor).complete ∧
      (Cut.of new new.length).current = some ⟨text, (Cut.of line cursor).start, new.length⟩ := by
  have positive := List.length_pos_iff.mpr typed
  have tokens := tokenize_before_append joins typed line cursor
  have length : (before line cursor ++ text).length = (Cut.of line cursor).start + text.length := by
    rw [List.length_append, before_length]
  have word : (before line cursor ++ text).drop (Cut.of line cursor).start = text := by
    rw [← before_length line cursor, List.drop_left]
  generalize before line cursor ++ text = new at tokens length word ⊢
  have whole : (Cut.of new new.length).cursor = new.length := by rw [of_cursor, Nat.min_self]
  obtain ⟨complete, split⟩ := divide new.length tokens
    (fun token member => by have := complete_stop_lt_start member; omega)
    (by simp only [List.mem_singleton, forall_eq]; omega)
  refine ⟨complete, ?_⟩
  rw [current_of_rest split (by simp only [whole]; omega), whole, List.take_length, word]

theorem of_word_blank (closed : Quoting.bare.after text = .bare) (line : Bytes) (cursor : Nat) :
    let new := before line cursor ++ text ++ [' '.toUInt8]
    (Cut.of new new.length).complete = (Cut.of line cursor).complete ++
        [⟨text, (Cut.of line cursor).start, (Cut.of line cursor).start + text.length⟩] ∧
      (Cut.of new new.length).current = none := by
  have bare : Quoting.bare.after (before line cursor ++ text) = .bare := by
    rw [Quoting.after_append, (before_fresh line cursor).after_eq, closed]
  have tokens : tokenize (before line cursor ++ text ++ [' '.toUInt8]) =
      tokenize (before line cursor ++ text) ++ [] := by
    rw [tokenize_separated bare (by decide)]; rfl
  have length : (before line cursor ++ text ++ [' '.toUInt8]).length =
      (Cut.of line cursor).start + text.length + 1 := by
    rw [List.length_append, List.length_append, before_length]; rfl
  rw [tokenize_before_append joins typed] at tokens
  generalize before line cursor ++ text ++ [' '.toUInt8] = new at tokens length ⊢
  have whole : (Cut.of new new.length).cursor = new.length := by rw [of_cursor, Nat.min_self]
  obtain ⟨complete, split⟩ := divide new.length tokens
    (fun token member => by
      rcases List.mem_append.mp member with earlier | last
      · have := complete_stop_lt_start earlier
        omega
      · rw [List.mem_singleton.mp last]
        dsimp only
        omega)
    (fun token member => nomatch member)
  exact ⟨complete, by rw [current_eq, split]; rfl⟩

end

end Cut

/-! ## Texts that no operator starts -/

namespace Redirect

/-- No operator starts the text, even behind a descriptor. -/
def Apart (text : Bytes) : Prop :=
  ∀ c ∈ (text.dropWhile Bytes.isDigit).head?, c ≠ '&'.toUInt8 ∧ c ≠ '<'.toUInt8 ∧ c ≠ '>'.toUInt8

/-- An operator starts with a byte that no text apart goes on with, and holds no blank and no quote. -/
theorem of_operator {operator : Bytes} (known : operator ∈ operators) :
    operator.IsLiteral ∧ ∃ c rest, operator = c :: rest ∧ Bytes.isDigit c = false ∧
      (c = '&'.toUInt8 ∨ c = '<'.toUInt8 ∨ c = '>'.toUInt8) := by
  have all : operators = [utf8 "&>>", utf8 ">>", utf8 "&>", utf8 ">", utf8 "<"] := rfl
  simp only [all, List.mem_cons, List.not_mem_nil, or_false] at known
  rcases known with rfl | rfl | rfl | rfl | rfl
  all_goals exact ⟨by decide, _, _, rfl, by decide, by decide⟩

theorem gluedLength_of_apart {text : Bytes} (apart : Apart text) : gluedLength text = 0 := by
  unfold gluedLength
  dsimp only
  cases found : operators.find? (·.isPrefixOf (text.dropWhile Bytes.isDigit)) with
  | none => rfl
  | some operator =>
    obtain ⟨_, c, rest, rfl, _, starts⟩ := of_operator (List.mem_of_find?_eq_some found)
    have starts' := List.find?_some found
    obtain ⟨more, goes⟩ := List.isPrefixOf_iff_prefix.mp starts'
    obtain ⟨ampersand, less, greater⟩ := apart c (by simp [← goes])
    simp_all

/-- The operator that a text starts with is still the first such one before another text, unless that one
    makes it longer. -/
theorem find_operator {operator rest text : Bytes} (apart : text.head? ≠ some '>'.toUInt8)
    (found : operators.find? (·.isPrefixOf (operator ++ rest)) = some operator) :
    operators.find? (·.isPrefixOf (operator ++ text)) = some operator := by
  have known := List.mem_of_find?_eq_some found
  have bytes : operators = [[38, 62, 62], [62, 62], [38, 62], [62], [60]] := by decide
  rw [bytes] at known ⊢
  simp only [List.mem_cons, List.not_mem_nil, or_false] at known
  have other : ∀ more, text ≠ 62 :: more := by
    rintro more rfl
    exact apart rfl
  rcases known with rfl | rfl | rfl | rfl | rfl
  all_goals
    cases text with
    | nil => decide
    | cons c more =>
      have : ¬ 62 = c := fun same => other more (by rw [same])
      simp [List.isPrefixOf, this]

/-- A word carries an operator: digits for a descriptor, the operator, and the file flush against it. -/
structure Carries (descriptor operator file : Bytes) : Prop where
  digits : ∀ c ∈ descriptor, Bytes.isDigit c
  found : operators.find? (·.isPrefixOf (operator ++ file)) = some operator
  allowed : allows descriptor operator
  file_ne_nil : file ≠ []

namespace Carries

variable {descriptor operator file text : Bytes}

theorem gluedLength_eq (carries : Carries descriptor operator file) :
    gluedLength (descriptor ++ (operator ++ file)) = (descriptor ++ operator).length := by
  obtain ⟨_, c, rest, starts, digit, _⟩ := of_operator (List.mem_of_find?_eq_some carries.found)
  have first : (operator ++ file).takeWhile Bytes.isDigit = [] := by simp [starts, digit]
  have after : (operator ++ file).dropWhile Bytes.isDigit = operator ++ file := by simp [starts, digit]
  have positive := List.length_pos_iff.mpr carries.file_ne_nil
  unfold gluedLength
  rw [List.takeWhile_append_of_pos carries.digits, List.dropWhile_append_of_pos carries.digits, first, after]
  dsimp only
  rw [carries.found]
  simp [carries.allowed, positive]

theorem replace (carries : Carries descriptor operator file) (apart : Apart text) (typed : text ≠ []) :
    Carries descriptor operator text where
  digits := carries.digits
  found := by
    refine find_operator (fun greater => ?_) carries.found
    obtain ⟨rest, rfl⟩ := List.head?_eq_some_iff.mp greater
    exact (apart _ rfl).2.2 rfl
  allowed := carries.allowed
  file_ne_nil := typed

theorem literal (carries : Carries descriptor operator file) : (descriptor ++ operator).IsLiteral := by
  have digits : descriptor.IsLiteral := Bytes.isLiteral_of_test carries.digits (by decide +kernel)
  exact digits.append (of_operator (List.mem_of_find?_eq_some carries.found)).1

end Carries

theorem carries_of_gluedLength {word : Bytes} (glued : 0 < gluedLength word) :
    ∃ descriptor operator file, word = descriptor ++ (operator ++ file) ∧ Carries descriptor operator file := by
  unfold gluedLength at glued
  dsimp only at glued
  cases found : operators.find? (·.isPrefixOf (word.dropWhile Bytes.isDigit)) with
  | none => simp [found] at glued
  | some operator =>
    have starts := List.find?_some found
    obtain ⟨file, after⟩ := List.isPrefixOf_iff_prefix.mp starts
    simp only [found] at glued
    split_ifs at glued with flush
    · simp only [Bool.and_eq_true, decide_eq_true_eq] at flush
      refine ⟨word.takeWhile Bytes.isDigit, operator, file, ?_, ?_, ?_, flush.1, ?_⟩
      · rw [after, List.takeWhile_append_dropWhile]
      · exact fun c member => List.mem_takeWhile_imp member
      · rw [after, found]
      · rintro rfl
        rw [← after, List.append_nil] at flush
        exact Nat.lt_irrefl _ flush.2
    · exact absurd glued (Nat.lt_irrefl 0)

/-- The operator that a word carries, if any, holds no blank and no quote, and another text apart behind it leaves
    it as it is. -/
theorem gluedLength_take (word : Bytes) :
    Bytes.IsLiteral (word.take (gluedLength word)) ∧ ∀ text, Apart text → text ≠ [] →
      gluedLength (word.take (gluedLength word) ++ text) = gluedLength word := by
  rcases Nat.eq_zero_or_pos (gluedLength word) with none_ | glued
  · rw [none_, List.take_zero]
    exact ⟨List.forall_mem_nil _, fun text apart _ => gluedLength_of_apart apart⟩
  · obtain ⟨descriptor, operator, file, rfl, carries⟩ := carries_of_gluedLength glued
    rw [carries.gluedLength_eq, ← List.append_assoc, List.take_left]
    exact ⟨carries.literal, fun text apart typed => by
      rw [List.append_assoc, (carries.replace apart typed).gluedLength_eq]⟩

end Redirect

/-! ## Reading a text back -/

/-- A text that does not join holds a blank that separates on the line. -/
theorem separatesAt_of_not_joins {before text : Bytes} (splits : ¬ (Quoting.bare.after before).Joins text) :
    ∃ offset, before.length ≤ offset ∧ offset < (before ++ text).length ∧ SeparatesAt (before ++ text) offset := by
  induction text generalizing before with
  | nil => exact absurd trivial splits
  | cons c rest ih =>
    by_cases here : ((Quoting.bare.after before).feed c).1 = .plain ∧ Bytes.isBlank c
    · exact ⟨before.length, Nat.le_refl _, by simp, c, by simp, by simpa using here⟩
    · have later : ¬ (Quoting.bare.after (before ++ [c])).Joins rest := by
        rw [Quoting.after_append]
        exact fun joins => splits ⟨here, joins⟩
      obtain ⟨offset, past, inside, separates⟩ := ih later
      rw [List.append_assoc, List.singleton_append] at inside separates
      rw [List.length_append] at past
      exact ⟨offset, by omega, inside, separates⟩

variable {line text : Bytes} {cursor : Nat}

/-- The operator that the text under the cursor carries. -/
def Cut.carried (database : Option Database) (cut : Cut) : Bytes := cut.text.take (cut.advance database)

theorem Cut.carried_length (database : Option Database) (cut : Cut) :
    (cut.carried database).length = cut.advance database := by
  rw [carried, List.length_take, Nat.min_eq_left (cut.advance_le database)]

/-- A candidate leaves of the line what stands before the text under the cursor and the operator that this text
    carries. -/
theorem take_replaceStart (database : Option Database) (line : Bytes) (cursor : Nat) :
    line.take (parse database line cursor).replaceStart =
      Cut.before line cursor ++ (Cut.of line cursor).carried database := by
  have advance := (Cut.of line cursor).advance_le database
  obtain ⟨starts, under⟩ := Cut.text_eq line cursor
  rw [under, List.length_drop, List.length_take] at advance
  rw [(parse_replaceStart database line cursor).1, List.take_add, Cut.before, Cut.carried, under, List.drop_take,
    List.take_take, Nat.min_eq_left (by omega)]

/-- Whether an operator is looked for in the text under the cursor is decided by the complete words. -/
theorem Cut.advance_cases (database : Option Database) (complete : List Token) :
    (∀ line cursor, (Cut.of line cursor).complete = complete → (Cut.of line cursor).advance database = 0) ∨
      ∀ line cursor, (Cut.of line cursor).complete = complete →
        (Cut.of line cursor).advance database = Redirect.gluedLength (Cut.of line cursor).text := by
  cases complete with
  | nil => exact .inl fun line cursor first => advance_eq_zero database (.inl first)
  | cons first more =>
    by_cases ended : Reading.EndsOptions (database.bind (·.find? first.text)) more
    · refine .inl fun line cursor split => advance_eq_zero database (.inr ?_)
      rwa [Cut.schema?, Cut.command_eq split, split]
    · refine .inr fun line cursor split => advance_eq_glued database (by simp [split]) ?_
      rwa [Cut.schema?, Cut.command_eq split, split]

/-- The operator holds no blank and no quote, and another text apart behind it leaves it as it is. -/
theorem Cut.carried_spec (database : Option Database) (line : Bytes) (cursor : Nat) :
    Bytes.IsLiteral ((Cut.of line cursor).carried database) ∧
      ∀ text, Redirect.Apart text → text ≠ [] → ∀ new cursor',
        (Cut.of new cursor').complete = (Cut.of line cursor).complete →
        (Cut.of new cursor').text = (Cut.of line cursor).carried database ++ text →
        (Cut.of new cursor').advance database = (Cut.of line cursor).advance database := by
  rcases Cut.advance_cases database (Cut.of line cursor).complete with none_ | glued
  · rw [Cut.carried, none_ line cursor rfl, List.take_zero]
    exact ⟨List.forall_mem_nil _, fun text _ _ new cursor' complete _ => none_ new cursor' complete⟩
  · obtain ⟨literal, replaced⟩ := Redirect.gluedLength_take (Cut.of line cursor).text
    rw [Cut.carried, glued line cursor rfl]
    exact ⟨literal, fun text apart typed new cursor' complete word => by
      rw [glued new cursor' complete, word, replaced text apart typed]⟩

/-- In the span that a candidate takes the place of no blank separates, if the cursor is at the end of the line. -/
theorem not_separatesAt_of_replaceStart_le {database : Option Database} {offset : Nat}
    (past : (parse database line line.length).replaceStart ≤ offset) (inside : offset < line.length) :
    ¬ SeparatesAt line offset := by
  have whole : (Cut.of line line.length).cursor = line.length := by rw [Cut.of_cursor, Nat.min_self]
  rw [(parse_replaceStart database line line.length).1, Cut.start] at past
  cases under : (Cut.of line line.length).current with
  | none =>
    rw [under, Option.map_none, Option.getD_none] at past
    omega
  | some word =>
    obtain ⟨token, after, parts, _, stops, rfl⟩ := Cut.current_eq_some under
    simp only [under, Option.map_some, Option.getD_some] at past
    exact (covered_iff inside).mp ⟨token, by simp [parts], by omega, by omega⟩

theorem after_take_replaceStart (database : Option Database) (line : Bytes) (cursor : Nat) :
    Quoting.bare.after (line.take (parse database line cursor).replaceStart) = .bare := by
  obtain ⟨literal, _⟩ := Cut.carried_spec database line cursor
  rw [take_replaceStart, Quoting.after_append, (Cut.before_fresh line cursor).after_eq, Quoting.after_literal literal]

/-- A text apart in the place of the one under the cursor is read back as it stands exactly if it is one word. -/
theorem parse_replaced_iff (database : Option Database) (line : Bytes) (cursor : Nat) (apart : Redirect.Apart text)
    (typed : text ≠ []) :
    let parsed := parse database line cursor
    let new := line.take parsed.replaceStart ++ text
    ((parse database new new.length).replaceStart = parsed.replaceStart ∧
      (parse database new new.length).current = text) ↔ Quoting.bare.Joins text := by
  intro parsed new
  obtain ⟨literal, replaced⟩ := Cut.carried_spec database line cursor
  have kept : line.take parsed.replaceStart =
      Cut.before line cursor ++ (Cut.of line cursor).carried database := take_replaceStart database line cursor
  have start : parsed.replaceStart = (Cut.of line cursor).start + (Cut.of line cursor).advance database :=
    (parse_replaceStart database line cursor).1
  have bare : Quoting.bare.after (line.take parsed.replaceStart) = .bare := after_take_replaceStart database line cursor
  constructor
  · rintro ⟨back, -⟩
    by_contra splits
    rw [← bare] at splits
    obtain ⟨offset, past, inside, separates⟩ := separatesAt_of_not_joins splits
    rw [kept, List.length_append, Cut.before_length, Cut.carried_length, ← start, ← back] at past
    exact not_separatesAt_of_replaceStart_le past inside separates
  · intro joins
    have word_joins : Quoting.bare.Joins ((Cut.of line cursor).carried database ++ text) := by
      rw [Quoting.joins_append, Quoting.after_literal literal]
      exact ⟨Quoting.joins_literal literal, joins⟩
    obtain ⟨complete, current⟩ := Cut.of_word word_joins (by simp [typed]) line cursor
    rw [← List.append_assoc, ← kept] at complete current
    obtain ⟨start', current'⟩ := parse_replaceStart database new new.length
    have advance := replaced text apart typed new new.length complete (Cut.text_of_current current)
    rw [advance] at start' current'
    rw [start', start, current', Cut.text_of_current current, ← Cut.carried_length, List.drop_left, Cut.start, current]
    exact ⟨rfl, rfl⟩

/-- A word and a blank in the place of the text under the cursor, where that carries no operator, make one more
    complete word, and nothing is under the cursor. -/
theorem Cut.of_completed (database : Option Database) (words : (Cut.of line cursor).complete ≠ [])
    (unglued : (Cut.of line cursor).advance database = 0) (literal : text.IsLiteral) (typed : text ≠ []) :
    let start := (parse database line cursor).replaceStart
    let new := line.take start ++ text ++ [' '.toUInt8]
    (Cut.of new new.length).complete = (Cut.of line cursor).complete ++ [⟨text, start, start + text.length⟩] ∧
      (Cut.of new new.length).current = none ∧ (Cut.of new new.length).command = (Cut.of line cursor).command := by
  intro start new
  have same : start = (Cut.of line cursor).start := by
    rw [show start = (parse database line cursor).replaceStart from rfl, (parse_replaceStart database line cursor).1,
      unglued]
    rfl
  obtain ⟨complete, current⟩ :=
    Cut.of_word_blank (Quoting.joins_literal literal) typed (Quoting.after_literal literal) line cursor
  rw [Cut.before, ← same] at complete current
  obtain ⟨first, more, split⟩ := List.exists_cons_of_ne_nil words
  have split' : (Cut.of new new.length).complete = first :: (more ++ [⟨text, start, start + text.length⟩]) := by
    rw [show (Cut.of new new.length).complete = _ from complete, split]
    rfl
  exact ⟨complete, current, by rw [Cut.command_eq split, Cut.command_eq split']⟩

theorem Reading.ofCut_completed (schema : Option Schema) {cut new : Cut} {word : Token} (words : cut.complete ≠ [])
    (complete : new.complete = cut.complete ++ [word]) (current : new.current = none) :
    ofCut schema new = (ofComplete schema cut).step schema word := by
  obtain ⟨first, more, split⟩ := List.exists_cons_of_ne_nil words
  simp [ofCut, current, complete, split, ofComplete]

theorem parse_completed (database : Option Database) (words : (Cut.of line cursor).complete ≠ [])
    (unglued : (Cut.of line cursor).advance database = 0) (literal : text.IsLiteral) (typed : text ≠ []) :
    let parsed := parse database line cursor
    let schema := (Cut.of line cursor).schema? database
    let word : Token := ⟨text, parsed.replaceStart, parsed.replaceStart + text.length⟩
    let reading := (Reading.ofComplete schema (Cut.of line cursor)).step schema word
    let new := line.take parsed.replaceStart ++ text ++ [' '.toUInt8]
    let again := parse database new new.length
    again.command = parsed.command ∧ again.subcommandPath = reading.path ∧ again.options = reading.options ∧
      again.arguments = reading.arguments := by
  intro parsed schema word reading new again
  obtain ⟨complete, current, command⟩ := Cut.of_completed database words unglued literal typed
  have words' : (Cut.of new new.length).complete ≠ [] := by
    rw [show (Cut.of new new.length).complete = _ from complete]
    simp
  have same : (Cut.of new new.length).schema? database = schema := by
    rw [Cut.schema?, show (Cut.of new new.length).command = _ from command]
    rfl
  have parsed' := parse_of_words database words'
  dsimp only at parsed'
  rw [same, Reading.ofCut_completed schema words complete current,
    show (Cut.of new new.length).command = _ from command] at parsed'
  rw [show again = _ from parsed']
  exact ⟨(parse_command database line cursor).symm, rfl, rfl, rfl⟩

/-- What is typed behind an unquoted blank leaves the words before it complete. -/
theorem Cut.complete_prefix (fresh : line.IsFresh) (rest : Bytes) (past : line.length ≤ cursor) :
    (Cut.of line line.length).complete <+: (Cut.of (line ++ rest) cursor).complete := by
  obtain ⟨further, rfl⟩ := Nat.exists_eq_add_of_le past
  rw [(Cut.of_append fresh rest further).1]
  exact (List.takeWhile_prefix _).trans (List.prefix_append _ _)

end ShellCompletion
