import Mathlib.Data.List.Basic
import Mathlib.Tactic.SplitIfs
import ShellCompletion.Line.Token

/-!
# Where the tokens of a line lie

A line is read byte by byte, and `Progress` is all that the bytes so far say about the rest. Its
invariant `Reads` gives the span of every token (`tokenize_within`) and their order
(`tokenize_ordered`). A line falls apart at any offset (`tokens_append`), at an unquoted blank
(`tokenize_separated`) and at the start of a token (`tokenize_drop_start`).
-/
namespace ShellCompletion

theorem takeWhile_divide {α : Type} (test : α → Bool) (front rest : List α) (pass : ∀ a ∈ front, test a)
    (fail : ∀ a ∈ rest, test a = false) : (front ++ rest).takeWhile test = front := by
  rw [List.takeWhile_append_of_pos pass]
  cases rest with
  | nil => simp
  | cons a rest => simp [fail a (by simp)]

theorem dropWhile_divide {α : Type} (test : α → Bool) (front rest : List α) (pass : ∀ a ∈ front, test a)
    (fail : ∀ a ∈ rest, test a = false) : (front ++ rest).dropWhile test = rest := by
  rw [List.dropWhile_append_of_pos pass]
  cases rest with
  | nil => simp
  | cons a rest => simp [fail a (by simp)]

theorem Bytes.ne_of_test {test : UInt8 → Bool} {c d : UInt8} {result : Bool} (here : test c = result)
    (there : test d ≠ result) : c ≠ d := by
  rintro rfl
  exact there here

theorem Bytes.eq_of_isBlank {c : UInt8} (blank : Bytes.isBlank c) :
    c = ' '.toUInt8 ∨ c = '\t'.toUInt8 ∨ c = '\n'.toUInt8 ∨ c = '\r'.toUInt8 := by
  simpa [Bytes.isBlank, or_assoc] using blank

/-- No byte of the text quotes, escapes or separates. -/
def Bytes.IsLiteral (text : Bytes) : Prop :=
  ∀ byte ∈ text, byte ≠ '\\'.toUInt8 ∧ byte ≠ '"'.toUInt8 ∧ byte ≠ '\''.toUInt8 ∧ Bytes.isBlank byte = false

instance (text : Bytes) : Decidable text.IsLiteral := List.decidableBAll _ text

/-- Bytes that pass a test which none of those that quote, escape or separate passes. -/
theorem Bytes.isLiteral_of_test {test : UInt8 → Bool} {text : Bytes} (passes : ∀ byte ∈ text, test byte)
    (fails : ∀ byte ∈ utf8 "\\\"' \t\n\r", test byte = false) : text.IsLiteral := by
  intro byte member
  have apart {other : UInt8} (special : other ∈ utf8 "\\\"' \t\n\r") : byte ≠ other :=
    Bytes.ne_of_test (passes byte member) (by simp [fails other special])
  refine ⟨apart (by decide), apart (by decide), apart (by decide), ?_⟩
  by_contra blank
  rcases Bytes.eq_of_isBlank (by simpa using blank) with rfl | rfl | rfl | rfl <;> exact apart (by decide) rfl

theorem Bytes.IsLiteral.append {text more : Bytes} (literal : text.IsLiteral) (literal' : more.IsLiteral) :
    Bytes.IsLiteral (text ++ more) :=
  fun byte member => (List.mem_append.mp member).elim (literal byte) (literal' byte)

theorem Bytes.IsLiteral.tail {c : UInt8} {rest : Bytes} (literal : Bytes.IsLiteral (c :: rest)) : rest.IsLiteral :=
  fun byte member => literal byte (List.mem_cons_of_mem c member)

namespace Quoting

theorem feed_plain {q : Quoting} {c : UInt8} (plain : (q.feed c).1 = .plain) :
    q = .bare ∧ (q.feed c).2 = .bare := by
  cases q with
  | bare => refine ⟨rfl, ?_⟩; simp only [feed] at plain ⊢; split_ifs at plain ⊢; rfl
  | single => simp only [feed] at plain; split_ifs at plain
  | double => simp only [feed] at plain; split_ifs at plain
  | bareEscape => simp [feed] at plain
  | doubleEscape => simp [feed] at plain

theorem after_append (q : Quoting) (s t : Bytes) : q.after (s ++ t) = (q.after s).after t := by
  simp [after, List.foldl_append]

theorem feed_blank {c : UInt8} (blank : Bytes.isBlank c) : bare.feed c = (.plain, bare) := by
  rcases Bytes.eq_of_isBlank blank with rfl | rfl | rfl | rfl <;> decide

theorem feed_literal {text : Bytes} (literal : text.IsLiteral) {c : UInt8} (member : c ∈ text) :
    bare.feed c = (.plain, bare) := by
  obtain ⟨escape, double, single, _⟩ := literal c member
  simp [feed, escape, double, single]

theorem after_literal {text : Bytes} (literal : text.IsLiteral) : bare.after text = bare := by
  induction text with
  | nil => rfl
  | cons c rest ih =>
    rw [after, List.foldl_cons, feed_literal literal List.mem_cons_self]
    exact ih literal.tail

/-- Read from the state, no blank of the text stands unquoted. -/
def Joins : Quoting → Bytes → Prop
  | _, [] => True
  | q, c :: rest => ¬ ((q.feed c).1 = .plain ∧ Bytes.isBlank c) ∧ (q.feed c).2.Joins rest

theorem joins_append (q : Quoting) (s t : Bytes) : q.Joins (s ++ t) ↔ q.Joins s ∧ (q.after s).Joins t := by
  induction s generalizing q with
  | nil => simp [Joins, after]
  | cons c rest ih => simp only [List.cons_append, Joins, ih, and_assoc]; rfl

theorem joins_literal {text : Bytes} (literal : text.IsLiteral) : bare.Joins text := by
  induction text with
  | nil => trivial
  | cons c rest ih =>
    obtain ⟨_, _, _, blank⟩ := literal c List.mem_cons_self
    rw [Joins, feed_literal literal List.mem_cons_self]
    exact ⟨by simp [blank], ih literal.tail⟩

end Quoting

/-- The token `k` bytes further to the right. -/
def Token.shift (k : Nat) (token : Token) : Token := ⟨token.text, token.start + k, token.stop + k⟩

/-- A token as it lies on a line: a run of bytes that starts outside quotes, and that a blank or the
    end of the line follows. -/
structure Token.Within (line : Bytes) (token : Token) : Prop where
  nonempty : token.start < token.stop
  inside : token.stop ≤ line.length
  text_eq : token.text = (line.take token.stop).drop token.start
  fresh : Quoting.bare.after (line.take token.start) = .bare
  ended : ∀ c, (line)[token.stop]? = some c → Bytes.isBlank c

theorem Token.Within.text_length {line : Bytes} {token : Token} (within : token.Within line) :
    token.text.length = token.stop - token.start := by
  have inside := within.inside
  rw [within.text_eq, List.length_drop, List.length_take]
  omega

theorem Token.Within.text_ne_nil {line : Bytes} {token : Token} (within : token.Within line) : token.text ≠ [] := by
  have nonempty := within.nonempty
  rw [← List.length_pos_iff, within.text_length]
  omega

/-! ## Reading a line byte by byte -/

/-- What the bytes so far say about the rest of a line: the state of quoting, the offset, and the
    token being read. -/
structure Progress where
  quoting : Quoting := .bare
  offset : Nat := 0
  pending : Option Token.Pending := none

namespace Progress

/-- The next byte is a blank outside quotes. -/
def Separates (p : Progress) (c : UInt8) : Prop := (p.quoting.feed c).1 = .plain ∧ Bytes.isBlank c

instance (p : Progress) (c : UInt8) : Decidable (p.Separates c) := by
  unfold Separates; infer_instance

/-- The progress after one more byte. -/
def next (p : Progress) (c : UInt8) : Progress where
  quoting := (p.quoting.feed c).2
  offset := p.offset + 1
  pending := if p.Separates c then none else some (Token.Pending.push p.pending p.offset c)

/-- The progress after a text. -/
def after (p : Progress) (text : Bytes) : Progress := text.foldl next p

/-- The token that is being read, if it ends here. -/
def last (p : Progress) : List Token := (p.pending.map (·.close p.offset)).toList

/-- The tokens that a blank of the text ends. -/
def closed (p : Progress) : Bytes → List Token
  | [] => []
  | c :: rest => (if p.Separates c then p.last else []) ++ (p.next c).closed rest

/-- The tokens that end in the text or with it. -/
def tokens (p : Progress) (text : Bytes) : List Token := Token.scan p.quoting p.offset p.pending text

/-- Where the token being read starts, or the next one can start at the earliest. -/
def floor (p : Progress) : Nat := (p.pending.map Token.Pending.start).getD p.offset

theorem tokenize_eq (line : Bytes) : tokenize line = ({} : Progress).tokens line := rfl

theorem tokens_nil (p : Progress) : p.tokens [] = p.last := rfl

theorem tokens_cons (p : Progress) (c : UInt8) (rest : Bytes) :
    p.tokens (c :: rest) = (if p.Separates c then p.last else []) ++ (p.next c).tokens rest := by
  rw [tokens, Token.scan]
  change (if p.Separates c then _ else _) = _
  split_ifs with blank <;> simp [next, tokens, last, blank]

theorem mem_last {p : Progress} {token : Token} :
    token ∈ p.last ↔ ∃ pending, p.pending = some pending ∧ pending.close p.offset = token := by
  simp [last]

theorem tokens_append (p : Progress) (s t : Bytes) :
    p.tokens (s ++ t) = p.closed s ++ (p.after s).tokens t := by
  induction s generalizing p with
  | nil => rfl
  | cons c rest ih => rw [List.cons_append, tokens_cons, ih, closed, List.append_assoc]; rfl

/-! ## The invariant -/

/-- The progress is that of reading the text `before` from the start of a line. -/
structure Reads (p : Progress) (before : Bytes) : Prop where
  offset_eq : p.offset = before.length
  quoting_eq : p.quoting = Quoting.bare.after before
  between : p.pending = none → p.quoting = .bare
  started : ∀ pending ∈ p.pending, pending.start < before.length
  read : ∀ pending ∈ p.pending, pending.reversed.reverse = before.drop pending.start
  fresh : ∀ pending ∈ p.pending, Quoting.bare.after (before.take pending.start) = .bare

theorem reads_nil : ({} : Progress).Reads [] where
  offset_eq := rfl
  quoting_eq := rfl
  between _ := rfl
  started := by simp
  read := by simp
  fresh := by simp

variable {p : Progress} {before : Bytes}

theorem Reads.next (reads : p.Reads before) (c : UInt8) : (p.next c).Reads (before ++ [c]) := by
  have offset := reads.offset_eq
  have quoting : (p.next c).quoting = Quoting.bare.after (before ++ [c]) := by
    rw [Quoting.after_append, ← reads.quoting_eq]; rfl
  by_cases blank : p.Separates c
  · have none : (p.next c).pending = none := by simp [Progress.next, blank]
    refine ⟨by simp [Progress.next, offset], quoting, ?_, by simp [none], by simp [none], by simp [none]⟩
    exact fun _ => (Quoting.feed_plain blank.1).2
  · have some : (p.next c).pending = some (Token.Pending.push p.pending p.offset c) := by
      simp [Progress.next, blank]
    refine ⟨by simp [Progress.next, offset], quoting, by simp [some], ?_, ?_, ?_⟩
    all_goals
      intro pending member
      obtain rfl : Token.Pending.push p.pending p.offset c = pending := by simpa [some] using member
      cases open_ : p.pending with
      | none => simp [Token.Pending.push, offset, ← reads.quoting_eq, reads.between open_]
      | some old =>
        have started := reads.started old open_
        have read := reads.read old open_
        have fresh := reads.fresh old open_
        simp only [Token.Pending.push, List.reverse_cons, List.length_append, List.length_singleton]
        first
          | omega
          | rw [read, List.drop_append_of_le_length (by omega)]
          | rw [List.take_append_of_le_length (by omega), fresh]

theorem Reads.after (reads : p.Reads before) (text : Bytes) : (p.after text).Reads (before ++ text) := by
  induction text generalizing p before with
  | nil => simpa [Progress.after] using reads
  | cons c rest ih => simpa [Progress.after] using ih (reads.next c)

theorem reads_after (text : Bytes) : (({} : Progress).after text).Reads text := by
  simpa using reads_nil.after text

theorem Reads.floor_le (reads : p.Reads before) : p.floor ≤ p.offset := by
  cases open_ : p.pending with
  | none => simp [floor, open_]
  | some pending =>
    have started := reads.started pending open_
    simp [floor, open_, reads.offset_eq]; omega

theorem Reads.floor_next (reads : p.Reads before) (c : UInt8) : p.floor ≤ (p.next c).floor := by
  have floor := reads.floor_le
  by_cases blank : p.Separates c
  · simp [Progress.next, Progress.floor, blank] at floor ⊢; omega
  · cases open_ : p.pending <;> simp [Progress.next, Progress.floor, Token.Pending.push, blank, open_]

/-! ## Spans -/

/-- The token being read lies on the line if the line ends, or goes on with a blank, here. -/
theorem Reads.last_within (reads : p.Reads before) (rest : Bytes)
    (ended : ∀ c, rest.head? = some c → Bytes.isBlank c) :
    ∀ token ∈ p.last, token.Within (before ++ rest) := by
  intro token member
  obtain ⟨pending, open_, rfl⟩ := mem_last.mp member
  have started := reads.started pending open_
  refine ⟨?_, ?_, ?_, ?_, ?_⟩
  · simpa [Token.Pending.close, reads.offset_eq] using started
  · simp [Token.Pending.close, reads.offset_eq]
  · simpa [Token.Pending.close, reads.offset_eq] using reads.read pending open_
  · simp only [Token.Pending.close]
    rw [List.take_append_of_le_length (by omega), reads.fresh pending open_]
  · intro c at_
    apply ended
    simpa [Token.Pending.close, reads.offset_eq, List.getElem?_append_right, List.head?_eq_getElem?] using at_

theorem Reads.tokens_within (reads : p.Reads before) (rest : Bytes) :
    ∀ token ∈ p.tokens rest, token.Within (before ++ rest) := by
  induction rest generalizing p before with
  | nil => exact reads.last_within [] (by simp)
  | cons c rest ih =>
    intro token member
    rw [tokens_cons, List.mem_append] at member
    rcases member with here | later
    · split_ifs at here with blank
      · exact reads.last_within (c :: rest) (by simpa using blank.2) token here
      · simp at here
    · simpa using ih (reads.next c) token later

theorem last_stop (p : Progress) : ∀ token ∈ p.last, token.stop = p.offset := by
  intro token member
  obtain ⟨pending, _, rfl⟩ := mem_last.mp member
  rfl

theorem floor_le_last : ∀ token ∈ p.last, p.floor ≤ token.start := by
  intro token member
  obtain ⟨pending, open_, rfl⟩ := mem_last.mp member
  simp [floor, open_, Token.Pending.close]

theorem Reads.floor_le_start (reads : p.Reads before) (rest : Bytes) :
    ∀ token ∈ p.tokens rest, p.floor ≤ token.start := by
  induction rest generalizing p before with
  | nil => exact floor_le_last
  | cons c rest ih =>
    intro token member
    rw [tokens_cons, List.mem_append] at member
    rcases member with here | later
    · split_ifs at here
      · exact floor_le_last token here
      · simp at here
    · exact Nat.le_trans (reads.floor_next c) (ih (reads.next c) token later)

theorem offset_le_stop (p : Progress) (rest : Bytes) : ∀ token ∈ p.tokens rest, p.offset ≤ token.stop := by
  induction rest generalizing p with
  | nil => exact fun token member => Nat.le_of_eq (p.last_stop token member).symm
  | cons c rest ih =>
    intro token member
    rw [tokens_cons, List.mem_append] at member
    rcases member with now | later
    · split_ifs at now
      · exact Nat.le_of_eq (p.last_stop token now).symm
      · simp at now
    · have := ih (p.next c) token later
      simp [next] at this; omega

theorem closed_stop_lt (p : Progress) (text : Bytes) :
    ∀ token ∈ p.closed text, token.stop < p.offset + text.length := by
  induction text generalizing p with
  | nil => simp [closed]
  | cons c rest ih =>
    intro token member
    rw [closed, List.mem_append] at member
    rcases member with now | later
    · split_ifs at now
      · have := p.last_stop token now
        simp; omega
      · simp at now
    · have := ih (p.next c) token later
      simp [next] at this ⊢; omega

theorem tokens_of_pending {pending : Token.Pending} (open_ : p.pending = some pending) (rest : Bytes) :
    ∃ token more, p.tokens rest = token :: more ∧ token.start = pending.start := by
  induction rest generalizing p pending with
  | nil => exact ⟨_, [], by simp [tokens_nil, last, open_]; rfl, rfl⟩
  | cons c rest ih =>
    rw [tokens_cons]
    by_cases blank : p.Separates c
    · exact ⟨_, (p.next c).tokens rest, by simp [last, open_, blank]; rfl, rfl⟩
    · have next : (p.next c).pending = some ⟨pending.start, c :: pending.reversed⟩ := by
        simp [Progress.next, blank, open_, Token.Pending.push]
      obtain ⟨token, more, first, start⟩ := ih next
      exact ⟨token, more, by simp [blank, first], start⟩

theorem next_of_word (p : Progress) {c : UInt8} (word : Bytes.isBlank c = false) :
    ¬ p.Separates c ∧ (p.next c).pending = some (Token.Pending.push p.pending p.offset c) := by
  have separates : ¬ p.Separates c := by simp [Separates, word]
  exact ⟨separates, by simp [Progress.next, separates]⟩

/-- The token being read takes a text whole in which no blank separates. -/
theorem tokens_of_joins {text : Bytes} (joins : p.quoting.Joins text) {pending : Token.Pending}
    (open_ : p.pending = some pending) :
    p.tokens text = [⟨pending.reversed.reverse ++ text, pending.start, p.offset + text.length⟩] := by
  induction text generalizing p pending with
  | nil => simp [tokens_nil, last, open_, Token.Pending.close]
  | cons c rest ih =>
    have separates : ¬ p.Separates c := joins.1
    have next : (p.next c).pending = some (Token.Pending.push p.pending p.offset c) := by
      simp [Progress.next, separates]
    rw [open_] at next
    rw [tokens_cons, if_neg separates, ih joins.2 next]
    simp [Progress.next, Token.Pending.push, Nat.add_assoc, Nat.add_comm 1]

theorem Reads.tokens_ordered (reads : p.Reads before) (rest : Bytes) :
    (p.tokens rest).Pairwise (fun token later => token.stop < later.start) := by
  have single : ∀ p : Progress, p.last.Pairwise (fun token later => token.stop < later.start) := by
    intro p
    unfold last
    cases p.pending <;> simp
  induction rest generalizing p before with
  | nil => exact single p
  | cons c rest ih =>
    rw [tokens_cons]
    by_cases blank : p.Separates c
    · rw [if_pos blank]
      refine List.pairwise_append.mpr ⟨single p, ih (reads.next c), ?_⟩
      intro token here later member
      have stop := p.last_stop token here
      have start := (reads.next c).floor_le_start rest later member
      simp [Progress.next, floor, blank] at start
      omega
    · simpa [blank] using ih (reads.next c)

/-! ## Moving a line -/

/-- The same progress on a line that starts `k` bytes further to the right. -/
def shift (k : Nat) (p : Progress) : Progress where
  quoting := p.quoting
  offset := p.offset + k
  pending := p.pending.map fun pending => ⟨pending.start + k, pending.reversed⟩

theorem separates_shift (k : Nat) (p : Progress) (c : UInt8) : (p.shift k).Separates c ↔ p.Separates c :=
  Iff.rfl

theorem next_shift (k : Nat) (p : Progress) (c : UInt8) : (p.shift k).next c = (p.next c).shift k := by
  by_cases blank : p.Separates c
  · simp [next, separates_shift, blank]; simp [shift]; omega
  · cases open_ : p.pending <;>
      simp [next, separates_shift, blank] <;> simp [shift, open_, Token.Pending.push] <;> omega

theorem last_shift (k : Nat) (p : Progress) : (p.shift k).last = p.last.map (Token.shift k) := by
  cases open_ : p.pending <;> simp [last, shift, open_, Token.shift, Token.Pending.close]

theorem tokens_shift (k : Nat) (p : Progress) (text : Bytes) :
    (p.shift k).tokens text = (p.tokens text).map (Token.shift k) := by
  induction text generalizing p with
  | nil => exact last_shift k p
  | cons c rest ih =>
    rw [tokens_cons, tokens_cons, next_shift, ih, last_shift, List.map_append]
    simp only [separates_shift]
    split_ifs <;> rfl

end Progress

/-! ## The tokens of a line -/

open Progress

/-- Every token is the run of bytes that its span says. -/
theorem tokenize_within (line : Bytes) : ∀ token ∈ tokenize line, token.Within line :=
  reads_nil.tokens_within line

/-- The tokens stand in the order of the line, with at least one byte between any two. -/
theorem tokenize_ordered (line : Bytes) :
    (tokenize line).Pairwise (fun token later => token.stop < later.start) :=
  reads_nil.tokens_ordered line

theorem tokenize_around {line : Bytes} {before after : List Token} {token : Token}
    (parts : tokenize line = before ++ token :: after) :
    (∀ earlier ∈ before, earlier.stop < token.start) ∧ ∀ later ∈ after, token.stop < later.start := by
  have ordered := parts ▸ tokenize_ordered line
  obtain ⟨_, rest, across⟩ := List.pairwise_append.mp ordered
  exact ⟨fun earlier member => across earlier member token (by simp), (List.pairwise_cons.mp rest).1⟩

/-- At an unquoted blank a line falls into two lines. -/
theorem tokenize_separated {s t : Bytes} {c : UInt8} (bare : Quoting.bare.after s = .bare)
    (blank : Bytes.isBlank c) :
    tokenize (s ++ c :: t) = tokenize s ++ (tokenize t).map (Token.shift (s.length + 1)) := by
  have reads := reads_after s
  have quoting : (({} : Progress).after s).quoting = .bare := reads.quoting_eq.trans bare
  have separates : (({} : Progress).after s).Separates c := by
    simp [Separates, quoting, Quoting.feed_blank blank, blank]
  have fresh : (({} : Progress).after s).next c = ({} : Progress).shift (s.length + 1) := by
    simp [Progress.next, separates, Progress.shift, reads.offset_eq, quoting, Quoting.feed_blank blank]
  have whole : tokenize s = ({} : Progress).closed s ++ (({} : Progress).after s).last := by
    rw [tokenize_eq, ← tokens_nil, ← tokens_append, List.append_nil]
  rw [whole, tokenize_eq, tokens_append, tokens_cons, if_pos separates, fresh, tokens_shift,
    List.append_assoc]
  rfl

theorem tokenize_joined {text : Bytes} (joins : Quoting.bare.Joins text) (nonempty : text ≠ []) :
    tokenize text = [⟨text, 0, text.length⟩] := by
  cases text with
  | nil => exact absurd rfl nonempty
  | cons c rest =>
    have separates : ¬ ({} : Progress).Separates c := joins.1
    have pending : (({} : Progress).next c).pending = some ⟨0, [c]⟩ := by
      simp [Progress.next, separates, Token.Pending.push]
    rw [tokenize_eq, tokens_cons, if_neg separates, tokens_of_joins joins.2 pending]
    simp [Progress.next, Nat.add_comm]

theorem tokenize_literal {text : Bytes} (literal : text.IsLiteral) (nonempty : text ≠ []) :
    tokenize text = [⟨text, 0, text.length⟩] := tokenize_joined (Quoting.joins_literal literal) nonempty

theorem tokenize_starts {line : Bytes} (starts : line.head?.any (!Bytes.isBlank ·)) :
    ∃ token more, tokenize line = token :: more ∧ token.start = 0 := by
  cases line with
  | nil => simp at starts
  | cons c rest =>
    have word : Bytes.isBlank c = false := by simpa using starts
    obtain ⟨separates, pending⟩ := ({} : Progress).next_of_word word
    obtain ⟨token, more, first, start⟩ := tokens_of_pending pending rest
    exact ⟨token, more, by rw [tokenize_eq, tokens_cons, if_neg separates]; exact first, start⟩

/-- Outside a token, between it and the one before, nothing is being read. -/
private theorem pending_at_start {line : Bytes} {token : Token} (member : token ∈ tokenize line) :
    (({} : Progress).after (line.take token.start)).pending = none := by
  have within := tokenize_within line token member
  have nonempty := within.nonempty
  have inside := within.inside
  have reads := reads_after (line.take token.start)
  have length : (line.take token.start).length = token.start := by simp; omega
  have parts : tokenize line = ({} : Progress).closed (line.take token.start) ++
      (({} : Progress).after (line.take token.start)).tokens (line.drop token.start) := by
    rw [tokenize_eq, ← tokens_append, List.take_append_drop]
  have ordered := tokenize_ordered line
  cases open_ : (({} : Progress).after (line.take token.start)).pending with
  | none => rfl
  | some pending =>
    exfalso
    have started := reads.started pending open_
    obtain ⟨first, more, rest, start⟩ := tokens_of_pending open_ (line.drop token.start)
    have stop := offset_le_stop _ _ first (rest ▸ List.mem_cons_self)
    rw [reads.offset_eq] at stop
    rw [parts, rest] at member ordered
    rcases List.mem_append.mp member with before | after
    · have := closed_stop_lt _ _ token before
      simp [length] at this; omega
    · rcases List.mem_cons.mp after with rfl | later
      · omega
      · have := (List.pairwise_cons.mp (List.pairwise_append.mp ordered).2.1).1 token later
        omega

/-- Cut off at the start of a token, a line has that token and the ones after it. -/
theorem tokenize_drop_start {line : Bytes} {before after : List Token} {token : Token}
    (parts : tokenize line = before ++ token :: after) :
    (tokenize (line.drop token.start)).map (Token.shift token.start) = token :: after := by
  have member : token ∈ tokenize line := by simp [parts]
  have within := tokenize_within line token member
  have nonempty := within.nonempty
  have inside := within.inside
  have reads := reads_after (line.take token.start)
  have none := pending_at_start member
  have fresh : ({} : Progress).after (line.take token.start) = ({} : Progress).shift token.start := by
    have offset := reads.offset_eq
    have quoting := reads.between none
    rw [List.length_take, Nat.min_eq_left (by omega)] at offset
    generalize ({} : Progress).after (line.take token.start) = p at none offset quoting
    cases p; simp_all [Progress.shift]
  have cut : ({} : Progress).closed (line.take token.start) ++
      (tokenize (line.drop token.start)).map (Token.shift token.start) = before ++ token :: after := by
    rw [tokenize_eq (line.drop token.start), ← tokens_shift, ← fresh, ← tokens_append,
      List.take_append_drop, ← parts]
    rfl
  have around := tokenize_around parts
  -- Both sides of `cut` divide at the first token that does not end before `token.start`.
  have left := dropWhile_divide (fun u : Token => decide (u.stop < token.start))
    (({} : Progress).closed (line.take token.start))
    ((tokenize (line.drop token.start)).map (Token.shift token.start))
    (fun u earlier => by
      have := closed_stop_lt _ _ u earlier
      simp at this ⊢; omega)
    (by simp [Token.shift])
  have right := dropWhile_divide (fun u : Token => decide (u.stop < token.start)) before (token :: after)
    (by simpa using around.1)
    (by
      intro u later
      rcases List.mem_cons.mp later with rfl | later
      · simp; omega
      · have start := around.2 u later
        have stop := (tokenize_within line u (by simp [parts, later])).nonempty
        simp; omega)
  rw [← left, cut, right]

end ShellCompletion
