import Mathlib.Data.List.Chain
import ShellCompletion.Proofs.Line.Tokens

namespace ShellCompletion

/-- The byte at the offset is a blank that stands unquoted on the line. -/
def SeparatesAt (line : Bytes) (offset : Nat) : Prop :=
  ∃ c, (line)[offset]? = some c ∧ ((Quoting.bare.after (line.take offset)).feed c).1 = .plain ∧ Bytes.isBlank c

/-- The byte at the offset belongs to the token. -/
def Token.Covers (token : Token) (offset : Nat) : Prop := token.start ≤ offset ∧ offset < token.stop

/-- Tokens as runs of bytes of a line, one after the other, that do not touch. -/
structure AreRuns (line : Bytes) (tokens : List Token) : Prop where
  nonempty : ∀ token ∈ tokens, token.start < token.stop
  inside : ∀ token ∈ tokens, token.stop ≤ line.length
  text_eq : ∀ token ∈ tokens, token.text = (line.take token.stop).drop token.start
  apart : tokens.IsChain (fun token next => token.stop < next.start)

/-- Runs of bytes between which only unquoted blanks stand, and in which none stands. -/
structure IsTokenization (line : Bytes) (tokens : List Token) : Prop extends AreRuns line tokens where
  outside : ∀ offset < line.length, (∀ token ∈ tokens, ¬ token.Covers offset) → SeparatesAt line offset
  within : ∀ token ∈ tokens, ∀ offset, token.Covers offset → ¬ SeparatesAt line offset

namespace AreRuns

variable {line : Bytes} {token : Token} {tokens : List Token}

theorem tail (runs : AreRuns line (token :: tokens)) : AreRuns line tokens where
  nonempty later member := runs.nonempty later (List.mem_cons_of_mem token member)
  inside later member := runs.inside later (List.mem_cons_of_mem token member)
  text_eq later member := runs.text_eq later (List.mem_cons_of_mem token member)
  apart := runs.apart.tail

/-- Not only the next run but every later one starts after the first has ended. -/
theorem stop_lt (runs : AreRuns line (token :: tokens)) : ∀ later ∈ tokens, token.stop < later.start := by
  induction tokens generalizing token with
  | nil => simp
  | cons next tokens ih =>
    have gap : token.stop < next.start := (List.isChain_cons_cons.mp runs.apart).1
    have nonempty := runs.nonempty next (by simp)
    intro later member
    rcases List.mem_cons.mp member with rfl | member
    · exact gap
    · have := ih runs.tail later member
      omega

theorem start_le (runs : AreRuns line (token :: tokens)) {offset : Nat}
    (covered : ∃ run ∈ token :: tokens, run.Covers offset) : token.start ≤ offset := by
  obtain ⟨run, member, starts, stops⟩ := covered
  rcases List.mem_cons.mp member with rfl | later
  · exact starts
  · have := runs.stop_lt run later
    have := runs.nonempty token (by simp)
    omega

theorem stop_free (runs : AreRuns line (token :: tokens)) : ¬ ∃ run ∈ token :: tokens, run.Covers token.stop := by
  rintro ⟨run, member, starts, stops⟩
  rcases List.mem_cons.mp member with rfl | later
  · omega
  · have := runs.stop_lt run later
    omega

theorem covered_tail (runs : AreRuns line (token :: tokens)) (offset : Nat) :
    (∃ run ∈ tokens, run.Covers offset) ↔
      token.stop ≤ offset ∧ ∃ run ∈ token :: tokens, run.Covers offset := by
  constructor
  · rintro ⟨run, later, starts, stops⟩
    have := runs.stop_lt run later
    exact ⟨by omega, run, List.mem_cons_of_mem token later, starts, stops⟩
  · rintro ⟨past, run, member, starts, stops⟩
    rcases List.mem_cons.mp member with rfl | later
    · omega
    · exact ⟨run, later, starts, stops⟩

theorem eq_nil_of_covers (runs : AreRuns line tokens) (none_ : ∀ offset, ¬ ∃ run ∈ tokens, run.Covers offset) :
    tokens = [] := by
  cases tokens with
  | nil => rfl
  | cons token tokens =>
    have nonempty := runs.nonempty token (by simp)
    exact absurd ⟨token, by simp, Nat.le_refl _, nonempty⟩ (none_ token.start)

theorem head_eq {other : Token} {others : List Token} (runs : AreRuns line (token :: tokens))
    (runs' : AreRuns line (other :: others))
    (same : ∀ offset,
      (∃ run ∈ token :: tokens, run.Covers offset) ↔ ∃ run ∈ other :: others, run.Covers offset) :
    token = other := by
  have nonempty := runs.nonempty token (by simp)
  have nonempty' := runs'.nonempty other (by simp)
  have start : token.start = other.start := by
    have first := runs'.start_le ((same token.start).mp ⟨token, by simp, Nat.le_refl _, nonempty⟩)
    have first' := runs.start_le ((same other.start).mpr ⟨other, by simp, Nat.le_refl _, nonempty'⟩)
    omega
  -- The shorter of two runs from the same start would leave its end to the longer one.
  have stop : token.stop = other.stop := by
    rcases Nat.lt_trichotomy token.stop other.stop with shorter | equal | longer
    · exact absurd ((same token.stop).mpr ⟨other, by simp, by omega, shorter⟩) runs.stop_free
    · exact equal
    · exact absurd ((same other.stop).mp ⟨token, by simp, by omega, longer⟩) runs'.stop_free
  have text : token.text = other.text := by
    rw [runs.text_eq token (by simp), runs'.text_eq other (by simp), start, stop]
  cases token
  cases other
  simp_all

theorem eq_of_covers {others : List Token} (runs : AreRuns line tokens) (runs' : AreRuns line others)
    (same : ∀ offset, (∃ run ∈ tokens, run.Covers offset) ↔ ∃ run ∈ others, run.Covers offset) :
    tokens = others := by
  induction tokens generalizing others with
  | nil => exact (runs'.eq_nil_of_covers fun offset covered => by simpa using (same offset).mpr covered).symm
  | cons token tokens ih =>
    cases others with
    | nil => exact runs.eq_nil_of_covers fun offset covered => by simpa using (same offset).mp covered
    | cons other others =>
      obtain rfl := runs.head_eq runs' same
      rw [ih runs.tail runs'.tail]
      intro offset
      rw [runs.covered_tail, runs'.covered_tail, same]

end AreRuns

open Progress

/-- Of the bytes to come those belong to a token that do not separate. -/
theorem Progress.Reads.covered_iff {p : Progress} {before : Bytes} (reads : p.Reads before) (rest : Bytes)
    {k : Nat} (inside : k < rest.length) :
    (∃ token ∈ p.tokens rest, token.Covers (p.offset + k)) ↔ ¬ (p.after (rest.take k)).Separates rest[k] := by
  induction rest generalizing p before k with
  | nil => simp at inside
  | cons c rest ih =>
    have ended : ∀ token ∈ p.last, ¬ token.Covers (p.offset + k) := by
      intro token member covers
      have := p.last_stop token member
      have := covers.2
      omega
    cases k with
    | zero =>
      simp only [List.take_zero, Progress.after, List.foldl_nil, List.getElem_cons_zero]
      by_cases blank : p.Separates c
      · simp only [blank, not_true_eq_false, iff_false]
        rintro ⟨token, member, covers⟩
        rw [tokens_cons, if_pos blank, List.mem_append] at member
        rcases member with here | later
        · exact ended token here covers
        · have start := (reads.next c).floor_le_start rest token later
          have := covers.1
          simp [Progress.next, floor, blank] at start
          omega
      · simp only [blank, not_false_eq_true, iff_true]
        have open_ : (p.next c).pending = some (Token.Pending.push p.pending p.offset c) := by
          simp [Progress.next, blank]
        obtain ⟨token, more, first, start⟩ := tokens_of_pending open_ rest
        have started := (reads.next c).started _ open_
        have stop := offset_le_stop (p.next c) rest token (by simp [first])
        rw [List.length_append, List.length_singleton, ← reads.offset_eq] at started
        simp only [Progress.next] at stop
        refine ⟨token, by rw [tokens_cons, if_neg blank, first]; simp, ?_⟩
        constructor <;> omega
    | succ k =>
      have next := ih (reads.next c) (k := k) (by simpa using inside)
      have offset : (p.next c).offset + k = p.offset + (k + 1) := by simp only [Progress.next]; omega
      rw [offset] at next
      rw [List.take_succ_cons, List.getElem_cons_succ]
      refine Iff.trans ?_ next
      rw [tokens_cons]
      constructor
      · rintro ⟨token, member, covers⟩
        rcases List.mem_append.mp member with here | later
        · split_ifs at here
          · exact absurd covers (ended token here)
          · simp at here
        · exact ⟨token, later, covers⟩
      · rintro ⟨token, later, covers⟩
        exact ⟨token, List.mem_append_right _ later, covers⟩

theorem covered_iff {line : Bytes} {offset : Nat} (inside : offset < line.length) :
    (∃ token ∈ tokenize line, token.Covers offset) ↔ ¬ SeparatesAt line offset := by
  have covered := reads_nil.covered_iff line inside
  rw [Nat.zero_add] at covered
  have quoting := (reads_after (line.take offset)).quoting_eq
  rw [tokenize_eq, covered]
  simp [SeparatesAt, Separates, quoting, inside]

/-- While a quote or an escape is open, a token is being read. -/
theorem last_stop_of_open {line : Bytes} (open_ : Quoting.bare.after line ≠ .bare) :
    (tokenize line).getLast?.map Token.stop = some line.length := by
  have reads := reads_after line
  have whole : tokenize line = ({} : Progress).closed line ++ (({} : Progress).after line).last := by
    rw [tokenize_eq, ← tokens_nil, ← tokens_append, List.append_nil]
  cases pending : (({} : Progress).after line).pending with
  | none => exact absurd (reads.quoting_eq ▸ reads.between pending) open_
  | some token => simp [whole, last, pending, Token.Pending.close, reads.offset_eq]

theorem tokenize_areRuns (line : Bytes) : AreRuns line (tokenize line) where
  nonempty token member := (tokenize_within line token member).nonempty
  inside token member := (tokenize_within line token member).inside
  text_eq token member := (tokenize_within line token member).text_eq
  apart := (tokenize_ordered line).isChain

theorem tokenize_isTokenization (line : Bytes) : IsTokenization line (tokenize line) where
  toAreRuns := tokenize_areRuns line
  outside offset inside free := by
    by_contra word
    obtain ⟨token, member, covers⟩ := (covered_iff inside).mpr word
    exact free token member covers
  within token member offset covers := by
    have inside : offset < line.length := Nat.lt_of_lt_of_le covers.2 (tokenize_within line token member).inside
    exact (covered_iff inside).mp ⟨token, member, covers⟩

/-- The bytes that the runs of a tokenization cover are those that are no unquoted blanks. -/
theorem IsTokenization.covered_iff {line : Bytes} {tokens : List Token} (cut : IsTokenization line tokens)
    (offset : Nat) :
    (∃ token ∈ tokens, token.Covers offset) ↔ offset < line.length ∧ ¬ SeparatesAt line offset := by
  constructor
  · rintro ⟨token, member, covers⟩
    exact ⟨Nat.lt_of_lt_of_le covers.2 (cut.inside token member), cut.within token member offset covers⟩
  · rintro ⟨inside, word⟩
    by_contra free
    exact word (cut.outside offset inside fun token member covers => free ⟨token, member, covers⟩)

/-- A line falls into tokens in one way only: into runs of bytes that do not touch, with nothing but
    unquoted blanks between them and none in them. Every token starts outside quotes, and an open quote
    or escape runs to the end of the line in the last one. -/
theorem isTokenization_iff (line : Bytes) :
    (∀ tokens, IsTokenization line tokens ↔ tokens = tokenize line) ∧
      (∀ token ∈ tokenize line, Quoting.bare.after (line.take token.start) = .bare) ∧
      (Quoting.bare.after line ≠ .bare → (tokenize line).getLast?.map Token.stop = some line.length) := by
  refine ⟨fun tokens => ⟨fun cut => ?_, ?_⟩, ?_, last_stop_of_open⟩
  · have whole := tokenize_isTokenization line
    exact cut.eq_of_covers whole.toAreRuns fun offset => by rw [cut.covered_iff, whole.covered_iff]
  · rintro rfl
    exact tokenize_isTokenization line
  · exact fun token member => (tokenize_within line token member).fresh

end ShellCompletion
