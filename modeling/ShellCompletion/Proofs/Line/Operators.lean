import Mathlib.Data.Nat.Find
import ShellCompletion.Proofs.Line.Replacing

namespace ShellCompletion.Redirect

variable {word descriptor operator other rest : Bytes}

/-- The length of the longest part at the start of the word that is an operator; 0 if no part is one. -/
def longestOperator (word : Bytes) : Nat := Nat.findGreatest (fun n => isOperator (word.take n)) word.length

theorem divide_at_operator (digits : ∀ c ∈ descriptor, Bytes.isDigit c) (known : operator ∈ operators) (rest : Bytes) :
    (descriptor ++ (operator ++ rest)).takeWhile Bytes.isDigit = descriptor ∧
      (descriptor ++ (operator ++ rest)).dropWhile Bytes.isDigit = operator ++ rest := by
  obtain ⟨_, c, more, rfl, digit, _⟩ := of_operator known
  rw [List.takeWhile_append_of_pos digits, List.dropWhile_append_of_pos digits]
  simp [digit]

theorem isOperator_iff : isOperator word ↔ ∃ descriptor operator, word = descriptor ++ operator ∧
    (∀ c ∈ descriptor, Bytes.isDigit c) ∧ operator ∈ operators ∧ allows descriptor operator := by
  simp only [isOperator, Bool.and_eq_true, List.contains_iff_mem]
  constructor
  · rintro ⟨known, allowed⟩
    exact ⟨_, _, (List.takeWhile_append_dropWhile ..).symm, fun c member => List.mem_takeWhile_imp member, known, allowed⟩
  · rintro ⟨descriptor, operator, rfl, digits, known, allowed⟩
    obtain ⟨before, after⟩ := divide_at_operator digits known []
    rw [List.append_nil] at before after
    rw [before, after]
    exact ⟨known, allowed⟩

theorem operators_ordered : operators.Pairwise (¬ · <+: ·) := by
  decide

theorem prefix_of_find (found : operators.find? (·.isPrefixOf rest) = some operator) (known : other ∈ operators)
    (begun : other <+: rest) : other <+: operator := by
  obtain ⟨starts, before, after, split, passed⟩ := List.find?_eq_some_iff_append.mp found
  rw [split, List.mem_append, List.mem_cons] at known
  rcases known with earlier | rfl | later
  · have fails := passed other earlier
    simp [List.isPrefixOf_iff_prefix.mpr begun] at fails
  · exact List.prefix_rfl
  · have ordered := operators_ordered
    rw [split, List.pairwise_append, List.pairwise_cons] at ordered
    have := List.prefix_or_prefix_of_prefix begun (List.isPrefixOf_iff_prefix.mp starts)
    exact this.resolve_right (ordered.2.1.1 other later)

/-- A descriptor may stand before an operator if it may stand before one that goes on from it. -/
theorem allows_of_begun (known : other ∈ operators) (begun : other <+: operator) (descriptor : Bytes) :
    allows descriptor other = allows descriptor operator := by
  obtain ⟨_, c, more, rfl, _⟩ := of_operator known
  obtain ⟨rest, rfl⟩ := begun
  rfl

/-- The parts at the start of a word that are operators: the digits at its start, with an operator behind them. -/
theorem isOperator_take_iff {n : Nat} (short : n ≤ word.length) :
    isOperator (word.take n) ↔ ∃ operator ∈ operators, operator <+: word.dropWhile Bytes.isDigit ∧
      allows (word.takeWhile Bytes.isDigit) operator ∧ n = (word.takeWhile Bytes.isDigit).length + operator.length := by
  rw [isOperator_iff]
  constructor
  · rintro ⟨descriptor, operator, taken, digits, known, allowed⟩
    have whole : word = descriptor ++ (operator ++ word.drop n) := by
      rw [← List.append_assoc, ← taken, List.take_append_drop]
    obtain ⟨before, after⟩ := divide_at_operator digits known (word.drop n)
    rw [← whole] at before after
    have length := congrArg List.length taken
    rw [List.length_take, List.length_append, Nat.min_eq_left short] at length
    exact ⟨operator, known, after ▸ List.prefix_append _ _, before.symm ▸ allowed, before.symm ▸ length⟩
  · rintro ⟨operator, known, ⟨rest, goes⟩, allowed, rfl⟩
    refine ⟨_, operator, ?_, fun c member => List.mem_takeWhile_imp member, known, allowed⟩
    calc word.take ((word.takeWhile Bytes.isDigit).length + operator.length)
      _ = (word.takeWhile Bytes.isDigit ++ (operator ++ rest)).take
            ((word.takeWhile Bytes.isDigit).length + operator.length) := by
          rw [goes, List.takeWhile_append_dropWhile]
      _ = word.takeWhile Bytes.isDigit ++ operator := by
          rw [List.take_length_add_append, List.take_left]

theorem length_divided (word : Bytes) :
    (word.takeWhile Bytes.isDigit).length + (word.dropWhile Bytes.isDigit).length = word.length := by
  rw [← List.length_append, List.takeWhile_append_dropWhile]

/-- The longest operator that a word starts with is the one that is found first, if the descriptor may stand before
    it. -/
theorem longestOperator_eq (word : Bytes) :
    longestOperator word = match operators.find? (·.isPrefixOf (word.dropWhile Bytes.isDigit)) with
      | none => 0
      | some operator =>
        if allows (word.takeWhile Bytes.isDigit) operator then
          (word.takeWhile Bytes.isDigit).length + operator.length
        else 0 := by
  have whole := length_divided word
  cases found : operators.find? (·.isPrefixOf (word.dropWhile Bytes.isDigit)) with
  | none =>
    refine Nat.findGreatest_eq_zero_iff.mpr fun n _ short accepted => ?_
    obtain ⟨operator, known, begun, _⟩ := (isOperator_take_iff short).mp accepted
    exact List.find?_eq_none.mp found operator known (List.isPrefixOf_iff_prefix.mpr begun)
  | some operator =>
    have known := List.mem_of_find?_eq_some found
    have starts := List.find?_some found
    have begun := List.isPrefixOf_iff_prefix.mp starts
    have inside : (word.takeWhile Bytes.isDigit).length + operator.length ≤ word.length := by
      have := begun.length_le
      omega
    dsimp only
    split_ifs with allowed
    · refine Nat.findGreatest_eq_iff.mpr ⟨inside, fun _ => ?_, fun n longer short accepted => ?_⟩
      · exact (isOperator_take_iff inside).mpr ⟨operator, known, begun, allowed, rfl⟩
      · obtain ⟨other, known', begun', _, rfl⟩ := (isOperator_take_iff short).mp accepted
        have part := (prefix_of_find found known' begun').length_le
        exact absurd (Nat.lt_of_add_lt_add_left longer) (Nat.not_lt.mpr part)
    · refine Nat.findGreatest_eq_zero_iff.mpr fun n _ short accepted => ?_
      obtain ⟨other, known', begun', allowed', _⟩ := (isOperator_take_iff short).mp accepted
      rw [allows_of_begun known' (prefix_of_find found known' begun')] at allowed'
      exact allowed allowed'

/-- A word carries the longest operator that it starts with, if it goes on behind it. -/
theorem gluedLength_eq_longest (word : Bytes) :
    gluedLength word = if longestOperator word < word.length then longestOperator word else 0 := by
  have whole := length_divided word
  rw [longestOperator_eq, gluedLength]
  cases operators.find? (·.isPrefixOf (word.dropWhile Bytes.isDigit)) with
  | none => simp
  | some operator =>
    by_cases allowed : allows (word.takeWhile Bytes.isDigit) operator
    · simp only [allowed, Bool.true_and, if_true, decide_eq_true_eq]
      congr 1
      exact propext (by omega)
    · simp [allowed]

theorem isOperator_iff_longest (nonempty : word ≠ []) : isOperator word ↔ longestOperator word = word.length := by
  have whole : word.take word.length = word := List.take_length
  constructor
  · exact fun operator => Nat.findGreatest_eq (whole.symm ▸ operator)
  · intro all
    have positive := List.length_pos_iff.mpr nonempty
    have longest := (Nat.findGreatest_eq_iff.mp all).2.1 (Nat.ne_of_gt positive)
    rwa [whole] at longest

/-- A word that is no operator carries the longest operator that it starts with, and nothing if it starts with none;
    a word that is one carries nothing. So no word is an operator and carries one, and the operator that a word
    carries is never all of it. -/
theorem gluedLength_longest (word : Bytes) :
    (gluedLength word = if isOperator word then 0 else longestOperator word) ∧
      (isOperator word = false ∨ gluedLength word = 0) ∧
      (gluedLength word = 0 ∨ gluedLength word < word.length) := by
  by_cases empty : word = []
  · subst empty
    decide
  · have inside : longestOperator word ≤ word.length := Nat.findGreatest_le word.length
    have whole := isOperator_iff_longest empty
    rw [gluedLength_eq_longest]
    by_cases more : longestOperator word < word.length
    · have part : isOperator word = false := by
        rw [← Bool.not_eq_true, whole]
        exact Nat.ne_of_lt more
      rw [if_pos more, part]
      exact ⟨rfl, .inl rfl, .inr more⟩
    · rw [if_neg more, whole.mpr (Nat.le_antisymm inside (Nat.not_lt.mp more))]
      exact ⟨rfl, .inr rfl, .inl rfl⟩

example : [utf8 ">>>", utf8 "<<", utf8 "2>&1", utf8 "2&>x", utf8 "12>"].map gluedLength = [2, 1, 2, 0, 0] := by
  decide

end ShellCompletion.Redirect
