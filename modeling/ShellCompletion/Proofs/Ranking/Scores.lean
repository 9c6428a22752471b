import Mathlib.Tactic.Ring
import ShellCompletion.Proofs.Ranking.Matching

/-!
# The best score

A query that begins the text is found byte after byte, and each byte counts as much as it can: the first one for the
start of the text, every other one for following at once (`Score.best`). Behind a gap a byte can at most count for
the start of a word, which is less even where the gap is a single byte (`Score.placed_cases`). So a text that does
not begin with the query scores less (`fuzzyScore_le_begun`).
-/
namespace ShellCompletion

namespace Score

/-- What the bytes of a query add if all of them follow at once, the first one behind a match of `last`. -/
def run (last : UInt8) (query : Bytes) : Int :=
  (perMatch + consecutive) * query.length + wordStart * (last :: query).dropLast.countP isBoundary

/-- The score of a query at the start of a text: each byte counts for itself, the first one for the start of the
    text, the others for following at once, and those behind a boundary for the start of a word. -/
def best (query : Bytes) : Int :=
  if query = [] then 0
  else perMatch * query.length + firstByte + consecutive * (query.length - 1) +
    wordStart * query.dropLast.countP isBoundary

theorem run_nil (last : UInt8) : run last [] = 0 := by
  simp [run]

theorem run_cons (last q : UInt8) (query : Bytes) :
    run last (q :: query) = perMatch + (position (some last) + consecutive) + run q query := by
  simp only [run, position, List.dropLast_cons_cons, List.countP_cons, List.length_cons]
  split_ifs <;> push_cast <;> ring

theorem best_cons (q : UInt8) (query : Bytes) : best (q :: query) = perMatch + firstByte + run q query := by
  simp only [best, run, reduceCtorEq, if_false, List.length_cons]
  push_cast
  ring

theorem run_nonneg (last : UInt8) (query : Bytes) : 0 ≤ run last query := by
  have own : perMatch + consecutive = 25 := rfl
  have boundary : wordStart = 10 := rfl
  rw [run, own, boundary]
  omega

theorem run_pos (last : UInt8) {query : Bytes} (typed : query ≠ []) : 0 < run last query := by
  obtain ⟨q, rest, rfl⟩ := List.exists_cons_of_ne_nil typed
  have counts : 0 < perMatch + consecutive := by decide
  have place := (position_bounds (some last)).1
  have later := run_nonneg q rest
  rw [run_cons]
  omega

theorem one_lt_best {query : Bytes} (typed : query ≠ []) : 1 < best query := by
  obtain ⟨q, rest, rfl⟩ := List.exists_cons_of_ne_nil typed
  have counts : 1 < perMatch + firstByte := by decide
  have later := run_nonneg q rest
  rw [best_cons]
  omega

theorem sum_amounts_cons (previous : Option UInt8) (gap : Option Nat) (q : UInt8) (query text : Bytes) :
    (amounts previous gap (q :: query) (q :: text)).sum =
      perMatch + (position previous + spacing gap) + (amounts (some q) (some 0) query text).sum := by
  rw [amounts, if_pos rfl, List.sum_cons, List.sum_cons, List.sum_cons]
  ring

theorem sum_run (last : UInt8) (query rest : Bytes) :
    (amounts (some last) (some 0) query (query ++ rest)).sum = run last query := by
  induction query generalizing last with
  | nil => simp [amounts, run_nil]
  | cons q query ih => rw [List.cons_append, sum_amounts_cons, ih, run_cons, spacing]

theorem sum_best (query rest : Bytes) : (amounts none none query (query ++ rest)).sum = best query := by
  cases query with
  | nil => simp [amounts, best]
  | cons q query =>
    rw [List.cons_append, sum_amounts_cons, sum_run, best_cons, position, spacing]
    ring

theorem position_some_le (c : UInt8) : position (some c) ≤ wordStart := by
  simp only [position]
  split_ifs <;> decide

/-- A match adds for its place what one adds that follows at once, or less if there is a gap before it. `previous` is
    the byte before it, and the last match if there is no gap. -/
theorem placed_cases {previous last : UInt8} {gap : Nat} (near : gap = 0 → previous = last) :
    gap = 0 ∧ position (some previous) + spacing (some gap) = position (some last) + consecutive ∨
      position (some previous) + spacing (some gap) < position (some last) + consecutive := by
  cases gap with
  | zero =>
    obtain rfl := near rfl
    exact .inl ⟨rfl, rfl⟩
  | succ gap =>
    have start : wordStart < consecutive := by decide
    have place := position_some_le previous
    have least := (position_bounds (some last)).1
    have taken : spacing (some (gap + 1)) = -((gap : Int) + 1) := rfl
    exact .inr (by omega)

/-- Behind a match of `last` the query adds most if the text goes on with it, and less if it does not. -/
theorem sum_le_run (previous last : UInt8) (gap : Nat) (near : gap = 0 → previous = last) (query text : Bytes) :
    let sum := (amounts (some previous) (some gap) query text).sum
    sum ≤ run last query ∧ (sum = run last query → query <+: text ∧ (gap = 0 ∨ query = [])) := by
  intro sum
  induction text generalizing previous last gap query with
  | nil =>
    cases query with
    | nil => simp [sum, amounts, run_nil]
    | cons q query =>
      have none_ : sum = 0 := rfl
      have more := run_pos last (List.cons_ne_nil q query)
      exact ⟨by omega, by omega⟩
  | cons c text ih =>
    cases query with
    | nil => simp [sum, amounts, run_nil]
    | cons q query =>
      by_cases same : q = c
      · subst same
        obtain ⟨later, whole⟩ := ih q q 0 (fun _ => rfl) query
        have total : sum = _ := sum_amounts_cons (some previous) (some gap) q query text
        rw [run_cons]
        rcases placed_cases near with ⟨flush, place⟩ | place
        · refine ⟨by omega, fun equal => ⟨List.cons_prefix_cons.mpr ⟨rfl, ?_⟩, .inl flush⟩⟩
          exact (whole (by omega)).1
        · exact ⟨by omega, by omega⟩
      · -- One more byte stands between the matches.
        obtain ⟨later, whole⟩ := ih c last (gap + 1) (by omega) (q :: query)
        have total : sum = _ := congrArg List.sum (if_neg same)
        rw [total]
        exact ⟨later, fun equal => absurd (whole equal).2 (by simp)⟩

/-- A query of which no byte stands at the start of the text scores less than one that does. -/
theorem sum_lt_best (previous q : UInt8) (query text : Bytes) :
    (amounts (some previous) none (q :: query) text).sum < best (q :: query) := by
  induction text generalizing previous with
  | nil =>
    have none_ : (amounts (some previous) none (q :: query) []).sum = 0 := rfl
    have more := one_lt_best (List.cons_ne_nil q query)
    omega
  | cons c text ih =>
    by_cases same : q = c
    · subst same
      have start : wordStart < firstByte := by decide
      have place := position_some_le previous
      have later := (sum_le_run q q 0 (fun _ => rfl) query text).1
      rw [sum_amounts_cons, best_cons, spacing]
      omega
    · rw [amounts, if_neg same]
      exact ih c

/-- No text adds up to more than one that begins with the query, and no other text to as much. -/
theorem sum_le_best (query text : Bytes) :
    let sum := (amounts none none query text).sum
    sum ≤ best query ∧ (sum = best query → query <+: text) := by
  intro sum
  cases query with
  | nil => cases text <;> exact ⟨Int.le_refl 0, fun _ => List.nil_prefix⟩
  | cons q query =>
    cases text with
    | nil =>
      have none_ : sum = 0 := rfl
      have more := one_lt_best (List.cons_ne_nil q query)
      exact ⟨by omega, by omega⟩
    | cons c text =>
      by_cases same : q = c
      · subst same
        obtain ⟨later, whole⟩ := sum_le_run q q 0 (fun _ => rfl) query text
        have total : sum = _ := sum_amounts_cons none none q query text
        have place : position none + spacing none = firstByte := rfl
        rw [best_cons]
        exact ⟨by omega, fun equal => List.cons_prefix_cons.mpr ⟨rfl, (whole (by omega)).1⟩⟩
      · have total : sum = (amounts (some c) none (q :: query) text).sum := congrArg List.sum (if_neg same)
        have less := sum_lt_best c q query text
        exact ⟨by omega, by omega⟩

end Score

variable {settings : Settings} {query text : Bytes}

theorem Settings.comparable_eq_nil : settings.comparable query = [] ↔ query = [] := by
  rw [← List.length_eq_zero_iff, Settings.length_comparable, List.length_eq_zero_iff]

theorem one_lt_best (settings : Settings) (typed : query ≠ []) : 1 < Score.best (settings.comparable query) :=
  Score.one_lt_best (mt Settings.comparable_eq_nil.mp typed)

theorem fuzzyScore_of_begun (begun : settings.matchesStart text query) :
    fuzzyScore settings query text = Score.best (settings.comparable query) := by
  have starts := Settings.matchesStart_iff.mp begun
  rw [fuzzyScore_eq]
  split_ifs with found
  · have counts := one_lt_best settings found.1
    obtain ⟨rest, whole⟩ := starts
    rw [← whole, Score.sum_best]
    omega
  · -- Only an empty query is not found.
    have empty : query = [] := by
      by_contra typed
      have nonempty : text ≠ [] := by
        rintro rfl
        rw [Settings.comparable_eq_nil.mpr rfl] at starts
        exact typed (Settings.comparable_eq_nil.mp (List.prefix_nil.mp starts))
      exact found ⟨typed, nonempty, Settings.matchesScattered_iff.mpr starts.sublist⟩
    rw [Settings.comparable_eq_nil.mpr empty, Score.best, if_pos rfl]

theorem fuzzyScore_le_best (settings : Settings) (query text : Bytes) :
    let best := Score.best (settings.comparable query)
    fuzzyScore settings query text ≤ best ∧
      (fuzzyScore settings query text = best → settings.matchesStart text query) := by
  intro best
  by_cases empty : query = []
  · subst empty
    have begun : settings.matchesStart text [] := Settings.matchesStart_of_begun List.nil_prefix
    exact ⟨(fuzzyScore_of_begun begun).le, fun _ => begun⟩
  · have counts : 1 < best := one_lt_best settings empty
    obtain ⟨most, whole⟩ := Score.sum_le_best (settings.comparable query) (settings.comparable text)
    rw [fuzzyScore_eq]
    split_ifs with found
    · exact ⟨by omega, fun same => Settings.matchesStart_iff.mpr (whole (by omega))⟩
    · exact ⟨by omega, by omega⟩

/-- No text scores more than one that begins with the query, whatever follows it there: that score is settled by the
    query, and every text that does not begin with the query, letters in either case unless case counts, scores less.
    While the two scores are added up for a query, a rest and a text of less than 2^24 bytes, they never leave the
    range of a number of 32 bits with a sign. -/
theorem fuzzyScore_le_begun (settings : Settings) (query rest text : Bytes) :
    let best := Score.best (settings.comparable query)
    fuzzyScore settings query text ≤ fuzzyScore settings query (query ++ rest) ∧
      fuzzyScore settings query (query ++ rest) = best ∧
      (fuzzyScore settings query text = best ↔ settings.matchesStart text query) ∧
      (query.length < 2 ^ 24 → rest.length < 2 ^ 24 → text.length < 2 ^ 24 → ∀ full ∈ [text, query ++ rest],
        ∀ added, added <+: Score.amounts none none (settings.comparable query) (settings.comparable full) →
          -2 ^ 31 ≤ added.sum ∧ added.sum < 2 ^ 31) := by
  intro best
  have begun : fuzzyScore settings query (query ++ rest) = best :=
    fuzzyScore_of_begun (Settings.matchesStart_of_begun (List.prefix_append query rest))
  obtain ⟨most, whole⟩ := fuzzyScore_le_best settings query text
  refine ⟨most.trans begun.ge, begun, ⟨whole, fuzzyScore_of_begun⟩, ?_⟩
  intro typed more short full member added started
  have bounds := Score.sum_bounds none none _ _ started
  rw [Settings.length_comparable, Option.getD_none] at bounds
  have length : full.length < 2 ^ 25 := by
    simp only [List.mem_cons, List.not_mem_nil, or_false] at member
    rcases member with rfl | rfl
    · omega
    · rw [List.length_append]
      omega
  omega

/-- A query with a boundary in it, and a text that holds it as a word of its own. -/
theorem fuzzyScore_le_begun_word :
    let query := utf8 "Git-s"
    let rest := utf8 "tatus"
    let text := utf8 "my-git-status"
    query.length < 2 ^ 24 ∧ rest.length < 2 ^ 24 ∧ text.length < 2 ^ 24 ∧
      fuzzyScore {} query text = 130 ∧ fuzzyScore {} query (query ++ rest) = 140 ∧
      fuzzyScore {} query text ≤ fuzzyScore {} query (query ++ rest) ∧
      ∀ added, added <+: Score.amounts none none (utf8 "git-s") text → -2 ^ 31 ≤ added.sum ∧ added.sum < 2 ^ 31 := by
  intro query rest text
  have typed : query.length < 2 ^ 24 := by decide
  have more : rest.length < 2 ^ 24 := by decide
  have short : text.length < 2 ^ 24 := by decide
  obtain ⟨most, begun, _, range⟩ := fuzzyScore_le_begun {} query rest text
  exact ⟨typed, more, short, by decide, begun.trans (by decide), most, range typed more short text (by simp)⟩

end ShellCompletion
