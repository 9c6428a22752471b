import Mathlib.Algebra.Order.Ring.Int
import Mathlib.Data.List.Basic
import Mathlib.Data.List.Infix
import Mathlib.Tactic.SplitIfs
import ShellCompletion.Ranking

/-!
# How texts match

A text matches a query from the start if the query begins it (`Settings.matchesStart_iff`), and scattered if the
query's bytes stand in it in their order (`Settings.matchesScattered_iff`), letters in either case unless case counts.
The score looks for the query byte by byte, each byte as early as possible, and finds it whenever it can be found
(`Score.from?_eq`). So the texts that have a score are those that match scattered (`fuzzyScore_pos_iff`). What is
added up on the way stays small for texts of less than 16 MiB, gaps included (`Score.sum_bounds`), so that a number
of 32 bits holds the score at every moment (`fuzzyScore_scattered`).
-/
namespace ShellCompletion

theorem isSubsequence_eq (query text : Bytes) : isSubsequence query text = query.isSublist text := by
  induction text generalizing query with
  | nil => cases query <;> rfl
  | cons c text ih =>
    cases query with
    | nil => rfl
    | cons q query => simp only [isSubsequence, List.isSublist, beq_iff_eq, ih]

namespace Settings

variable {settings : Settings} {name typed : Bytes}

theorem length_comparable (settings : Settings) (s : Bytes) : (settings.comparable s).length = s.length := by
  unfold comparable Bytes.lower
  split_ifs <;> simp

theorem comparable_append (settings : Settings) (s t : Bytes) :
    settings.comparable (s ++ t) = settings.comparable s ++ settings.comparable t := by
  unfold comparable Bytes.lower
  split_ifs <;> simp

theorem matchesStart_iff : settings.matchesStart name typed ↔ settings.comparable typed <+: settings.comparable name := by
  unfold matchesStart comparable startsWithAnyCase Bytes.startsWith
  split_ifs <;> exact List.isPrefixOf_iff_prefix

theorem matchesStart_of_begun (begun : typed <+: name) : settings.matchesStart name typed := by
  obtain ⟨rest, rfl⟩ := begun
  rw [matchesStart_iff, comparable_append]
  exact List.prefix_append _ _

theorem matchesScattered_iff :
    settings.matchesScattered name typed ↔ (settings.comparable typed).Sublist (settings.comparable name) := by
  rw [matchesScattered, isSubsequence_eq, List.isSublist_iff_sublist]

theorem accepts_cases (accepted : settings.accepts name typed) :
    settings.matchesStart name typed ∨ typed ≠ [] ∧ settings.matchesScattered name typed := by
  simp only [accepts, Bool.or_eq_true, Bool.and_eq_true, Bool.not_eq_true', List.isEmpty_eq_false_iff] at accepted
  exact accepted.imp_right fun ⟨⟨_, nonempty⟩, scattered⟩ => ⟨nonempty, scattered⟩

end Settings

namespace Score

/-- What is added to the score, one after the other, while the query's bytes are taken from the text: for each match
    what it counts by itself, for its position, and for the gap before it. -/
def amounts (previous : Option UInt8) (gap : Option Nat) : (query text : Bytes) → List Int
  | [], _ => []
  | _ :: _, [] => []
  | q :: query, c :: text =>
    if q = c then perMatch :: position previous :: spacing gap :: amounts (some c) (some 0) query text
    else amounts (some c) (gap.map (· + 1)) (q :: query) text

theorem from?_eq (previous : Option UInt8) (gap : Option Nat) (query text : Bytes) :
    from? previous gap query text =
      if isSubsequence query text then some (amounts previous gap query text).sum else none := by
  induction text generalizing previous gap query with
  | nil => cases query <;> rfl
  | cons c text ih =>
    cases query with
    | nil => rfl
    | cons q query =>
      simp only [from?, isSubsequence, amounts]
      split_ifs with same found found
      · simp [ih, found, Int.add_assoc]
      · simp [ih, found]
      · rw [ih, if_pos found]
      · rw [ih, if_neg found]

theorem position_bounds (previous : Option UInt8) : 0 ≤ position previous ∧ position previous ≤ 20 := by
  unfold position
  split
  · decide
  · split_ifs <;> decide

theorem spacing_bounds (gap : Option Nat) : -(gap.getD 0 : Int) ≤ spacing gap ∧ spacing gap ≤ 15 := by
  unfold spacing
  split
  · decide
  · decide
  · simp only [Option.getD_some]
    omega

/-- However far the score has been added up, each byte that has been read takes away one at most, as does each byte
    of the gap before them, and adds 45 at most. -/
theorem sum_bounds (previous : Option UInt8) (gap : Option Nat) (query text : Bytes) {added : List Int}
    (begun : added <+: amounts previous gap query text) :
    -((gap.getD 0 : Int) + text.length) ≤ added.sum ∧ added.sum ≤ 45 * text.length := by
  induction text generalizing previous gap query added with
  | nil =>
    obtain rfl : added = [] := by cases query <;> simpa [amounts] using begun
    simp only [List.sum_nil, List.length_nil]
    omega
  | cons c text ih =>
    rw [List.length_cons]
    cases query with
    | nil =>
      obtain rfl : added = [] := by simpa [amounts] using begun
      simp only [List.sum_nil]
      omega
    | cons q query =>
      rw [amounts] at begun
      split_ifs at begun with same
      · -- The addition has stopped before, within or behind the three amounts of the match.
        have own : perMatch = 10 := rfl
        have place := position_bounds previous
        have distance := spacing_bounds gap
        rcases List.prefix_cons_iff.mp begun with rfl | ⟨_, rfl, counted⟩
        · simp only [List.sum_nil]
          omega
        rcases List.prefix_cons_iff.mp counted with rfl | ⟨_, rfl, placed⟩
        · simp only [List.sum_cons, List.sum_nil]
          omega
        rcases List.prefix_cons_iff.mp placed with rfl | ⟨_, rfl, spaced⟩
        · simp only [List.sum_cons, List.sum_nil]
          omega
        have later := ih (some c) (some 0) query spaced
        simp only [Option.getD_some] at later
        simp only [List.sum_cons]
        omega
      · have later := ih (some c) (gap.map (· + 1)) (q :: query) begun
        have wider : (gap.map (· + 1)).getD 0 ≤ gap.getD 0 + 1 := by cases gap <;> simp
        omega

end Score

variable {settings : Settings} {query text : Bytes}

/-- A text in which the query is found has the sum as its score, but at least 1; any other text has none. -/
theorem fuzzyScore_eq (settings : Settings) (query text : Bytes) :
    fuzzyScore settings query text =
      if query ≠ [] ∧ text ≠ [] ∧ settings.matchesScattered text query then
        max 1 (Score.amounts none none (settings.comparable query) (settings.comparable text)).sum
      else 0 := by
  unfold fuzzyScore Settings.matchesScattered
  rw [Score.from?_eq]
  cases query with
  | nil => simp
  | cons q query =>
    cases text with
    | nil => simp
    | cons c text => split_ifs <;> simp_all

/-- The score tells whether the query is found in the text, if there is something to find. -/
theorem fuzzyScore_pos_iff :
    0 < fuzzyScore settings query text ↔ query ≠ [] ∧ text ≠ [] ∧ settings.matchesScattered text query := by
  rw [fuzzyScore_eq]
  split_ifs with found
  · exact iff_of_true (by omega) found
  · exact iff_of_false (by omega) found

/-- A query is scattered over a text exactly if its bytes stand in the text in their order, letters in either case
    unless case counts; then, and only then, the text has a score above zero, unless one of the two is empty. The
    score is what has been added up for the matches, but at least 1. While it is added up for a text of less than
    2^24 bytes, it never leaves the range of a number of 32 bits with a sign. -/
theorem fuzzyScore_scattered (settings : Settings) (query text : Bytes) :
    let amounts := Score.amounts none none (settings.comparable query) (settings.comparable text)
    (settings.matchesScattered text query ↔ (settings.comparable query).Sublist (settings.comparable text)) ∧
      (0 < fuzzyScore settings query text ↔ query ≠ [] ∧ text ≠ [] ∧ settings.matchesScattered text query) ∧
      (fuzzyScore settings query text =
        if query ≠ [] ∧ text ≠ [] ∧ settings.matchesScattered text query then max 1 amounts.sum else 0) ∧
      (text.length < 2 ^ 24 → ∀ added, added <+: amounts → -2 ^ 31 ≤ added.sum ∧ added.sum < 2 ^ 31) := by
  intro amounts
  refine ⟨Settings.matchesScattered_iff, fuzzyScore_pos_iff, fuzzyScore_eq settings query text, ?_⟩
  intro short added begun
  have bounds := Score.sum_bounds none none _ _ begun
  rw [Settings.length_comparable, Option.getD_none] at bounds
  omega

/-- A gap takes away more than the two matches add; the query is found all the same. -/
theorem fuzzyScore_scattered_gap :
    let text := utf8 "config-with-a-rather-long-file-name.yaml"
    let amounts := Score.amounts none none (utf8 "oy") text
    text.length < 2 ^ 24 ∧ amounts = [10, 0, 0, 10, 10, -34] ∧ fuzzyScore {} (utf8 "OY") text = 1 ∧
      (utf8 "oy").Sublist text ∧ ∀ added, added <+: amounts → -2 ^ 31 ≤ added.sum ∧ added.sum < 2 ^ 31 := by
  intro text amounts
  have short : text.length < 2 ^ 24 := by decide
  obtain ⟨found, _, score, range⟩ := fuzzyScore_scattered {} (utf8 "OY") text
  exact ⟨short, by decide, score.trans (by decide), found.mp (by decide), range short⟩

theorem tierOf_start_iff :
    tierOf settings query text = .exact ∨ tierOf settings query text = .start ↔
      settings.matchesStart (plainText text) (plainText query) := by
  unfold tierOf Settings.matchesWhole
  dsimp only
  split_ifs with whole start <;> simp_all

theorem tierOf_none_iff :
    tierOf settings query text = .none ↔ ¬ settings.matchesStart (plainText text) (plainText query) ∧
      ¬ 0 < fuzzyScore settings (plainText query) (plainText text) := by
  unfold tierOf Settings.matchesWhole
  dsimp only
  split_ifs with whole start <;> simp_all

end ShellCompletion
