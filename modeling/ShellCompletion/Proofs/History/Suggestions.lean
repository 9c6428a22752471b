import Mathlib.Algebra.Group.Action.Defs
import Mathlib.Algebra.Order.BigOperators.Group.List
import Mathlib.Algebra.Order.Ring.Nat
import ShellCompletion.Proofs.History.Entries
import ShellCompletion.Proofs.Line.Spacing
import ShellCompletion.Proofs.Ranking.Order

/-!
# Words that followed

The history offers the words that followed, in commands of the past, the words before the cursor
(`History.weighedWords_eq`), the heaviest first and of equal ones the one that occurs first. What is offered goes on
from the line: `History.candidates_replay`. The weights are sums of floats, which hold them as they are up to a limit
(`History.floatSum_eq_sum`) and lose halves past it (`History.floatSum_append_halves`).
-/
namespace ShellCompletion

theorem Word64.roundToFloat_of_le {n : Nat} (small : n ≤ 2 ^ 53) : Word64.roundToFloat n = n := by
  rcases Nat.lt_or_eq_of_le small with less | rfl
  · have digits : n.log2 - 52 = 0 := by
      rcases Nat.eq_zero_or_pos n with rfl | positive
      · rfl
      · have := (Nat.log2_lt (Nat.pos_iff_ne_zero.mp positive)).mpr less
        omega
    have one : 1 <<< (n.log2 - 52) = 1 := by rw [digits]; rfl
    simp [roundToFloat, one, Nat.mod_one]
  · decide +kernel

/-- A stable sort keeps the order of what it does not tell apart. -/
theorem pairwise_mergeSort {α : Type} {le : α → α → Bool} (trans : ∀ a b c, le a b → le b c → le a c)
    (total : ∀ a b, le a b || le b a) {list : List α} {before : α → α → Prop} (ordered : list.Pairwise before) :
    (list.mergeSort le).Pairwise fun a b => le a b ∧ (le b a → before a b) := by
  rw [List.pairwise_iff_forall_sublist]
  intro a b pair
  have less : le a b := List.pairwise_iff_forall_sublist.mp (List.pairwise_mergeSort trans total list) pair
  refine ⟨less, fun greater => ?_⟩
  have same : le a a := by simpa using total a a
  have ties := pair.filter fun c => le a c && le c a
  rw [filter_mergeSort trans total fun c d first second => ?_] at ties
  · have both : [a, b].filter (fun c => le a c && le c a) = [a, b] := by simp [same, less, greater]
    rw [both] at ties
    exact List.pairwise_iff_forall_sublist.mp ordered (ties.trans List.filter_sublist)
  · simp only [Bool.and_eq_true] at first second
    exact trans c a d first.2 second.1

/-- Words sorted by weight are those words, the heavier first and of equal ones the one that came first. -/
theorem sorted_by_weight {words : List Bytes} (weight : Bytes → Nat) {before : Bytes → Bytes → Prop}
    (ordered : words.Pairwise before) :
    let sorted := ((words.map fun word => (word, weight word)).mergeSort fun a b => b.2 ≤ a.2).map Prod.fst
    sorted.Perm words ∧ sorted.Pairwise fun a b => weight b < weight a ∨ weight a = weight b ∧ before a b := by
  intro sorted
  have bare : sorted = words.mergeSort fun a b => weight b ≤ weight a := by
    let le : Bytes × Nat → Bytes × Nat → Bool := fun a b => b.2 ≤ a.2
    have weighed : (words.mergeSort fun a b => weight b ≤ weight a).map (fun word => (word, weight word)) =
        (words.map fun word => (word, weight word)).mergeSort le := List.map_mergeSort fun _ _ _ _ => rfl
    have named : ((words.mergeSort fun a b => weight b ≤ weight a).map fun word => (word, weight word)).map Prod.fst =
        words.mergeSort fun a b => weight b ≤ weight a := by simp [Function.comp_def]
    rw [← named, weighed]
  rw [bare]
  refine ⟨List.mergeSort_perm _ _, (pairwise_mergeSort ?_ ?_ ordered).imp fun {a b} order => ?_⟩
  · simp only [decide_eq_true_eq]
    omega
  · simp only [Bool.or_eq_true, decide_eq_true_eq]
    omega
  · simp only [decide_eq_true_eq] at order
    rcases Nat.lt_or_eq_of_le order.1 with less | same
    · exact .inl less
    · exact .inr ⟨same.symm, order.2 (Nat.le_of_eq same.symm)⟩

namespace History

/-! ## Sums of floats -/

/-- What a float holds when numbers are added to the first of them one after the other. -/
def floatSum : List Nat → Nat
  | [] => 0
  | first :: rest => rest.foldl (fun sum weight => Word64.roundToFloat (sum + weight)) first

theorem floatSum_concat {weights : List Nat} (some_ : weights ≠ []) (weight : Nat) :
    floatSum (weights ++ [weight]) = Word64.roundToFloat (floatSum weights + weight) := by
  cases weights with
  | nil => exact absurd rfl some_
  | cons first rest => rw [List.cons_append, floatSum, List.foldl_append, ← floatSum]; rfl

/-- Up to a limit the sum is exact. -/
theorem floatSum_eq_sum {weights : List Nat} (small : weights.sum ≤ 2 ^ 53) : floatSum weights = weights.sum := by
  induction weights using List.reverseRecOn with
  | nil => rfl
  | append_singleton weights weight ih =>
    rw [List.sum_append, List.sum_singleton] at small ⊢
    by_cases none_ : weights = []
    · subst none_
      simp [floatSum]
    · rw [floatSum_concat none_, ih (by omega), Word64.roundToFloat_of_le small]

theorem floatSum_concat_of_full {weights : List Nat} (full : floatSum weights = 2 ^ 53) (weight : Nat) :
    floatSum (weights ++ [weight]) = Word64.roundToFloat (2 ^ 53 + weight) := by
  have some_ : weights ≠ [] := by
    rintro rfl
    cases full
  rw [floatSum_concat some_, full]

/-- At the limit the halves of runs are lost, however many are added. -/
theorem floatSum_append_halves {weights : List Nat} (full : floatSum weights = 2 ^ 53) (n : Nat) :
    floatSum (weights ++ List.replicate n 1) = 2 ^ 53 := by
  induction n with
  | zero => rwa [List.replicate_zero, List.append_nil]
  | succ n ih =>
    rw [List.replicate_succ', ← List.append_assoc, floatSum_concat_of_full ih]
    decide +kernel

theorem floatSum_full : floatSum (List.replicate (2 ^ 11) (2 ^ 42)) = 2 ^ 53 := by
  have sum : (List.replicate (2 ^ 11) (2 ^ 42)).sum = 2 ^ 53 := List.sum_replicate _ _
  rw [floatSum_eq_sum (Nat.le_of_eq sum), sum]

theorem floatSum_halves_append : floatSum (List.replicate 4 1 ++ List.replicate (2 ^ 11) (2 ^ 42)) = 2 ^ 53 + 4 := by
  have last : List.replicate (2 ^ 11) (2 ^ 42) = List.replicate 2047 (2 ^ 42) ++ [2 ^ 42] := List.replicate_succ'
  have front : (List.replicate 4 1 ++ List.replicate 2047 (2 ^ 42)).sum = 2 ^ 53 - 2 ^ 42 + 4 := by
    rw [List.sum_append, List.sum_replicate, List.sum_replicate]
    rfl
  have some_ : List.replicate 4 1 ++ List.replicate 2047 (2 ^ 42) ≠ [] := List.cons_ne_nil _ _
  rw [last, ← List.append_assoc, floatSum_concat some_, floatSum_eq_sum (by rw [front]; decide), front]
  decide +kernel

/-! ## Weights of words -/

/-- Weights of words, added up one after the other. -/
def weighAll (weighted : List (Bytes × Nat)) : List (Bytes × Nat) :=
  weighted.foldl (fun weighed pair => addWeight pair.1 pair.2 weighed) []

/-- The weights that a word is given. -/
def weightsOf (weighted : List (Bytes × Nat)) (word : Bytes) : List Nat :=
  (weighted.filter (·.1 = word)).map Prod.snd

variable {weighted : List (Bytes × Nat)} {word : Bytes} {weight : Nat}

theorem weightsOf_concat (weighted : List (Bytes × Nat)) (pair : Bytes × Nat) (word : Bytes) :
    weightsOf (weighted ++ [pair]) word = weightsOf weighted word ++ if pair.1 = word then [pair.2] else [] := by
  by_cases same : pair.1 = word <;> simp [weightsOf, same]

theorem weightsOf_eq_nil : weightsOf weighted word = [] ↔ word ∉ weighted.map Prod.fst := by
  rw [weightsOf, List.map_eq_nil_iff, List.filter_eq_nil_iff]
  constructor
  · intro others member
    obtain ⟨pair, inside, same⟩ := List.mem_map.mp member
    exact others pair inside (decide_eq_true same)
  · intro fresh pair inside same
    exact fresh (List.mem_map.mpr ⟨pair, inside, of_decide_eq_true same⟩)

theorem addWeight_eq_upsert (word : Bytes) (weight : Nat) (weighed : List (Bytes × Nat)) :
    addWeight word weight weighed =
      upsert Prod.fst word (fun pair => (pair.1, Word64.roundToFloat (pair.2 + weight))) (word, weight) weighed := by
  induction weighed with
  | nil => rfl
  | cons pair rest ih =>
    rw [addWeight, upsert, ih]
    split_ifs with same
    · rw [same]
    · rfl

theorem weighAll_eq (weighted : List (Bytes × Nat)) :
    weighAll weighted =
      (weighted.map Prod.fst).eraseDups.map fun word => (word, floatSum (weightsOf weighted word)) := by
  unfold weighAll
  simp only [addWeight_eq_upsert]
  refine foldl_upsert Prod.fst Prod.fst (fun pair weighed => (weighed.1, Word64.roundToFloat (weighed.2 + pair.2))) id
    (fun weighted word => (word, floatSum (weightsOf weighted word))) (fun _ _ => rfl) ?_ ?_ ?_ weighted
  · intro weighted pair word other
    rw [weightsOf_concat, if_neg (Ne.symm other), List.append_nil]
  · intro weighted pair known
    rw [weightsOf_concat, if_pos rfl, floatSum_concat (weightsOf_eq_nil.not.mpr (not_not.mpr known))]
  · intro weighted pair fresh
    rw [weightsOf_concat, if_pos rfl, weightsOf_eq_nil.mpr fresh]
    rfl

/-! ## Words after the leading ones -/

/-- The entry's command begins with the leading words and goes on with the word. -/
def goesOn (leading : List Bytes) (word : Bytes) (entry : HistoryEntry) : Bool :=
  decide ((words entry.command).take leading.length = leading ∧ (words entry.command)[leading.length]? = some word)

/-- The word that follows the leading ones in an entry's command, if it matches what has been typed. -/
def followed (settings : Settings) (leading : List Bytes) (typed : Bytes) (entry : HistoryEntry) : Option Bytes :=
  (nextWord? leading entry.command).filter (settings.accepts · typed)

variable {settings : Settings} {leading : List Bytes} {typed : Bytes} {entry : HistoryEntry}
  {entries : List HistoryEntry} {now : Int}

theorem followed_eq_some :
    followed settings leading typed entry = some word ↔ settings.accepts word typed ∧ goesOn leading word entry := by
  have next : nextWord? leading entry.command = some word ↔ goesOn leading word entry := by
    unfold nextWord? goesOn
    dsimp only
    rw [decide_eq_true_eq, ← List.isPrefixOf_iff_prefix.trans (List.prefix_iff_eq_take.trans eq_comm)]
    split_ifs with begins <;> simp [begins]
  rw [followed, Option.filter_eq_some_iff, next, and_comm]

theorem weighedWords_eq (settings : Settings) (entries : List HistoryEntry) (leading : List Bytes) (typed : Bytes)
    (now : Int) :
    weighedWords settings entries leading typed now =
      (entries.filterMap (followed settings leading typed)).eraseDups.map fun word =>
        (word, floatSum ((entries.filter (followed settings leading typed · = some word)).map (frecency · now))) := by
  let weigh : HistoryEntry → Option (Bytes × Nat) := fun entry =>
    (followed settings leading typed entry).map (·, frecency entry now)
  have sums : weighedWords settings entries leading typed now = weighAll (entries.filterMap weigh) := by
    rw [weighAll, List.foldl_filterMap, weighedWords]
    congr 1
    funext weighed entry
    simp only [weigh, followed]
    cases nextWord? leading entry.command with
    | none => rfl
    | some word =>
      rw [Option.filter_some]
      by_cases accepted : settings.accepts word typed
      · rw [if_pos accepted]
        exact if_pos accepted
      · rw [if_neg accepted]
        exact if_neg accepted
  have keys : (entries.filterMap weigh).map Prod.fst = entries.filterMap (followed settings leading typed) := by
    simp [weigh, List.map_filterMap, Function.comp_def]
  have weights : ∀ word, weightsOf (entries.filterMap weigh) word =
      (entries.filter (followed settings leading typed · = some word)).map (frecency · now) := by
    intro word
    rw [weightsOf, List.filter_filterMap, List.map_filterMap, ← List.filterMap_eq_filter, List.map_filterMap]
    congr 1
    funext entry
    cases found : followed settings leading typed entry with
    | none => simp [weigh, found, Option.guard]
    | some other => by_cases same : other = word <;> simp [weigh, found, same, Option.guard]
  rw [sums, weighAll_eq, keys]
  simp only [weights]

/-! ## The order of the words -/

theorem pairwise_eraseDups (find : HistoryEntry → Option Bytes) (entries : List HistoryEntry) :
    (entries.filterMap find).eraseDups.Pairwise fun a b =>
      entries.findIdx (find · = some a) < entries.findIdx (find · = some b) := by
  induction entries using List.reverseRecOn with
  | nil => exact .nil
  | append_singleton entries entry ih =>
    have place_iff : ∀ word, entries.findIdx (find · = some word) < entries.length ↔ word ∈ entries.filterMap find := by
      intro word
      rw [List.findIdx_lt_length, List.mem_filterMap]
      simp only [decide_eq_true_eq]
    have inside : ∀ word ∈ (entries.filterMap find).eraseDups, entries.findIdx (find · = some word) < entries.length ∧
        (entries ++ [entry]).findIdx (find · = some word) = entries.findIdx (find · = some word) := by
      intro word member
      have place := (place_iff word).mpr (List.mem_eraseDups.mp member)
      exact ⟨place, by rw [List.findIdx_append, if_pos place]⟩
    have kept : (entries.filterMap find).eraseDups.Pairwise fun a b =>
        (entries ++ [entry]).findIdx (find · = some a) < (entries ++ [entry]).findIdx (find · = some b) :=
      ih.imp_of_mem fun a b less => by rwa [(inside _ a).2, (inside _ b).2]
    rw [List.filterMap_append, List.filterMap_cons, List.filterMap_nil]
    cases found : find entry with
    | none => rwa [List.append_nil]
    | some word =>
      rw [eraseDups_concat]
      split_ifs with known
      · rwa [List.append_nil]
      · refine List.pairwise_append.mpr ⟨kept, List.pairwise_singleton _ _, fun a member b single => ?_⟩
        obtain rfl := List.mem_singleton.mp single
        rw [(inside a member).2]
        refine Nat.lt_of_lt_of_le (inside a member).1 ?_
        rw [List.findIdx_append, if_neg ((place_iff b).not.mpr known)]
        exact Nat.le_add_left _ _

/-! ## What is offered -/

theorem candidates_texts {line : Bytes} (written : ¬ line.all Bytes.isBlank) (settings : Settings)
    (entries : List HistoryEntry) (parsed : ParsedLine) (now : Int) :
    (candidates settings entries line parsed now).map Candidate.text =
      ((weighedWords settings entries (words (line.take parsed.replaceStart)) parsed.current now).mergeSort
        fun a b => b.2 ≤ a.2).map Prod.fst := by
  rw [candidates, Bytes.trim_isEmpty, if_neg written]
  simp only [List.map_map, Function.comp_def]
  rfl

theorem floatSum_frecency {now : Int}
    (small : (entries.map fun entry => entry.frequency * recency entry.lastUsed now).sum ≤ 2 ^ 53) :
    floatSum (entries.map (frecency · now)) =
      (entries.map fun entry => entry.frequency * recency entry.lastUsed now).sum := by
  have exact_ : entries.map (frecency · now) =
      entries.map fun entry => entry.frequency * recency entry.lastUsed now := by
    refine List.map_congr_left fun entry member => ?_
    have summand : entry.frequency * recency entry.lastUsed now ≤ 2 ^ 53 :=
      (List.le_sum_of_mem (List.mem_map_of_mem member)).trans small
    have counts : 1 ≤ recency entry.lastUsed now := by
      unfold recency
      dsimp only
      split_ifs <;> decide
    rw [frecency, Word64.roundToFloat_of_le ((Nat.le_mul_of_pos_right _ counts).trans summand)]
  rw [exact_, floatSum_eq_sum small]

/-- The weights of a thousand commands that were run fewer than 2^40 times each have a sum that a float holds. -/
theorem sum_frequencies_le {now : Int} (rare : ∀ entry ∈ entries, entry.frequency < 2 ^ 40)
    (few : entries.length ≤ 2 ^ 10) :
    (entries.map fun entry => entry.frequency * recency entry.lastUsed now).sum ≤ 2 ^ 53 := by
  have each : ∀ weight ∈ entries.map (fun entry => entry.frequency * recency entry.lastUsed now), weight ≤ 2 ^ 43 := by
    intro weight member
    obtain ⟨entry, inside, rfl⟩ := List.mem_map.mp member
    have counts : recency entry.lastUsed now ≤ 8 := by
      unfold recency
      dsimp only
      split_ifs <;> decide
    exact (Nat.mul_le_mul (Nat.le_of_lt (rare entry inside)) counts).trans (by decide)
  have all := List.sum_le_card_nsmul _ _ each
  rw [List.length_map, smul_eq_mul] at all
  exact all.trans ((Nat.mul_le_mul_right _ few).trans (by decide))

/-- The words that match and that followed the leading ones are offered once each, in the order of their weights or,
where these are equal, of their first entries. -/
theorem candidates_sorted {line : Bytes} (written : ¬ line.all Bytes.isBlank) (settings : Settings)
    (entries : List HistoryEntry) (parsed : ParsedLine) (now : Int) :
    let leading := words (line.take parsed.replaceStart)
    let offered := (candidates settings entries line parsed now).map Candidate.text
    let weight := fun (word : Bytes) => floatSum ((entries.filter (goesOn leading word)).map (frecency · now))
    (∀ word, word ∈ offered ↔ settings.accepts word parsed.current ∧ ∃ entry ∈ entries, goesOn leading word entry) ∧
      offered.Nodup ∧
      offered.Pairwise fun a b => weight b < weight a ∨
        weight a = weight b ∧ entries.findIdx (goesOn leading a) < entries.findIdx (goesOn leading b) := by
  intro leading offered weight
  let keys := (entries.filterMap (followed settings leading parsed.current)).eraseDups
  have mem_keys : ∀ word, word ∈ keys ↔
      settings.accepts word parsed.current ∧ ∃ entry ∈ entries, goesOn leading word entry := by
    intro word
    simp only [keys, List.mem_eraseDups, List.mem_filterMap, followed_eq_some]
    tauto
  have accepted : ∀ word ∈ keys,
      (fun entry => decide (followed settings leading parsed.current entry = some word)) = goesOn leading word := by
    intro word inside
    funext entry
    rw [Bool.eq_iff_iff, decide_eq_true_eq, followed_eq_some, and_iff_right ((mem_keys word).mp inside).1]
  have weighed : weighedWords settings entries leading parsed.current now = keys.map fun word => (word, weight word) := by
    rw [weighedWords_eq]
    exact List.map_congr_left fun word inside => by rw [accepted word inside]
  have ordered : keys.Pairwise fun a b =>
      entries.findIdx (goesOn leading a) < entries.findIdx (goesOn leading b) :=
    (pairwise_eraseDups _ entries).imp_of_mem fun a b less => by rwa [accepted _ a, accepted _ b] at less
  obtain ⟨same, sorted⟩ := sorted_by_weight weight ordered
  rw [← weighed, ← candidates_texts written settings entries parsed now] at same sorted
  exact ⟨fun word => same.mem_iff.trans (mem_keys word), same.nodup_iff.mpr (nodup_eraseDups _), sorted⟩

/-- Two words that begin commands of the past, the one with the greater weight first. -/
theorem candidates_pair {line : Bytes} (written : ¬ line.all Bytes.isBlank) {parsed : ParsedLine}
    (start : words (line.take parsed.replaceStart) = []) {a b : Bytes} (other : a ≠ b)
    (accepted : settings.accepts a parsed.current ∧ settings.accepts b parsed.current)
    (begun : ∀ word, entries.any (goesOn [] word) ↔ word = a ∨ word = b)
    (heavier : floatSum ((entries.filter (goesOn [] b)).map (frecency · now)) <
      floatSum ((entries.filter (goesOn [] a)).map (frecency · now))) :
    (candidates settings entries line parsed now).map Candidate.text = [a, b] := by
  obtain ⟨member, distinct, sorted⟩ := candidates_sorted written settings entries parsed now
  simp only [start, ← List.any_eq_true, begun] at member sorted
  have same : ((candidates settings entries line parsed now).map Candidate.text).Perm [a, b] := by
    rw [List.perm_ext_iff_of_nodup distinct (by simpa using other)]
    intro word
    rw [member, List.mem_pair, and_iff_right_of_imp]
    rintro (rfl | rfl)
    · exact accepted.1
    · exact accepted.2
  exact same.eq_of_pairwise (fun _ _ _ _ => by omega) sorted (List.pairwise_pair.mpr (.inl heavier))

/-! ## Commands with blanks before them -/

/-- A word after each number of blanks, run at a time and as often. -/
def spaced (word : Bytes) (frequency : Nat) (lastUsed : Int) (blanks : List Nat) : List HistoryEntry :=
  blanks.map fun n => ⟨List.replicate n ' '.toUInt8 ++ word, frequency, lastUsed⟩

/-- A word that was run often after each of many numbers of blanks, the last time at 1. -/
def often (word : Bytes) : List HistoryEntry := spaced word (2 ^ 39) 1 (List.range' 0 (2 ^ 11))

/-- A word that was run as often after each of a few more blanks, at no known time. -/
def rare (word : Bytes) (frequency few : Nat) : List HistoryEntry :=
  spaced word frequency 0 (List.range' (2 ^ 11) few)

section Spaced
variable {frequency few : Nat} {lastUsed : Int} {blanks : List Nat}

theorem words_spaced (member : entry ∈ spaced word frequency lastUsed blanks) : words entry.command = words word := by
  obtain ⟨n, -, rfl⟩ := List.mem_map.mp member
  exact words_blanks_append (fun c inside => (List.eq_of_mem_replicate inside).symm ▸ rfl) word

theorem goesOn_spaced (leading : List Bytes) (next : Bytes) (member : entry ∈ spaced word frequency lastUsed blanks) :
    goesOn leading next entry = goesOn leading next ⟨word, 0, 0⟩ := by
  rw [goesOn, goesOn, words_spaced member]

theorem weights_spaced (leading : List Bytes) (next : Bytes) (now : Int) :
    ((spaced word frequency lastUsed blanks).filter (goesOn leading next)).map (frecency · now) =
      if goesOn leading next ⟨word, 0, 0⟩
      then List.replicate blanks.length (Word64.roundToFloat frequency * recency lastUsed now) else [] := by
  rw [List.filter_congr fun entry member => goesOn_spaced leading next member]
  split_ifs with goes
  · simp [goes, spaced, frecency, Function.comp_def]
  · simp [goes]

theorem nodup_often_rare : ((often word ++ rare word frequency few).map HistoryEntry.command).Nodup := by
  have commands : (often word ++ rare word frequency few).map HistoryEntry.command =
      (List.range' 0 (2 ^ 11 + few)).map fun n => List.replicate n ' '.toUInt8 ++ word := by
    rw [← List.range'_append_1, List.map_append, List.map_append, often, rare, spaced, spaced, List.map_map,
      List.map_map, Nat.zero_add]
    rfl
  rw [commands]
  refine List.Pairwise.map _ (fun m n other same => other ?_) List.nodup_range'
  simpa using congrArg List.length same

theorem words_often_rare (member : entry ∈ often word ++ rare word frequency few) : words entry.command = words word :=
  (List.mem_append.mp member).elim words_spaced words_spaced

theorem frequency_often_rare (member : entry ∈ often word ++ rare word frequency few) :
    entry.frequency = 2 ^ 39 ∨ entry.frequency = frequency := by
  rcases List.mem_append.mp member with inside | inside <;> obtain ⟨n, -, rfl⟩ := List.mem_map.mp inside
  · exact .inl rfl
  · exact .inr rfl

theorem any_often_rare (leading : List Bytes) (next : Bytes) :
    (often word ++ rare word frequency few).any (goesOn leading next) = goesOn leading next ⟨word, 0, 0⟩ := by
  have first : (⟨word, 2 ^ 39, 1⟩ : HistoryEntry) ∈ often word := List.mem_map.mpr ⟨0, by simp, rfl⟩
  rw [Bool.eq_iff_iff, List.any_eq_true]
  constructor
  · rintro ⟨entry, member, goes⟩
    rwa [goesOn, words_often_rare member] at goes
  · intro goes
    exact ⟨_, List.mem_append_left _ first, (goesOn_spaced leading next first).trans goes⟩

end Spaced

/-! ## What is offered goes on from the line -/

/-- What is offered are the words that match and that followed, in commands of the past, the words of the line before
the cursor, and each of them goes on from these. None is offered twice, and they are in the order of their weights or,
where these are equal, of their first entries. A weight is the exact sum as long as a float holds it, whatever the order
of the entries. -/
theorem candidates_replay {database : Option Database} {line : Bytes} {cursor : Nat}
    (written : ¬ line.all Bytes.isBlank)
    (whole : (parse database line cursor).replaceStart = (Cut.of line cursor).start) (settings : Settings)
    (entries : List HistoryEntry) (now : Int) :
    let parsed := parse database line cursor
    let before := line.take parsed.replaceStart
    let offered := (candidates settings entries line parsed now).map Candidate.text
    let follows := goesOn (words before)
    let weight := fun (word : Bytes) (entries : List HistoryEntry) =>
      floatSum ((entries.filter (follows word)).map (frecency · now))
    let total := fun (word : Bytes) =>
      ((entries.filter (follows word)).map fun entry => entry.frequency * recency entry.lastUsed now).sum
    (words before).length = parsed.cursorIndex ∧
      (∀ word, word ∈ offered ↔ settings.accepts word parsed.current ∧ ∃ entry ∈ entries, follows word entry) ∧
      (∀ word ∈ offered, words (before ++ word) = words before ++ [word]) ∧
      offered.Nodup ∧
      offered.Pairwise (fun a b => weight b entries < weight a entries ∨
        weight a entries = weight b entries ∧ entries.findIdx (follows a) < entries.findIdx (follows b)) ∧
      ∀ word,
        ((∀ entry ∈ entries, entry.frequency < 2 ^ 40) → (entries.filter (follows word)).length ≤ 2 ^ 10 →
          total word ≤ 2 ^ 53) ∧
        (total word ≤ 2 ^ 53 → ∀ other, entries.Perm other → weight word other = total word) := by
  intro parsed before offered follows weight total
  have start : before = Cut.before line cursor := congrArg line.take whole
  obtain ⟨member, distinct, sorted⟩ := candidates_sorted written settings entries parsed now
  refine ⟨?_, member, fun word there => ?_, distinct, sorted, fun word => ⟨?_, ?_⟩⟩
  · rw [start, words, ← Cut.complete_eq, List.length_map]
    exact (parse_cursorIndex database line cursor).symm
  · obtain ⟨_, entry, _, goes⟩ := (member word).mp there
    obtain ⟨typed, joins⟩ := joins_of_mem_words (List.mem_of_getElem? (of_decide_eq_true goes).2)
    rw [start, words, Cut.tokenize_before_append joins typed, List.map_append, Cut.complete_eq]
    rfl
  · exact fun rare few => sum_frequencies_le (fun entry inside => rare entry (List.mem_of_mem_filter inside)) few
  · intro small other same
    have shuffled := (same.filter (follows word)).map fun entry => entry.frequency * recency entry.lastUsed now
    exact (floatSum_frecency (shuffled.sum_eq ▸ small)).trans shuffled.sum_eq.symm

/-- A quote that is not closed ends with the command. -/
theorem candidates_replay_quote :
    let line := utf8 "git add \"a"
    let entries : List HistoryEntry := [⟨utf8 "git add  \"a b", 1, 0⟩, ⟨utf8 "git add x", 5, 0⟩, ⟨utf8 "git add", 9, 0⟩]
    let parsed := parse none line 10
    let offered := (candidates {} entries line parsed 0).map Candidate.text
    ¬ line.all Bytes.isBlank ∧ parsed.replaceStart = (Cut.of line 10).start ∧ parsed.cursorIndex = 2 ∧
      utf8 "\"a b" ∈ offered ∧ utf8 "x" ∉ offered ∧
      words (line.take parsed.replaceStart ++ utf8 "\"a b") = [utf8 "git", utf8 "add", utf8 "\"a b"] ∧
      offered.Nodup := by
  intro line entries parsed offered
  have written : ¬ line.all Bytes.isBlank := by decide
  have whole : parsed.replaceStart = (Cut.of line 10).start := by decide +kernel
  have before : words (line.take parsed.replaceStart) = [utf8 "git", utf8 "add"] := by decide +kernel
  obtain ⟨_, found, goesOn, distinct, _⟩ := candidates_replay written whole {} entries 0
  have quoted : utf8 "\"a b" ∈ offered :=
    (found _).mpr ⟨by decide +kernel, entries[0], List.mem_cons_self, by decide +kernel⟩
  have other : utf8 "x" ∉ offered := fun member => absurd ((found _).mp member).1 (by decide +kernel)
  exact ⟨written, whole, by decide +kernel, quoted, other, (goesOn _ quoted).trans (by rw [before]; rfl), distinct⟩

/-- Where a word's sum passes the limit, the order of the entries decides which word is offered first. -/
theorem candidates_reordered :
    let known := often (utf8 "gcc") ++ rare (utf8 "gcc") 2 1
    let entries := known ++ (rare (utf8 "git") 1 4 ++ often (utf8 "git"))
    let reordered := known ++ (often (utf8 "git") ++ rare (utf8 "git") 1 4)
    let offered := fun entries => (candidates {} entries (utf8 "g") (parse none (utf8 "g") 1) 1).map Candidate.text
    (entries.map HistoryEntry.command).Nodup ∧ (∀ entry ∈ entries, entry.frequency < 2 ^ 40) ∧
      entries.Perm reordered ∧ offered entries = [utf8 "git", utf8 "gcc"] ∧
      offered reordered = [utf8 "gcc", utf8 "git"] := by
  intro known entries reordered offered
  have same : entries.Perm reordered := List.Perm.append_left known List.perm_append_comm
  have alone : words (utf8 "git") = [utf8 "git"] ∧ words (utf8 "gcc") = [utf8 "gcc"] := by decide +kernel
  have distinct : (reordered.map HistoryEntry.command).Nodup := by
    rw [List.map_append, List.nodup_append]
    refine ⟨nodup_often_rare, nodup_often_rare, fun command first command' second equal => ?_⟩
    obtain ⟨entry, inside, rfl⟩ := List.mem_map.mp first
    obtain ⟨entry', inside', rfl⟩ := List.mem_map.mp second
    have texts := congrArg words equal
    rw [words_often_rare inside, words_often_rare inside', alone.1, alone.2] at texts
    exact absurd texts (by decide)
  have seldom : ∀ entry ∈ reordered, entry.frequency < 2 ^ 40 := by
    intro entry member
    rcases List.mem_append.mp member with inside | inside <;> rcases frequency_often_rare inside with count | count <;>
      rw [count] <;> decide
  have begun : ∀ word, reordered.any (goesOn [] word) ↔ word = utf8 "gcc" ∨ word = utf8 "git" := by
    intro word
    rw [List.any_append, any_often_rare, any_often_rare, Bool.or_eq_true, goesOn, goesOn, alone.1, alone.2]
    simp [eq_comm]
  have begun' : ∀ word, entries.any (goesOn [] word) ↔ word = utf8 "git" ∨ word = utf8 "gcc" := by
    intro word
    rw [or_comm, ← begun, same.any_eq]
  let weight := fun word entries => floatSum ((List.filter (goesOn [] word) entries).map (frecency · 1))
  have weights : weight (utf8 "git") entries = 2 ^ 53 + 4 ∧ weight (utf8 "gcc") entries = 2 ^ 53 + 2 ∧
      weight (utf8 "git") reordered = 2 ^ 53 ∧ weight (utf8 "gcc") reordered = 2 ^ 53 + 2 := by
    have goes : goesOn [] (utf8 "git") ⟨utf8 "git", 0, 0⟩ = true ∧ goesOn [] (utf8 "git") ⟨utf8 "gcc", 0, 0⟩ = false ∧
        goesOn [] (utf8 "gcc") ⟨utf8 "gcc", 0, 0⟩ = true ∧ goesOn [] (utf8 "gcc") ⟨utf8 "git", 0, 0⟩ = false := by
      decide +kernel
    have counts : Word64.roundToFloat (2 ^ 39) * recency 1 1 = 2 ^ 42 ∧ Word64.roundToFloat 1 * recency 0 1 = 1 ∧
        Word64.roundToFloat 2 * recency 0 1 = 2 := by decide +kernel
    have twice : floatSum (List.replicate (2 ^ 11) (2 ^ 42) ++ List.replicate 1 2) = 2 ^ 53 + 2 := by
      rw [List.replicate_one, floatSum_concat_of_full floatSum_full]
      decide +kernel
    simp only [weight, entries, reordered, known, often, rare, List.filter_append, List.map_append, weights_spaced,
      goes, counts, if_true, Bool.false_eq_true, if_false, List.length_range', List.nil_append, List.append_nil]
    exact ⟨floatSum_halves_append, twice, floatSum_append_halves floatSum_full 4, twice⟩
  have heavier : weight (utf8 "gcc") entries < weight (utf8 "git") entries ∧
      weight (utf8 "git") reordered < weight (utf8 "gcc") reordered := by omega
  have written : ¬ (utf8 "g").all Bytes.isBlank := by decide
  have start : words ((utf8 "g").take (parse none (utf8 "g") 1).replaceStart) = [] := by decide +kernel
  have accepted : Settings.accepts {} (utf8 "git") (parse none (utf8 "g") 1).current ∧
      Settings.accepts {} (utf8 "gcc") (parse none (utf8 "g") 1).current := by decide +kernel
  have other : utf8 "git" ≠ utf8 "gcc" := by decide
  exact ⟨(same.map _).nodup_iff.mpr distinct, fun entry member => seldom entry (same.mem_iff.mp member), same,
    candidates_pair written start other accepted begun' heavier.1,
    candidates_pair written start other.symm accepted.symm begun heavier.2⟩

end History

end ShellCompletion
