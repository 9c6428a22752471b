import Mathlib.Data.List.Basic
import Mathlib.Tactic.SplitIfs
import ShellCompletion.Engine

/-!
# The smart order

A candidate comes before another for one of three reasons: it matches the query in a better way, its scattered match
has a higher score, or of two that match alike it has the higher priority (`Outranks`). The smart ranking sorts by
these and leaves candidates in their order that do not outrank each other. A list that is sorted so is settled by the
order within each tie (`eq_of_sorted`), and sorting by priority changes nothing within a tie. So the smart ranking
can do without it (`smartRank_stable`).
-/
namespace ShellCompletion

section Stable

variable {α : Type} {le : α → α → Bool} {list first second : List α}

theorem filter_mergeSort (trans : ∀ a b c, le a b → le b c → le a c) (total : ∀ a b, le a b || le b a)
    {p : α → Bool} (tied : ∀ a b, p a → p b → le a b) : (list.mergeSort le).filter p = list.filter p := by
  have sorted : (list.filter p).Pairwise (le · ·) :=
    List.pairwise_of_forall_mem_list fun a here b there =>
      tied a b (List.mem_filter.mp here).2 (List.mem_filter.mp there).2
  have kept : (list.filter p).Sublist ((list.mergeSort le).filter p) := by
    have := (List.sublist_mergeSort trans total sorted List.filter_sublist).filter p
    simpa [List.filter_filter] using this
  exact (kept.eq_of_length ((List.mergeSort_perm list le).filter p).length_eq.symm).symm

/-- The first entry of a sorted list does not come after one that has a tie in the list. -/
theorem le_of_ties (refl : ∀ a, le a a) {a b : α} (sorted : (b :: second).Pairwise (le · ·))
    (ties : (a :: first).filter (fun c => le a c && le c a) = (b :: second).filter (fun c => le a c && le c a)) :
    le b a := by
  have here : a ∈ (b :: second).filter (fun c => le a c && le c a) := by simp [← ties, refl]
  rcases List.mem_cons.mp (List.mem_filter.mp here).1 with rfl | later
  · exact refl a
  · exact List.rel_of_pairwise_cons sorted later

/-- A sorted list is settled by the order within each tie. -/
theorem eq_of_sorted (total : ∀ a b, le a b || le b a) (sorted : first.Pairwise (le · ·))
    (sorted' : second.Pairwise (le · ·))
    (ties : ∀ a, first.filter (fun b => le a b && le b a) = second.filter (fun b => le a b && le b a)) :
    first = second := by
  have refl (a : α) : le a a := by simpa using total a a
  induction first generalizing second with
  | nil =>
    cases second with
    | nil => rfl
    | cons b rest => simpa [refl] using ties b
  | cons a rest ih =>
    cases second with
    | nil => simpa [refl] using ties a
    | cons b rest' =>
      -- Each of the two entries has a tie in the other list, so they are tied, and the tie starts with both.
      have after := le_of_ties refl sorted (ties b).symm
      have before := le_of_ties refl sorted' (ties a)
      have heads := ties a
      simp only [List.filter_cons, refl, after, before, Bool.and_self, if_true, List.cons.injEq] at heads
      obtain ⟨rfl, _⟩ := heads
      refine congrArg (a :: ·) (ih sorted.tail sorted'.tail fun c => ?_)
      have here := ties c
      rw [List.filter_cons, List.filter_cons] at here
      split_ifs at here
      · exact (List.cons.inj here).2
      · exact here

end Stable

variable {settings : Settings} {query : Bytes} {a b : Candidate}

/-- The reasons for which `a` comes before `b`. -/
inductive Outranks (settings : Settings) (query : Bytes) (a b : Candidate) : Prop where
  /-- It matches in a better way. -/
  | tier (better : (tierOf settings query a.text).rank < (tierOf settings query b.text).rank)
  /-- Both match scattered, and its score is higher. -/
  | score (first : tierOf settings query a.text = .scattered) (second : tierOf settings query b.text = .scattered)
      (higher : fuzzyScore settings (plainText query) (plainText b.text) <
        fuzzyScore settings (plainText query) (plainText a.text))
  /-- Both match alike, and its priority is higher. -/
  | priority (same : tierOf settings query a.text = tierOf settings query b.text)
      (level : tierOf settings query a.text = .scattered →
        fuzzyScore settings (plainText query) (plainText a.text) =
          fuzzyScore settings (plainText query) (plainText b.text))
      (higher : b.priority < a.priority)

/-- Neither of the two comes before the other. -/
def Tied (settings : Settings) (query : Bytes) (a b : Candidate) : Prop :=
  ¬ Outranks settings query a b ∧ ¬ Outranks settings query b a

theorem Tier.rank_injective {s t : Tier} (same : s.rank = t.rank) : s = t := by
  cases s <;> cases t <;> simp_all [rank]

theorem scoreOf_of_scattered {text : Bytes} (scattered : tierOf settings query text = .scattered) :
    scoreOf settings query text = fuzzyScore settings (plainText query) (plainText text) := by
  rw [scoreOf, scattered]

theorem scoreOf_of_ne {text : Bytes} (other : tierOf settings query text ≠ .scattered) :
    scoreOf settings query text = 0 := by
  unfold scoreOf
  split
  · exact absurd ‹_› other
  · rfl

theorem outranks_iff : Outranks settings query a b ↔
    (tierOf settings query a.text).rank < (tierOf settings query b.text).rank ∨
      (tierOf settings query a.text).rank = (tierOf settings query b.text).rank ∧
        (scoreOf settings query b.text < scoreOf settings query a.text ∨
          scoreOf settings query a.text = scoreOf settings query b.text ∧ b.priority < a.priority) := by
  constructor
  · rintro (better | ⟨first, second, higher⟩ | ⟨same, level, higher⟩)
    · exact .inl better
    · refine .inr ⟨by rw [first, second], .inl ?_⟩
      rwa [scoreOf_of_scattered first, scoreOf_of_scattered second]
    · refine .inr ⟨by rw [same], .inr ⟨?_, higher⟩⟩
      by_cases scattered : tierOf settings query a.text = .scattered
      · rw [scoreOf_of_scattered scattered, scoreOf_of_scattered (same ▸ scattered), level scattered]
      · rw [scoreOf_of_ne scattered, scoreOf_of_ne (same ▸ scattered)]
  · rintro (better | ⟨rank, higher | ⟨level, higher⟩⟩)
    · exact .tier better
    · have same := Tier.rank_injective rank
      by_cases scattered : tierOf settings query a.text = .scattered
      · have scattered' := same ▸ scattered
        rw [scoreOf_of_scattered scattered, scoreOf_of_scattered scattered'] at higher
        exact .score scattered scattered' higher
      · rw [scoreOf_of_ne scattered, scoreOf_of_ne (same ▸ scattered)] at higher
        exact absurd higher (Int.lt_irrefl 0)
    · have same := Tier.rank_injective rank
      refine .priority same (fun scattered => ?_) higher
      rwa [scoreOf_of_scattered scattered, scoreOf_of_scattered (same ▸ scattered)] at level

namespace Ranked

theorem le_iff {a b : Ranked} : a.le b ↔ a.tier.rank < b.tier.rank ∨ a.tier.rank = b.tier.rank ∧
    (b.score < a.score ∨ a.score = b.score ∧ b.candidate.priority ≤ a.candidate.priority) := by
  unfold le
  split_ifs <;> simp only [decide_eq_true_eq] <;> omega

theorem le_trans (a b c : Ranked) (first : a.le b) (second : b.le c) : a.le c := by
  rw [le_iff] at *
  omega

theorem le_total (a b : Ranked) : a.le b || b.le a := by
  rw [Bool.or_eq_true, le_iff, le_iff]
  omega

end Ranked

/-- The comparison of the smart ranking: `a` may stand before `b`. -/
def mayPrecede (settings : Settings) (query : Bytes) (a b : Candidate) : Bool :=
  (Ranked.of settings query a).le (.of settings query b)

theorem mayPrecede_iff : mayPrecede settings query a b ↔ ¬ Outranks settings query b a := by
  rw [mayPrecede, Ranked.le_iff, outranks_iff]
  dsimp only [Ranked.of]
  omega

theorem mayPrecede_trans (a b c : Candidate) (first : mayPrecede settings query a b)
    (second : mayPrecede settings query b c) : mayPrecede settings query a c :=
  Ranked.le_trans _ _ _ first second

theorem mayPrecede_total (a b : Candidate) : mayPrecede settings query a b || mayPrecede settings query b a :=
  Ranked.le_total _ _

instance : DecidableRel (Outranks settings query) := fun _ _ =>
  decidable_of_iff _ (not_iff_comm.mp mayPrecede_iff.symm)

instance : DecidableRel (Tied settings query) := fun _ _ => inferInstanceAs (Decidable (_ ∧ _))

theorem tied_iff : Tied settings query a b ↔ mayPrecede settings query a b && mayPrecede settings query b a := by
  rw [Bool.and_eq_true, mayPrecede_iff, mayPrecede_iff, Tied, and_comm]

theorem smartRank_eq (settings : Settings) (query : Bytes) (candidates : List Candidate) :
    smartRank settings query candidates = candidates.mergeSort (mayPrecede settings query) := by
  rw [smartRank, ← List.map_mergeSort (r := mayPrecede settings query) (f := Ranked.of settings query)
    fun _ _ _ _ => rfl, List.map_map]
  exact List.map_id _

theorem smartRank_sorted (settings : Settings) (query : Bytes) (candidates : List Candidate) :
    (smartRank settings query candidates).Pairwise (mayPrecede settings query · ·) := by
  rw [smartRank_eq]
  exact List.pairwise_mergeSort mayPrecede_trans mayPrecede_total candidates

/-- Candidates that are tied with one of them keep their order. -/
theorem filter_smartRank (candidates : List Candidate) (a : Candidate) :
    (smartRank settings query candidates).filter (Tied settings query a ·) =
      candidates.filter (Tied settings query a ·) := by
  rw [smartRank_eq]
  refine filter_mergeSort mayPrecede_trans mayPrecede_total fun b c first second => ?_
  simp only [decide_eq_true_eq, tied_iff, Bool.and_eq_true] at first second
  exact mayPrecede_trans b a c first.2 second.1

theorem filter_sortByPriority (candidates : List Candidate) (a : Candidate) :
    (sortByPriority candidates).filter (Tied settings query a ·) = candidates.filter (Tied settings query a ·) := by
  refine filter_mergeSort (fun _ _ _ => ?_) (fun _ _ => ?_) fun b c first second => ?_
  · simp only [decide_eq_true_eq]
    omega
  · simp only [Bool.or_eq_true, decide_eq_true_eq]
    omega
  · simp only [decide_eq_true_eq, Tied, outranks_iff] at first second ⊢
    omega

/-- A list that is sorted and has the ties in the order of the candidates is their smart order. -/
theorem eq_smartRank {candidates list : List Candidate} (sorted : list.Pairwise (mayPrecede settings query · ·))
    (ties : ∀ a, list.filter (Tied settings query a ·) = candidates.filter (Tied settings query a ·)) :
    list = smartRank settings query candidates := by
  refine eq_of_sorted mayPrecede_total sorted (smartRank_sorted settings query candidates) fun a => ?_
  have same := (ties a).trans (filter_smartRank candidates a).symm
  simpa only [tied_iff, Bool.decide_eq_true] using same

/-- The smart ranking puts the candidates in order: whole matches, matches from the start, scattered ones by falling
    score, the others; and those that match alike by falling priority. Candidates that are tied keep their order. So
    a second ranking changes nothing, and neither does sorting by priority before the ranking, as the engine does it. -/
theorem smartRank_stable (settings : Settings) (query : Bytes) (candidates : List Candidate) :
    let order := smartRank settings query candidates
    order.Perm candidates ∧
      order.Pairwise (fun a b => ¬ Outranks settings query b a) ∧
      (∀ a, order.filter (Tied settings query a ·) = candidates.filter (Tied settings query a ·)) ∧
      smartRank settings query order = order ∧
      smartRank settings query (sortByPriority candidates) = order ∧
      Engine.ranked settings query candidates =
        if settings.fuzzyMatching || settings.smartRanking then smartRank settings query (deduplicate candidates)
        else sortByPriority (deduplicate candidates) := by
  intro order
  have sorted := smartRank_sorted settings query
  have subsumes (list : List Candidate) :
      smartRank settings query (sortByPriority list) = smartRank settings query list :=
    eq_smartRank (sorted _) fun a => by rw [filter_smartRank, filter_sortByPriority]
  refine ⟨?_, (sorted candidates).imp mayPrecede_iff.mp, filter_smartRank candidates,
    (eq_smartRank (sorted candidates) fun _ => rfl).symm, subsumes candidates, ?_⟩
  · rw [show order = candidates.mergeSort (mayPrecede settings query) from smartRank_eq settings query candidates]
    exact List.mergeSort_perm candidates _
  · unfold Engine.ranked
    dsimp only
    rw [subsumes]

end ShellCompletion
