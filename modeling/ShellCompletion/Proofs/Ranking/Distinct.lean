import Mathlib.Data.List.Basic
import Mathlib.Data.List.Induction
import Mathlib.Tactic.SplitIfs
import ShellCompletion.Ranking

namespace ShellCompletion

/-- The candidate that is kept for a name. -/
def survivor? (candidates : List Candidate) (key : Bytes) : Option Candidate :=
  (candidates.find? (·.key = key)).map fun first =>
    if first.category = .file then
      (candidates.find? fun other => other.key = key ∧ other.category = .executable).getD first
    else first

variable {candidates kept : List Candidate} {new : Candidate}

theorem survivor?_eq_none {key : Bytes} (absent : key ∉ candidates.map Candidate.key) :
    survivor? candidates key = none := by
  rw [survivor?, Option.map_eq_none_iff, List.find?_eq_none]
  intro candidate member same
  exact absent (List.mem_map.mpr ⟨candidate, member, by simpa using same⟩)

theorem mem_of_survivor? {key : Bytes} {candidate : Candidate} (survives : survivor? candidates key = some candidate) :
    candidate ∈ candidates := by
  obtain ⟨first, found, rfl⟩ := Option.map_eq_some_iff.mp survives
  have member := List.mem_of_find?_eq_some found
  split_ifs
  · cases executable : candidates.find? fun other => other.key = key ∧ other.category = .executable with
    | none => exact member
    | some other => exact List.mem_of_find?_eq_some executable
  · exact member

/-- One more candidate of the name is the survivor if it is the first one or displaces the survivor so far. -/
theorem survivor?_concat (candidates : List Candidate) (new : Candidate) (key : Bytes) :
    survivor? (candidates ++ [new]) key =
      if new.key = key then
        some (match survivor? candidates key with
          | none => new
          | some old => if new.displaces old then new else old)
      else survivor? candidates key := by
  by_cases same : new.key = key
  · cases found : candidates.find? (·.key = key) with
    | none =>
      have none_ : candidates.find? (fun other => other.key = key ∧ other.category = .executable) = none := by
        rw [List.find?_eq_none] at found ⊢
        intro other member
        have := found other member
        simp_all
      simp only [survivor?, List.find?_append, found, none_, List.find?_cons, same, Option.map_none]
      by_cases file : new.category = .file <;> simp [file]
    | some first =>
      simp only [survivor?, List.find?_append, found, List.find?_cons, same, Option.map_some, Option.some_or]
      by_cases file : first.category = .file
      · -- The survivor so far is an executable, which nothing displaces, or the plain file itself.
        cases executable : candidates.find? fun other => other.key = key ∧ other.category = .executable with
        | none => by_cases new.category = .executable <;> simp_all [Candidate.displaces]
        | some other =>
          have runs := List.find?_some executable
          simp_all [Candidate.displaces]
      · simp [file, Candidate.displaces]
  · simp [survivor?, List.find?_append, same]

theorem absorb_of_not_mem (fresh : new.key ∉ kept.map Candidate.key) : absorb kept new = kept ++ [new] := by
  induction kept with
  | nil => rfl
  | cons old rest ih =>
    simp only [List.map_cons, List.mem_cons, not_or] at fresh
    rw [absorb, if_neg fun same => fresh.1 same.symm, ih fresh.2, List.cons_append]

theorem absorb_of_mem (distinct : (kept.map Candidate.key).Nodup) (known : new.key ∈ kept.map Candidate.key) :
    absorb kept new = kept.map fun old => if old.key = new.key ∧ new.displaces old then new else old := by
  induction kept with
  | nil => simp at known
  | cons old rest ih =>
    obtain ⟨first, others⟩ := List.nodup_cons.mp distinct
    rw [absorb, List.map_cons]
    by_cases same : old.key = new.key
    · have apart : ∀ other ∈ rest, other.key ≠ new.key := fun other member here =>
        first (List.mem_map.mpr ⟨other, member, here.trans same.symm⟩)
      have rest_eq : (rest.map fun old => if old.key = new.key ∧ new.displaces old then new else old) = rest := by
        rw [List.map_congr_left fun other member => if_neg fun both => apart other member both.1]
        exact List.map_id rest
      rw [if_pos same, rest_eq]
      simp only [same, true_and]
    · have later : new.key ∈ rest.map Candidate.key := by
        rcases List.mem_cons.mp known with here | later
        · exact absurd here.symm same
        · exact later
      rw [if_neg same, ih others later, if_neg fun both => same both.1]

theorem eraseDups_concat {α : Type} [BEq α] [LawfulBEq α] (list : List α) (a : α) :
    (list ++ [a]).eraseDups = list.eraseDups ++ if a ∈ list then [] else [a] := by
  have alone : [a].eraseDups = [a] := by rw [List.eraseDups_cons, List.filter_nil, List.eraseDups_nil]
  rw [List.eraseDups_append, List.removeAll, List.filter_singleton]
  by_cases known : a ∈ list <;> simp [known, alone]

theorem nodup_eraseDups {α : Type} [BEq α] [LawfulBEq α] (list : List α) : list.eraseDups.Nodup := by
  induction list using List.reverseRecOn with
  | nil => exact List.nodup_nil
  | append_singleton list a ih =>
    rw [eraseDups_concat]
    split_ifs with known
    · rwa [List.append_nil]
    · refine List.nodup_append.mpr ⟨ih, by simp, fun b member c single same => known ?_⟩
      rwa [← List.mem_eraseDups, ← List.mem_singleton.mp single, ← same]

/-- The kept candidates are the survivors of the names, in the order of the names' first occurrences. -/
structure Stand (candidates kept : List Candidate) : Prop where
  keys : kept.map Candidate.key = (candidates.map Candidate.key).eraseDups
  distinct : (kept.map Candidate.key).Nodup
  survive : ∀ candidate ∈ kept, survivor? candidates candidate.key = some candidate

theorem Stand.absorb (stand : Stand candidates kept) (new : Candidate) :
    Stand (candidates ++ [new]) (absorb kept new) := by
  have known_iff : new.key ∈ kept.map Candidate.key ↔ new.key ∈ candidates.map Candidate.key := by
    rw [stand.keys, List.mem_eraseDups]
  have keys : ((candidates ++ [new]).map Candidate.key).eraseDups =
      kept.map Candidate.key ++ if new.key ∈ kept.map Candidate.key then [] else [new.key] := by
    rw [List.map_append, List.map_singleton, eraseDups_concat, ← stand.keys]
    simp only [known_iff]
  by_cases known : new.key ∈ kept.map Candidate.key
  · have same : (ShellCompletion.absorb kept new).map Candidate.key = kept.map Candidate.key := by
      rw [absorb_of_mem stand.distinct known, List.map_map]
      refine List.map_congr_left fun old member => ?_
      simp only [Function.comp_apply]
      split_ifs with both
      · exact both.1.symm
      · rfl
    refine ⟨by rw [same, keys, if_pos known, List.append_nil], by rw [same]; exact stand.distinct, ?_⟩
    intro candidate member
    rw [absorb_of_mem stand.distinct known] at member
    obtain ⟨old, earlier, rfl⟩ := List.mem_map.mp member
    have survives := stand.survive old earlier
    rw [survivor?_concat]
    by_cases here : old.key = new.key
    · rw [here] at survives
      by_cases displaces : new.displaces old <;> simp [here, displaces, survives]
    · simp [here, Ne.symm here, survives]
  · rw [absorb_of_not_mem known]
    refine ⟨by rw [keys, if_neg known, List.map_append]; rfl, ?_, ?_⟩
    · rw [List.map_append, List.nodup_append]
      exact ⟨stand.distinct, by simp, fun key member other here same => known (by simp_all)⟩
    · intro candidate member
      rw [survivor?_concat]
      rcases List.mem_append.mp member with old | here
      · have apart : new.key ≠ candidate.key := fun same => known (same ▸ List.mem_map_of_mem old)
        rw [if_neg apart, stand.survive candidate old]
      · obtain rfl : candidate = new := by simpa using here
        rw [if_pos rfl, survivor?_eq_none (known_iff.not.mp known)]

theorem deduplicate_stand (candidates : List Candidate) : Stand candidates (deduplicate candidates) := by
  induction candidates using List.reverseRecOn with
  | nil => exact ⟨rfl, List.nodup_nil, by simp [deduplicate]⟩
  | append_singleton candidates new ih =>
    rw [deduplicate, List.foldl_append, ← deduplicate]
    exact ih.absorb new

theorem deduplicate_of_nodup (distinct : (candidates.map Candidate.key).Nodup) : deduplicate candidates = candidates := by
  induction candidates using List.reverseRecOn with
  | nil => rfl
  | append_singleton candidates new ih =>
    rw [List.map_append, List.nodup_append] at distinct
    obtain ⟨before, _, apart⟩ := distinct
    have fresh : new.key ∉ candidates.map Candidate.key := fun member => apart new.key member new.key (by simp) rfl
    rw [deduplicate, List.foldl_append, ← deduplicate, ih before]
    exact absorb_of_not_mem fresh

/-- A list without repetitions has one candidate for each name of the list, in the order in which the names occur
    first: the first one of the name or, where that is a plain file, the first executable of the name if there is
    one. All of them are candidates of the list, and a second round leaves them as they are. -/
theorem deduplicate_survivors (candidates : List Candidate) :
    deduplicate candidates = (candidates.map Candidate.key).eraseDups.filterMap (survivor? candidates) ∧
      (deduplicate candidates).map Candidate.key = (candidates.map Candidate.key).eraseDups ∧
      ((deduplicate candidates).map Candidate.key).Nodup ∧
      deduplicate candidates ⊆ candidates ∧
      deduplicate (deduplicate candidates) = deduplicate candidates := by
  have stand := deduplicate_stand candidates
  refine ⟨?_, stand.keys, stand.distinct, ?_, deduplicate_of_nodup stand.distinct⟩
  · have survivors : (deduplicate candidates).filterMap (survivor? candidates ∘ Candidate.key) =
        (deduplicate candidates).filterMap some := List.filterMap_congr stand.survive
    rw [← stand.keys, List.filterMap_map, survivors, List.filterMap_some]
  · exact fun candidate member => mem_of_survivor? (stand.survive candidate member)

end ShellCompletion
