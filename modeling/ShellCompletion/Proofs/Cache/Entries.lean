import ShellCompletion.Cache
import Mathlib.Data.List.Nodup

namespace ShellCompletion.Cache

variable {α : Type} {cache : Cache α} {key : Bytes} {entry : Entry α} {now later : Int}

/-- No key has two entries. -/
def Distinct (entries : List (Bytes × Entry α)) : Prop := (entries.map Prod.fst).Nodup

private theorem lookup_behind {place : Bytes} {old : Entry α} (rest : List (Bytes × Entry α)) (away : key ≠ place) :
    ((place, old) :: rest).lookup key = rest.lookup key := by
  rw [List.lookup_cons, beq_eq_false_iff_ne.mpr away]

theorem lookup_put (key : Bytes) (entry : Entry α) (entries : List (Bytes × Entry α)) (other : Bytes) :
    (put key entry entries).lookup other = if other = key then some entry else entries.lookup other := by
  induction entries with
  | nil =>
    by_cases same : other = key
    · simp [put, same]
    · rw [put, lookup_behind [] same, if_neg same]
  | cons first rest ih =>
    obtain ⟨place, old⟩ := first
    rw [put]
    by_cases same : other = key
    · subst same
      rw [if_pos rfl] at ih ⊢
      split_ifs with here
      · exact List.lookup_cons_self
      · rw [lookup_behind _ (Ne.symm here), ih]
    · rw [if_neg same] at ih ⊢
      split_ifs with here
      · rw [lookup_behind _ same, lookup_behind _ (here ▸ same)]
      · by_cases there : other = place
        · simp [there]
        · rw [lookup_behind _ there, lookup_behind _ there, ih]

theorem mem_put {entries : List (Bytes × Entry α)} {pair : Bytes × Entry α}
    (member : pair ∈ put key entry entries) : pair = (key, entry) ∨ pair ∈ entries := by
  induction entries with
  | nil => simpa [put] using member
  | cons first rest ih =>
    rw [put] at member
    split_ifs at member
    · exact (List.mem_cons.mp member).imp_right (List.mem_cons_of_mem first)
    · rcases List.mem_cons.mp member with rfl | behind
      · exact .inr List.mem_cons_self
      · exact (ih behind).imp_right (List.mem_cons_of_mem first)

theorem Distinct.put {entries : List (Bytes × Entry α)} (distinct : Distinct entries) (key : Bytes)
    (entry : Entry α) : Distinct (put key entry entries) := by
  induction entries with
  | nil => simp [Distinct, Cache.put]
  | cons first rest ih =>
    obtain ⟨fresh, distinct⟩ := List.nodup_cons.mp distinct
    rw [Cache.put]
    split_ifs with here
    · exact List.nodup_cons.mpr ⟨here ▸ fresh, distinct⟩
    · refine List.nodup_cons.mpr ⟨fun again => ?_, ih distinct⟩
      obtain ⟨pair, member, same⟩ := List.mem_map.mp again
      rcases mem_put member with rfl | old
      · exact here same.symm
      · exact fresh (List.mem_map.mpr ⟨pair, old, same⟩)

theorem Distinct.filter {entries : List (Bytes × Entry α)} (distinct : Distinct entries)
    (keep : Bytes × Entry α → Bool) : Distinct (entries.filter keep) :=
  List.Nodup.sublist (List.filter_sublist.map _) distinct

/-- With one entry for a key nothing else shows where that one is dropped. -/
theorem lookup_filter {entries : List (Bytes × Entry α)} (distinct : Distinct entries) (keep : Entry α → Bool)
    (key : Bytes) : (entries.filter (fun pair => keep pair.2)).lookup key = (entries.lookup key).filter keep := by
  induction entries with
  | nil => rfl
  | cons first rest ih =>
    obtain ⟨place, old⟩ := first
    obtain ⟨fresh, others⟩ : place ∉ rest.map Prod.fst ∧ Distinct rest := List.nodup_cons.mp distinct
    rw [List.filter_cons]
    by_cases here : key = place
    · subst here
      have alone : rest.lookup key = none := by
        rw [List.lookup_eq_none_iff]
        intro pair member
        simpa using fun same => fresh (List.mem_map.mpr ⟨pair, member, same.symm⟩)
      rw [List.lookup_cons_self]
      dsimp only
      split_ifs with kept
      · rw [List.lookup_cons_self, Option.filter_some, if_pos kept]
      · rw [ih others, alone, Option.filter_some, if_neg kept, Option.filter_none]
    · rw [lookup_behind _ here, ← ih others]
      split_ifs
      · rw [lookup_behind _ here]
      · rfl

theorem fresh_eq_some :
    cache.fresh? now key = some entry ↔ cache.entry? key = some entry ∧ now < entry.expires := by
  simp [fresh?, Option.filter_eq_some_iff]

theorem fresh_eq_of_entries {other : Cache α} (same : other.entries = cache.entries) :
    other.fresh? now key = cache.fresh? now key := by
  simp [fresh?, entry?, same]

theorem fresh_put {after : Cache α} (entries : after.entries = put key entry cache.entries) (later : Int)
    (other : Bytes) : after.fresh? later other =
      if other = key then (some entry).filter (later < ·.expires) else cache.fresh? later other := by
  simp only [fresh?, entry?, entries, lookup_put]
  split_ifs <;> rfl

/-- A store is seen under its own key only: what it drops would not have been fresh later either. -/
theorem fresh_store (distinct : Distinct cache.entries) (key : Bytes) (value : α) (past : now ≤ later)
    (other : Bytes) : (cache.store now key value).fresh? later other =
      if other = key then (some ⟨value, now + cache.timeToLive⟩).filter (later < ·.expires)
      else cache.fresh? later other := by
  have dropped : ∀ found : Option (Entry α), (found.filter (now < ·.expires)).filter (later < ·.expires) =
      found.filter (later < ·.expires) := by
    intro found
    rw [Option.filter_filter]
    congr 1
    funext entry
    rw [← Bool.decide_and]
    exact decide_eq_decide.mpr (by omega)
  simp only [fresh?, entry?, store, lookup_put, lookup_filter distinct (now < ·.expires)]
  split_ifs
  · rfl
  · exact dropped _

theorem Distinct.store (distinct : Distinct cache.entries) (now : Int) (key : Bytes) (value : α) :
    Distinct (cache.store now key value).entries := (distinct.filter _).put key _

theorem fresh_of_mem_store {value : α} (lives : 0 < cache.timeToLive) {pair : Bytes × Entry α}
    (member : pair ∈ (cache.store now key value).entries) : now < pair.2.expires := by
  rcases mem_put member with rfl | old
  · dsimp only
    omega
  · simpa using (List.mem_filter.mp old).2

/-- The value under a key, fresh or not. -/
def held? (cache : Cache α) (key : Bytes) : Option α := (cache.entry? key).map Entry.value

theorem held_of_fresh (found : cache.fresh? now key = some entry) : cache.held? key = some entry.value := by
  rw [held?, (fresh_eq_some.mp found).1, Option.map_some]

theorem held_of_get {value : α} (found : cache.get? now key = some value) : cache.held? key = some value := by
  obtain ⟨entry, fresh, rfl⟩ := Option.map_eq_some_iff.mp found
  exact held_of_fresh fresh

theorem held_renewed {after : Cache α} {time : Int} (found : cache.fresh? now key = some entry)
    (entries : after.entries = put key ⟨entry.value, time⟩ cache.entries) (other : Bytes) :
    after.held? other = cache.held? other := by
  rw [held?, entry?, entries, lookup_put]
  split_ifs with here
  · rw [here, held_of_fresh found, Option.map_some]
  · rfl

theorem held_extend (cache : Cache α) (now : Int) (key other : Bytes) :
    (cache.extend now key).2.held? other = cache.held? other := by
  unfold extend
  cases found : cache.fresh? now key with
  | none => rfl
  | some entry => exact held_renewed found rfl other

theorem held_lookup (cache : Cache α) (now : Int) (key other : Bytes) :
    (cache.lookup now key).2.held? other = cache.held? other := by
  unfold Cache.lookup
  cases found : cache.fresh? now key with
  | none => rfl
  | some entry => exact held_extend cache now key other

theorem held_of_lookup {value : α} (found : (cache.lookup now key).1 = some value) : cache.held? key = some value := by
  unfold Cache.lookup at found
  cases fresh : cache.fresh? now key with
  | none => simp [fresh] at found
  | some entry =>
    obtain rfl : entry.value = value := by simpa [fresh] using found
    exact held_of_fresh fresh

/-- A store puts its value under its key. Another key can only lose what it holds. -/
theorem held_of_store (distinct : Distinct cache.entries) {value found : α} {other : Bytes}
    (held : (cache.store now key value).held? other = some found) :
    if other = key then found = value else cache.held? other = some found := by
  simp only [held?, entry?, store, lookup_put, lookup_filter distinct (now < ·.expires)] at held ⊢
  split_ifs at held ⊢ with here
  · exact (Option.some.inj held).symm
  · obtain ⟨entry, kept, rfl⟩ := Option.map_eq_some_iff.mp held
    rw [(Option.filter_eq_some_iff.mp kept).1, Option.map_some]

theorem Distinct.extend (distinct : Distinct cache.entries) (now : Int) (key : Bytes) :
    Distinct (cache.extend now key).2.entries := by
  unfold Cache.extend
  cases cache.fresh? now key with
  | none => exact distinct
  | some entry => exact distinct.put key _

theorem Distinct.lookup (distinct : Distinct cache.entries) (now : Int) (key : Bytes) :
    Distinct (cache.lookup now key).2.entries := by
  unfold Cache.lookup
  cases cache.fresh? now key with
  | none => exact distinct
  | some entry => exact distinct.extend now key

/-- Every value of the cache, fresh or not, is right for its key. -/
def Holds (right : Bytes → α → Prop) (cache : Cache α) : Prop :=
  ∀ pair ∈ cache.entries, right pair.1 pair.2.value

namespace Holds

variable {right : Bytes → α → Prop} {value : α}

theorem fresh (holds : cache.Holds right) (found : cache.fresh? now key = some entry) : right key entry.value := by
  obtain ⟨before, after, split, _⟩ := List.lookup_eq_some_iff.mp (fresh_eq_some.mp found).1
  exact holds (key, entry) (by simp [split])

theorem put {after : Cache α} (holds : cache.Holds right) (entry : Entry α)
    (entries : after.entries = Cache.put key entry cache.entries) (is : right key entry.value) :
    after.Holds right := by
  intro pair member
  rcases mem_put (entries ▸ member) with rfl | old
  · exact is
  · exact holds pair old

theorem store (holds : cache.Holds right) (is : right key value) (now : Int) :
    (cache.store now key value).Holds right := by
  have kept : Holds right { cache with entries := cache.entries.filter (now < ·.2.expires) } :=
    fun pair member => holds pair (List.mem_filter.mp member).1
  exact kept.put _ rfl is

/-- What a lookup finds is right, and it brings nothing into the cache that is not. -/
theorem lookup (holds : cache.Holds right) (now : Int) (key : Bytes) :
    (cache.lookup now key).2.Holds right ∧ ∀ value, (cache.lookup now key).1 = some value → right key value := by
  unfold Cache.lookup
  cases found : cache.fresh? now key with
  | none => exact ⟨holds, by simp⟩
  | some entry =>
    have is := holds.fresh found
    exact ⟨holds.put ⟨entry.value, now + cache.timeToLive⟩ (by simp [extend, found]) is, by simpa using is⟩

/-- Where every value is what loading gives, a load gives that as well, from the cache or not. -/
theorem load {ε : Type} {given : Except ε α} (holds : cache.Holds fun _ value => given = .ok value) (now : Int)
    (key : Bytes) : (cache.load now key fun _ => given).1 = given ∧
      (cache.load now key fun _ => given).2.Holds fun _ value => given = .ok value := by
  obtain ⟨kept, found⟩ := holds.lookup now key
  unfold Cache.load
  generalize cache.lookup now key = out at kept found ⊢
  rcases out with ⟨_ | value, after⟩
  · cases given with
    | error e => exact ⟨rfl, kept⟩
    | ok value => exact ⟨rfl, kept.store rfl now⟩
  · exact ⟨(found value rfl).symm, kept⟩

end Holds

end ShellCompletion.Cache
