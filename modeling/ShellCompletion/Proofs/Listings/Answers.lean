import Mathlib.Tactic.SplitIfs
import ShellCompletion.Listing
import ShellCompletion.Proofs.Cache.Entries

namespace ShellCompletion

namespace Cache

variable {ε α : Type} {cache : Cache α}

/-- Values are kept for some time, one for each key. -/
structure Sound (cache : Cache α) : Prop where
  lives : 0 < cache.timeToLive
  distinct : Distinct cache.entries

theorem get_eq (cache : Cache α) (now : Int) (key : Bytes) :
    cache.get? now key = (cache.fresh? now key).map Entry.value := rfl

/-- A load gives the fresh value or else what its loader gives. -/
theorem load_fst (cache : Cache α) (now : Int) (key : Bytes) (given : Except ε α) :
    (cache.load now key fun _ => given).1 = (cache.get? now key).elim given .ok := by
  rw [get_eq]
  unfold load lookup
  cases cache.fresh? now key with
  | none => cases given <;> rfl
  | some entry => rfl

theorem load_get (sound : cache.Sound) (now : Int) (key : Bytes) (given : Except ε α) :
    let loaded := cache.load now key fun _ => given
    loaded.2.Sound ∧ ∀ other, loaded.2.get? now other =
      if other = key then loaded.1.toOption else cache.get? now other := by
  intro loaded
  have alive : ∀ value : α, (some (Entry.mk value (now + cache.timeToLive))).filter (now < ·.expires) =
      some ⟨value, now + cache.timeToLive⟩ := fun value => by
    have lives := sound.lives
    rw [Option.filter_some, if_pos (decide_eq_true (by dsimp only; omega))]
  cases found : cache.fresh? now key with
  | some entry =>
    have out : loaded = (.ok entry.value, { (cache.extend now key).2 with hits := cache.hits + 1 }) := by
      simp only [loaded, load, lookup, found]
    have entries : loaded.2.entries = put key ⟨entry.value, now + cache.timeToLive⟩ cache.entries := by
      simp [out, extend, found]
    have lives : 0 < loaded.2.timeToLive := by simpa [out, extend, found] using sound.lives
    refine ⟨⟨lives, entries ▸ sound.distinct.put _ _⟩, fun other => ?_⟩
    rw [get_eq, fresh_put entries, get_eq, alive, out]
    split_ifs <;> rfl
  | none =>
    let missed : Cache α := { cache with misses := cache.misses + 1 }
    cases given with
    | error e =>
      have out : loaded = (.error e, missed) := by simp only [loaded, load, lookup, found]; rfl
      rw [out]
      refine ⟨⟨sound.lives, sound.distinct⟩, fun other => ?_⟩
      split_ifs with here
      · rw [here, get_eq]
        exact congrArg (Option.map Entry.value) found
      · rfl
    | ok value =>
      have out : loaded = (.ok value, missed.store now key value) := by simp only [loaded, load, lookup, found]; rfl
      have distinct : Distinct missed.entries := sound.distinct
      rw [out]
      refine ⟨⟨sound.lives, distinct.store now key value⟩, fun other => ?_⟩
      rw [get_eq, fresh_store distinct key value (Int.le_refl now), alive]
      split_ifs <;> rfl

end Cache

namespace Listings

variable {listings : Listings}

/-- Reads the directory that a key spells, unless a fresh listing is known under the key. -/
def load (reader : DirectoryReader) (now : Int) (key : Bytes) : StateM Listings (Except Bytes (List Entry)) :=
  fun listings =>
    let (answer, cache) := listings.cache.load now key fun _ => reader.read key
    (answer, ⟨cache, listings.reads ++ if (listings.cache.get? now key).isSome then [] else [key]⟩)

theorem list_eq_load (reader : DirectoryReader) (now : Int) (directory : Directory) :
    list reader now directory = load reader now (directory.key reader.rootOf) := by
  funext listings
  unfold list load Cache.load Cache.lookup
  rw [Cache.get_eq]
  cases found : listings.cache.fresh? now (directory.key reader.rootOf) with
  | none => cases result : reader.read (directory.key reader.rootOf) <;> simp [found, result]
  | some entry => simp [found]

/-- What the directory is listed as: what is fresh under its key, or else what reading gives. -/
def shows (reader : DirectoryReader) (now : Int) (listings : Listings) (directory : Directory) :
    Except Bytes (List Entry) :=
  (listings.cache.get? now (directory.key reader.rootOf)).elim (reader.read (directory.key reader.rootOf)) .ok

theorem sound_new : ({} : Listings).cache.Sound := ⟨by decide, List.nodup_nil⟩

/-- Listing a directory says what it is listed as, and leaves that of every directory as it is. -/
theorem list_shows (sound : listings.cache.Sound) (reader : DirectoryReader) (now : Int) (directory : Directory) :
    (list reader now directory listings).1 = listings.shows reader now directory ∧
      (list reader now directory listings).2.cache.Sound ∧
      ∀ other, (list reader now directory listings).2.shows reader now other = listings.shows reader now other := by
  rw [list_eq_load]
  unfold shows
  generalize directory.key reader.rootOf = key
  have answer := Cache.load_fst listings.cache now key (reader.read key)
  obtain ⟨kept, after⟩ := Cache.load_get sound now key (reader.read key)
  refine ⟨answer, kept, fun other => ?_⟩
  rw [show (load reader now key listings).2.cache.get? now (other.key reader.rootOf) = _ from after _]
  split_ifs with here
  · rw [here, answer]
    cases listings.cache.get? now key with
    | none => cases reader.read key <;> rfl
    | some entries => rfl
  · rfl

end Listings

end ShellCompletion
