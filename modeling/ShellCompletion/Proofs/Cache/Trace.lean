import ShellCompletion.Proofs.Cache.Entries

/-!
# A cache and what was done with it

The calls on a cache determine what it holds. A key has the value that was last stored under it since the
last clearing, for as long as the time to live has not run out since the last call that touched the key
(`IsLive`); a store, a load that hits and a successful extension touch it. Each call has one of four effects
(`Effect`), each effect keeps the cache in step with the calls (`Effect.fresh`), and so every sequence of
calls does (`Session.tells`, `answers_by_calls`). Between the calls, and while a loader runs, anything may
happen in the world as long as its clock does not go back.
-/
namespace ShellCompletion.Cache

variable {σ ε α : Type} {clock : σ → Int}

/-! ## Calls -/

/-- What happens in a world between two calls. -/
structure Pause (clock : σ → Int) where
  pass : σ → σ
  forward : ∀ world, clock world ≤ clock (pass world)

/-- Gives a value or fails, and acts on the world meanwhile. -/
structure Loader (clock : σ → Int) (ε α : Type) where
  run : σ → Except ε α × σ
  forward : ∀ world, clock world ≤ clock (run world).2

/-- A load by a loader that may take its time. -/
def loadBy (cache : Cache α) (world : σ) (key : Bytes) (loader : Loader clock ε α) : Except ε α × Cache α × σ :=
  match cache.lookup (clock world) key with
  | (some value, cache) => (.ok value, cache, world)
  | (none, cache) =>
    match loader.run world with
    | (.error e, world) => (.error e, cache, world)
    | (.ok value, world) => (.ok value, cache.store (clock world) key value, world)

/-- A loader that takes no time. -/
def Loader.instant (now : Int) (loader : Unit → Except ε α) : Loader (fun _ : Unit => now) ε α :=
  ⟨fun _ => (loader (), ()), fun _ => Int.le_refl now⟩

/-- A load at one moment is one by a loader that takes no time. -/
theorem load_eq_loadBy (cache : Cache α) (now : Int) (key : Bytes) (loader : Unit → Except ε α) :
    cache.load now key loader =
      ((cache.loadBy () key (.instant now loader)).1, (cache.loadBy () key (.instant now loader)).2.1) := by
  unfold load loadBy
  rcases cache.lookup now key with ⟨_ | value, after⟩
  · cases result : loader () <;> simp [Loader.instant, result]
  · rfl

inductive Operation (clock : σ → Int) (ε α : Type) where
  | set (key : Bytes) (value : α)
  | get (key : Bytes)
  | extend (key : Bytes)
  | load (key : Bytes) (loader : Loader clock ε α)
  | clear
  | size

def Operation.isLoad : Operation clock ε α → Bool
  | .load .. => true
  | _ => false

inductive Answer (ε α : Type) where
  | done
  | found (value : Option α)
  | extended (success : Bool)
  | loaded (result : Except ε α) (hit : Bool)
  | counted (entries : Nat)

/-- Does what is asked for: the answer, and the cache and the world after it. A load has hit where the
    hits have become more. -/
def Operation.perform (cache : Cache α) (world : σ) : Operation clock ε α → Answer ε α × Cache α × σ
  | .set key value => (.done, cache.store (clock world) key value, world)
  | .get key => (.found (cache.get? (clock world) key), cache, world)
  | .extend key => (.extended (cache.extend (clock world) key).1, (cache.extend (clock world) key).2, world)
  | .load key loader =>
    let (result, after, world) := cache.loadBy world key loader
    (.loaded result (decide (cache.hits < after.hits)), after, world)
  | .clear => (.done, cache.clear, world)
  | .size => (.counted cache.size, cache, world)

/-- What was asked of a cache, what it answered, and when it did. -/
structure Call (clock : σ → Int) (ε α : Type) where
  operation : Operation clock ε α
  answer : Answer ε α
  ended : Int

namespace Call

def clears (call : Call clock ε α) : Bool :=
  match call.operation with
  | .clear => true
  | _ => false

/-- The value that the call stores under the key. -/
def stored? (key : Bytes) (call : Call clock ε α) : Option α :=
  match call.operation, call.answer with
  | .set own value, _ => if key = own then some value else none
  | .load own _, .loaded (.ok value) false => if key = own then some value else none
  | _, _ => none

/-- The call stores a value under the key, finds one in a load, or extends its time. -/
def touches (key : Bytes) (call : Call clock ε α) : Bool :=
  match call.operation, call.answer with
  | .set own _, _ => key = own
  | .extend own, .extended true => key = own
  | .load own _, .loaded (.ok _) _ => key = own
  | _, _ => false

end Call

/-! ## What the calls say -/

section
variable {calls : List (Call clock ε α)} {call : Call clock ε α} {key : Bytes} {now ttl : Int}

/-- The calls since the cache was last cleared, the latest first, as all lists of calls. -/
def sinceClear (calls : List (Call clock ε α)) : List (Call clock ε α) := calls.takeWhile (!·.clears)

/-- The value that was last stored under the key. -/
def lastStored? (key : Bytes) (calls : List (Call clock ε α)) : Option α :=
  (sinceClear calls).findSome? (·.stored? key)

/-- When the key was last touched. -/
def lastTouched? (key : Bytes) (calls : List (Call clock ε α)) : Option Int :=
  ((sinceClear calls).find? (·.touches key)).map Call.ended

/-- By the calls the key has the value at the time `now`. -/
def IsLive (ttl : Int) (calls : List (Call clock ε α)) (now : Int) (key : Bytes) (value : α) : Prop :=
  lastStored? key calls = some value ∧ ∃ touched, lastTouched? key calls = some touched ∧ now < touched + ttl

/-- The fresh entry that the key has by the calls. -/
def entryBy? (ttl : Int) (calls : List (Call clock ε α)) (now : Int) (key : Bytes) : Option (Entry α) := do
  let value ← lastStored? key calls
  let touched ← lastTouched? key calls
  (some ⟨value, touched + ttl⟩).filter (now < ·.expires)

theorem entryBy_eq_some {entry : Entry α} : entryBy? ttl calls now key = some entry ↔
    lastStored? key calls = some entry.value ∧
      ∃ touched, lastTouched? key calls = some touched ∧ entry.expires = touched + ttl ∧ now < entry.expires := by
  obtain ⟨value, expires⟩ := entry
  simp only [entryBy?, Option.bind_eq_bind, Option.bind_eq_some_iff, Option.filter_eq_some_iff, Option.some.injEq,
    Entry.mk.injEq, decide_eq_true_eq]
  constructor
  · rintro ⟨_, stored, touched, last, ⟨rfl, rfl⟩, before⟩
    exact ⟨stored, touched, last, rfl, before⟩
  · rintro ⟨stored, touched, last, rfl, before⟩
    exact ⟨value, stored, touched, last, ⟨rfl, rfl⟩, before⟩

theorem isLive_iff {value : α} :
    IsLive ttl calls now key value ↔ (entryBy? ttl calls now key).map Entry.value = some value := by
  rw [Option.map_eq_some_iff]
  constructor
  · rintro ⟨stored, touched, last, before⟩
    exact ⟨⟨value, touched + ttl⟩, entryBy_eq_some.mpr ⟨stored, touched, last, rfl, before⟩, rfl⟩
  · rintro ⟨entry, found, rfl⟩
    obtain ⟨stored, touched, last, expires, before⟩ := entryBy_eq_some.mp found
    exact ⟨stored, touched, last, expires ▸ before⟩

theorem lastStored_cons (running : call.clears = false) (key : Bytes) :
    lastStored? key (call :: calls) = (call.stored? key).or (lastStored? key calls) := by
  rw [lastStored?, sinceClear, List.takeWhile_cons, running]
  cases stored : call.stored? key <;> simp [stored, lastStored?, sinceClear]

theorem lastTouched_cons (running : call.clears = false) (key : Bytes) :
    lastTouched? key (call :: calls) = if call.touches key then some call.ended else lastTouched? key calls := by
  rw [lastTouched?, sinceClear, List.takeWhile_cons, running]
  cases touches : call.touches key <;> simp [touches, lastTouched?, sinceClear]

theorem entryBy_of_clears (clears : call.clears = true) : entryBy? ttl (call :: calls) now key = none := by
  simp [entryBy?, lastStored?, sinceClear, clears]

theorem entryBy_of_untouched (running : call.clears = false) (untouched : call.touches key = false)
    (unstored : call.stored? key = none) : entryBy? ttl (call :: calls) now key = entryBy? ttl calls now key := by
  simp [entryBy?, lastStored_cons running, lastTouched_cons running, untouched, unstored]

theorem entryBy_of_touched (value : α) (running : call.clears = false) (touches : call.touches key = true)
    (stored : (call.stored? key).or (lastStored? key calls) = some value) :
    entryBy? ttl (call :: calls) now key = (some ⟨value, call.ended + ttl⟩).filter (now < ·.expires) := by
  simp [entryBy?, lastStored_cons running, lastTouched_cons running, touches, stored]

end

/-! ## What a call does -/

section
variable {cache : Cache α} {world : σ} {key : Bytes}

/-- How a call can go: its answer, the cache and the world after it. -/
inductive Performs (cache : Cache α) (world : σ) : Operation clock ε α → Answer ε α × Cache α × σ → Prop
  | set (key : Bytes) (value : α) :
      Performs cache world (.set key value) (.done, cache.store (clock world) key value, world)
  | get (key : Bytes) : Performs cache world (.get key) (.found (cache.get? (clock world) key), cache, world)
  | extended (key : Bytes) (entry : Entry α) : cache.fresh? (clock world) key = some entry →
      Performs cache world (.extend key) (.extended true,
        { cache with entries := put key ⟨entry.value, clock world + cache.timeToLive⟩ cache.entries }, world)
  | absent (key : Bytes) : cache.fresh? (clock world) key = none →
      Performs cache world (.extend key) (.extended false, cache, world)
  | hit (key : Bytes) (loader : Loader clock ε α) (entry : Entry α) : cache.fresh? (clock world) key = some entry →
      Performs cache world (.load key loader) (.loaded (.ok entry.value) true,
        { cache with
          entries := put key ⟨entry.value, clock world + cache.timeToLive⟩ cache.entries
          hits := cache.hits + 1 }, world)
  | failed (key : Bytes) (loader : Loader clock ε α) (e : ε) (after : σ) :
      cache.fresh? (clock world) key = none → loader.run world = (.error e, after) →
      Performs cache world (.load key loader)
        (.loaded (.error e) false, { cache with misses := cache.misses + 1 }, after)
  | loaded (key : Bytes) (loader : Loader clock ε α) (value : α) (after : σ) :
      cache.fresh? (clock world) key = none → loader.run world = (.ok value, after) →
      Performs cache world (.load key loader)
        (.loaded (.ok value) false, { cache.store (clock after) key value with misses := cache.misses + 1 }, after)
  | clear : Performs cache world .clear (.done, cache.clear, world)
  | size : Performs cache world .size (.counted cache.size, cache, world)

theorem Operation.performs (operation : Operation clock ε α) (cache : Cache α) (world : σ) :
    Performs cache world operation (operation.perform cache world) := by
  cases operation with
  | set key value => exact .set key value
  | get key => exact .get key
  | clear => exact .clear
  | size => exact .size
  | extend key =>
    cases found : cache.fresh? (clock world) key with
    | none => simpa [perform, Cache.extend, found] using Performs.absent key found
    | some entry => simpa [perform, Cache.extend, found] using Performs.extended key entry found
  | load key loader =>
    cases found : cache.fresh? (clock world) key with
    | some entry =>
      simpa [perform, loadBy, lookup, Cache.extend, found] using Performs.hit key loader entry found
    | none =>
      rcases run : loader.run world with ⟨result, after⟩
      cases result with
      | error e => simpa [perform, loadBy, lookup, found, run] using Performs.failed key loader e after found run
      | ok value =>
        simpa [perform, loadBy, lookup, found, run, store] using Performs.loaded key loader value after found run

/-- What a call does to the entries, and what it says of them. -/
inductive Effect (cache after : Cache α) (call : Call clock ε α) : Prop
  | kept : after.entries = cache.entries → call.clears = false → (∀ key, call.touches key = false) →
      (∀ key, call.stored? key = none) → Effect cache after call
  | stored (key : Bytes) (value : α) : after.entries = (cache.store call.ended key value).entries →
      call.clears = false → (∀ other, call.touches other = decide (other = key)) →
      (∀ other, call.stored? other = if other = key then some value else none) → Effect cache after call
  | touched (key : Bytes) (entry : Entry α) : cache.fresh? call.ended key = some entry →
      after.entries = put key ⟨entry.value, call.ended + cache.timeToLive⟩ cache.entries →
      call.clears = false → (∀ other, call.touches other = decide (other = key)) →
      (∀ other, call.stored? other = none) → Effect cache after call
  | cleared : after.entries = [] → call.clears = true → Effect cache after call

namespace Operation

variable (operation : Operation clock ε α)

/-- The call that an operation makes. -/
def call (cache : Cache α) (world : σ) : Call clock ε α :=
  ⟨operation, (operation.perform cache world).1, clock (operation.perform cache world).2.2⟩

theorem perform_effect (cache : Cache α) (world : σ) :
    Effect cache (operation.perform cache world).2.1 (operation.call cache world) := by
  have performs := operation.performs cache world
  unfold call
  generalize operation.perform cache world = out at performs ⊢
  cases performs with
  | set key value => exact .stored key value rfl rfl (fun _ => rfl) (fun _ => rfl)
  | loaded key _ value => exact .stored key value rfl rfl (fun _ => rfl) (fun _ => rfl)
  | extended key entry found => exact .touched key entry found rfl rfl (fun _ => rfl) (fun _ => rfl)
  | hit key _ entry found => exact .touched key entry found rfl rfl (fun _ => rfl) (fun _ => rfl)
  | clear => exact .cleared rfl rfl
  | get | absent | failed | size => exact .kept rfl rfl (fun _ => rfl) (fun _ => rfl)

theorem perform_forward (cache : Cache α) (world : σ) :
    clock world ≤ clock (operation.perform cache world).2.2 := by
  have performs := operation.performs cache world
  generalize operation.perform cache world = out at performs ⊢
  cases performs with
  | failed _ loader _ _ _ run => simpa [run] using loader.forward world
  | loaded _ loader _ _ _ run => simpa [run] using loader.forward world
  | _ => exact Int.le_refl _

theorem perform_timeToLive (cache : Cache α) (world : σ) :
    (operation.perform cache world).2.1.timeToLive = cache.timeToLive := by
  have performs := operation.performs cache world
  generalize operation.perform cache world = out at performs ⊢
  cases performs <;> rfl

theorem perform_counts (cache : Cache α) (world : σ) :
    (operation.perform cache world).2.1.hits + (operation.perform cache world).2.1.misses =
      cache.hits + cache.misses + if operation.isLoad then 1 else 0 := by
  have performs := operation.performs cache world
  generalize operation.perform cache world = out at performs ⊢
  cases performs with
  | hit => exact Nat.add_right_comm _ _ _
  | _ => rfl

end Operation

/-- A cache that agrees with the calls on it agrees with them after one more. -/
theorem Effect.fresh {after : Cache α} {call : Call clock ε α} {calls : List (Call clock ε α)}
    (effect : Effect cache after call) (distinct : Distinct cache.entries)
    (agrees : ∀ now key, call.ended ≤ now → cache.fresh? now key = entryBy? cache.timeToLive calls now key)
    {now : Int} (past : call.ended ≤ now) (key : Bytes) :
    after.fresh? now key = entryBy? cache.timeToLive (call :: calls) now key := by
  cases effect with
  | kept entries running untouched unstored =>
    rw [fresh_eq_of_entries entries, entryBy_of_untouched running (untouched key) (unstored key)]
    exact agrees now key past
  | stored own value entries running touches stores =>
    rw [fresh_eq_of_entries entries, fresh_store distinct own value past]
    split_ifs with here
    · rw [entryBy_of_touched value running (by simp [touches, here]) (by simp [stores, here])]
    · rw [entryBy_of_untouched running (by simp [touches, here]) (by simp [stores, here])]
      exact agrees now key past
  | touched own entry found entries running touches unstored =>
    -- The value stays that of the store before, which is what the calls say of the entry that was found.
    rw [fresh_put entries now key]
    split_ifs with here
    · have stored : lastStored? own calls = some entry.value := by
        rw [agrees _ own (Int.le_refl _)] at found
        exact (entryBy_eq_some.mp found).1
      rw [entryBy_of_touched entry.value running (by simp [touches, here]) (by simp [unstored, here, stored])]
    · rw [entryBy_of_untouched running (by simp [touches, here]) (unstored key)]
      exact agrees now key past
  | cleared entries clears =>
    rw [entryBy_of_clears clears]
    simp [fresh?, entry?, entries]

theorem Effect.distinct {after : Cache α} {call : Call clock ε α} (effect : Effect cache after call)
    (distinct : Distinct cache.entries) : Distinct after.entries := by
  cases effect with
  | kept entries => exact entries ▸ distinct
  | stored key value entries => exact entries ▸ distinct.store call.ended key value
  | touched key entry _ entries => exact entries ▸ distinct.put key _
  | cleared entries => rw [entries]; exact List.nodup_nil

end

/-! ## Sequences of calls -/

/-- A cache, the world around it, and the calls that were made on it. -/
structure Session (clock : σ → Int) (ε α : Type) where
  cache : Cache α
  world : σ
  calls : List (Call clock ε α) := []

namespace Session

/-- Makes a call after a pause. -/
def step (session : Session clock ε α) (pause : Pause clock) (operation : Operation clock ε α) :
    Session clock ε α :=
  let world := pause.pass session.world
  { cache := (operation.perform session.cache world).2.1
    world := (operation.perform session.cache world).2.2
    calls := operation.call session.cache world :: session.calls }

/-- Makes calls on a new cache, each after a pause. -/
def run (ttl : Int) (world : σ) (steps : List (Pause clock × Operation clock ε α)) : Session clock ε α :=
  steps.foldl (fun session step => session.step step.1 step.2) ⟨{ timeToLive := ttl }, world, []⟩

/-- The cache holds what the calls say, from now on. -/
structure Tells (ttl : Int) (session : Session clock ε α) : Prop where
  timeToLive_eq : session.cache.timeToLive = ttl
  distinct : Distinct session.cache.entries
  counts : session.cache.hits + session.cache.misses = session.calls.countP (·.operation.isLoad)
  fresh : ∀ now key, clock session.world ≤ now →
    session.cache.fresh? now key = entryBy? ttl session.calls now key

theorem Tells.step {ttl : Int} {session : Session clock ε α} (tells : session.Tells ttl) (pause : Pause clock)
    (operation : Operation clock ε α) : (session.step pause operation).Tells ttl := by
  obtain ⟨rfl, distinct, counts, fresh⟩ := tells
  have passed := pause.forward session.world
  have forward := operation.perform_forward session.cache (pause.pass session.world)
  have effect := operation.perform_effect session.cache (pause.pass session.world)
  constructor
  case timeToLive_eq => exact operation.perform_timeToLive _ _
  case distinct => exact effect.distinct distinct
  case counts =>
    rw [Session.step]
    dsimp only
    rw [operation.perform_counts, counts, List.countP_cons]
    rfl
  case fresh =>
    intro now key past
    refine effect.fresh distinct (fun later key past => fresh later key ?_) past key
    exact Int.le_trans passed (Int.le_trans forward past)

theorem run_tells (ttl : Int) (world : σ) (steps : List (Pause clock × Operation clock ε α)) :
    (run ttl world steps).Tells ttl := by
  have start : (⟨{ timeToLive := ttl }, world, []⟩ : Session clock ε α).Tells ttl :=
    ⟨rfl, List.nodup_nil, rfl, fun _ _ _ => rfl⟩
  unfold run
  generalize (⟨{ timeToLive := ttl }, world, []⟩ : Session clock ε α) = session at start
  induction steps generalizing session with
  | nil => exact start
  | cons step steps ih => exact ih _ (start.step step.1 step.2)

end Session

/-- The answer of a call that is to change no entry: a lookup, an extension without success or a load that
    has failed. -/
def Answer.isIdle : Answer ε α → Bool
  | .found _ | .extended false | .loaded (.error _) _ => true
  | _ => false

theorem Operation.perform_idle {cache : Cache α} {world : σ} {operation : Operation clock ε α}
    (idle : (operation.perform cache world).1.isIdle) :
    (operation.perform cache world).2.1.entries = cache.entries := by
  have performs := operation.performs cache world
  generalize operation.perform cache world = out at performs idle ⊢
  cases performs with
  | get | absent | failed | size => rfl
  | set | extended | hit | loaded | clear => cases idle

/-- A load that hits leaves the world as it is: its loader does not run. -/
theorem Operation.perform_hit {cache : Cache α} {world : σ} {key : Bytes} {entry : Entry α}
    (loader : Loader clock ε α) (found : cache.fresh? (clock world) key = some entry) :
    ((Operation.load key loader).perform cache world).1 = .loaded (.ok entry.value) true ∧
      ((Operation.load key loader).perform cache world).2.2 = world := by
  have performs := (Operation.load key loader).performs cache world
  generalize (Operation.load key loader).perform cache world = out at performs
  cases performs with
  | hit _ _ other found' =>
    obtain rfl := Option.some.inj (found.symm.trans found')
    exact ⟨rfl, rfl⟩
  | failed _ _ _ _ stale => simp [found] at stale
  | loaded _ _ _ _ stale => simp [found] at stale

/-- A load that misses does to the world what its loader does in one run, and gives what that gives. -/
theorem Operation.perform_miss {cache : Cache α} {world : σ} {key : Bytes} (loader : Loader clock ε α)
    (stale : cache.fresh? (clock world) key = none) :
    ((Operation.load key loader).perform cache world).1 = .loaded (loader.run world).1 false ∧
      ((Operation.load key loader).perform cache world).2.2 = (loader.run world).2 := by
  have performs := (Operation.load key loader).performs cache world
  generalize (Operation.load key loader).perform cache world = out at performs
  cases performs with
  | hit _ _ entry found => simp [stale] at found
  | failed _ _ e after _ run => simp [run]
  | loaded _ _ value after _ run => simp [run]

theorem Operation.fresh_of_stored {cache : Cache α} {world : σ} {operation : Operation clock ε α} {key : Bytes}
    {value : α} (lives : 0 < cache.timeToLive) (stores : (operation.call cache world).stored? key = some value)
    {pair : Bytes × Entry α} (member : pair ∈ (operation.perform cache world).2.1.entries) :
    clock (operation.perform cache world).2.2 < pair.2.expires := by
  cases operation.perform_effect cache world with
  | kept _ _ _ unstored => simp [unstored] at stores
  | touched _ _ _ _ _ _ unstored => simp [unstored] at stores
  | stored own value' entries =>
    rw [entries] at member
    exact fresh_of_mem_store lives member
  | cleared entries => simp [entries] at member

/-- After any sequence of calls a key has the value that was last stored under it since the last clearing,
    as long as the time to live since the key was last touched has not run out. A load finds it just then,
    and does not ask its loader; otherwise it asks it once. Loads are counted as hits or misses, calls that
    only look or fail leave the entries as they are, and a store leaves none that is no longer fresh. A load at one
    moment is one whose loader takes no time. -/
theorem answers_by_calls {ttl : Int} (lives : 0 < ttl) (start : σ)
    (steps : List (Pause clock × Operation clock ε α)) :
    let session := Session.run ttl start steps
    let cache := session.cache
    (∀ now key value, clock session.world ≤ now →
      (cache.get? now key = some value ↔ IsLive ttl session.calls now key value)) ∧
    (∀ world key (loader : Loader clock ε α), clock session.world ≤ clock world →
      let out := (Operation.load key loader).perform cache world
      (∀ value, IsLive ttl session.calls (clock world) key value →
        out.1 = .loaded (.ok value) true ∧ out.2.2 = world) ∧
      ((∀ value, ¬ IsLive ttl session.calls (clock world) key value) →
        out.1 = .loaded (loader.run world).1 false ∧ out.2.2 = (loader.run world).2)) ∧
    cache.hits + cache.misses = session.calls.countP (·.operation.isLoad) ∧
    (∀ world (operation : Operation clock ε α), clock session.world ≤ clock world →
      ((operation.perform cache world).1.isIdle → (operation.perform cache world).2.1.entries = cache.entries) ∧
      ∀ key value, (operation.call cache world).stored? key = some value →
        ∀ pair ∈ (operation.perform cache world).2.1.entries,
          clock (operation.perform cache world).2.2 < pair.2.expires) ∧
    ∀ now key (loader : Unit → Except ε α), cache.load now key loader =
      ((cache.loadBy () key (.instant now loader)).1, (cache.loadBy () key (.instant now loader)).2.1) := by
  intro session cache
  have tells := Session.run_tells ttl start steps
  have live : ∀ now key value, clock session.world ≤ now →
      ((cache.fresh? now key).map Entry.value = some value ↔ IsLive ttl session.calls now key value) := by
    intro now key value past
    rw [isLive_iff, tells.fresh now key past]
  refine ⟨live, fun world key loader past => ⟨fun value is => ?_, fun none_ => ?_⟩, tells.counts,
    fun world operation past => ⟨Operation.perform_idle, fun key value stores pair member => ?_⟩, cache.load_eq_loadBy⟩
  · obtain ⟨entry, found, rfl⟩ := Option.map_eq_some_iff.mp ((live _ key value past).mpr is)
    exact Operation.perform_hit loader found
  · refine Operation.perform_miss loader (Option.eq_none_iff_forall_ne_some.mpr fun entry found => ?_)
    exact none_ entry.value ((live _ key entry.value past).mp (by rw [found]; rfl))
  · exact Operation.fresh_of_stored (tells.timeToLive_eq ▸ lives) stores member

/-- A pause of that length in a world that is nothing but a clock. -/
def Pause.lasting (time : Nat) : Pause (id : Int → Int) where
  pass := (· + time)
  forward _ := Int.le_add_of_nonneg_right (Int.natCast_nonneg time)

/-- The time of a value that is extended just before its end starts again, and ends as sharply. -/
theorem answers_by_calls_extended :
    let steps : List (Pause (id : Int → Int) × Operation (id : Int → Int) Unit Nat) :=
      [(.lasting 0, .set (utf8 "key") 1), (.lasting 9, .extend (utf8 "key"))]
    let cache := (Session.run 10 0 steps).cache
    cache.get? 18 (utf8 "key") = some 1 ∧ ¬ cache.get? 19 (utf8 "key") = some 1 := by
  intro steps cache
  have answers := (answers_by_calls (by decide : (0 : Int) < 10) (0 : Int) steps).1
  have touched : lastTouched? (utf8 "key") (Session.run 10 0 steps).calls = some 9 := by rfl
  constructor
  · exact (answers 18 (utf8 "key") 1 (by decide)).mpr ⟨by rfl, 9, touched, by decide⟩
  · rw [answers 19 (utf8 "key") 1 (by decide)]
    rintro ⟨_, time, last, before⟩
    obtain rfl := Option.some.inj (touched.symm.trans last)
    exact absurd before (by decide)

end ShellCompletion.Cache
