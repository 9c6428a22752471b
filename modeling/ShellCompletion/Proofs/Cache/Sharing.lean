import Mathlib.Data.List.Induction
import ShellCompletion.Proofs.Cache.Entries

/-!
# Clients that share a cache

Any number of clients use one cache. Each of their steps is whole, and the cache takes the steps in whatever order
they come (`Runs`). A load is two of them: it looks, and where it has found nothing and its loader succeeds, what that
gives is stored. In between anything may be done to the cache, by the loader as well, so a client can be in several
loads, one within the other (`loadsAfter?`). Whatever the order, what a key holds and what is handed out for it was
stored under it last (`Runs.agrees`), and a load that fails leaves no trace but a miss (`Runs.of_missed`).
-/
namespace ShellCompletion.Cache

variable {ι ε α : Type}

/-! ## Steps -/

/-- What a client does in one step, and what it is told. -/
inductive Action (ε α : Type) where
  | set (key : Bytes) (value : α)
  | get (key : Bytes) (found : Option α)
  | extend (key : Bytes) (success : Bool)
  /-- The first step of a load. If nothing is found, the loader starts. -/
  | look (key : Bytes) (found : Option α)
  /-- The second step of a load that has found nothing: the loader has returned. -/
  | finish (key : Bytes) (result : Except ε α)
  | clear

/-- What a step makes of the cache. The clock of a client may show any time. -/
inductive Acts (cache : Cache α) (now : Int) : Action ε α → Cache α → Prop
  | set (key : Bytes) (value : α) : Acts cache now (.set key value) (cache.store now key value)
  | get (key : Bytes) : Acts cache now (.get key (cache.get? now key)) cache
  | extend (key : Bytes) : Acts cache now (.extend key (cache.extend now key).1) (cache.extend now key).2
  | look (key : Bytes) : Acts cache now (.look key (cache.lookup now key).1) (cache.lookup now key).2
  | loaded (key : Bytes) (value : α) : Acts cache now (.finish key (.ok value)) (cache.store now key value)
  | failed (key : Bytes) (e : ε) : Acts cache now (.finish key (.error e)) cache
  | clear : Acts cache now .clear cache.clear

namespace Action

variable (key : Bytes) (action : Action ε α)

/-- The value that the step stores under the key. -/
def stored? : Option α :=
  match action with
  | .set own value | .finish own (.ok value) => if key = own then some value else none
  | _ => none

/-- The value that the step hands out for the key. -/
def given? : Option α :=
  match action with
  | .get own (some value) | .look own (some value) | .finish own (.ok value) => if key = own then some value else none
  | _ => none

def clears : Bool :=
  match action with
  | .clear => true
  | _ => false

/-- The step is the first one of a load. -/
def looks : Bool :=
  match action with
  | .look .. => true
  | _ => false

/-- The step neither stores anything under the key nor clears the cache. -/
def Leaves : Prop := action.stored? key = none ∧ action.clears = false

/-- The keys of the loads that a client is in after the step, the innermost first. Only that one can be finished. -/
def loads? (loads : List Bytes) : Option (List Bytes) :=
  match action with
  | .look key none => some (key :: loads)
  | .finish key _ => if loads.head? = some key then some loads.tail else none
  | _ => some loads

end Action

/-! ## What one step does -/

section
variable {cache after : Cache α} {now : Int} {action : Action ε α} {key : Bytes} {value : α}

theorem Acts.distinct (acts : Acts cache now action after) (distinct : Distinct cache.entries) :
    Distinct after.entries := by
  cases acts with
  | set key value | loaded key value => exact distinct.store now key value
  | extend key => exact distinct.extend now key
  | look key => exact distinct.lookup now key
  | get | failed => exact distinct
  | clear => exact List.nodup_nil

theorem Acts.held (acts : Acts cache now action after) (distinct : Distinct cache.entries)
    (held : after.held? key = some value) :
    action.stored? key = some value ∨ action.Leaves key ∧ cache.held? key = some value := by
  cases acts with
  | set own stored | loaded own stored =>
    have origin := held_of_store distinct held
    split_ifs at origin with here
    · exact .inl (by rw [origin]; exact if_pos here)
    · exact .inr ⟨⟨if_neg here, rfl⟩, origin⟩
  | extend own => exact .inr ⟨⟨rfl, rfl⟩, by rwa [held_extend] at held⟩
  | look own => exact .inr ⟨⟨rfl, rfl⟩, by rwa [held_lookup] at held⟩
  | get | failed => exact .inr ⟨⟨rfl, rfl⟩, held⟩
  | clear => simp [held?, entry?, Cache.clear] at held

/-- What a step hands out for a key was stored by it, or was there before and is left. -/
theorem Acts.given (acts : Acts cache now action after) (given : action.given? key = some value) :
    action.stored? key = some value ∨ action.Leaves key ∧ cache.held? key = some value := by
  cases acts with
  | get own =>
    cases found : cache.get? now own with
    | none => simp [Action.given?, found] at given
    | some known =>
      obtain ⟨rfl, rfl⟩ : key = own ∧ known = value := by simpa [Action.given?, found] using given
      exact .inr ⟨⟨rfl, rfl⟩, held_of_get found⟩
  | look own =>
    cases found : (cache.lookup now own).1 with
    | none => simp [Action.given?, found] at given
    | some known =>
      obtain ⟨rfl, rfl⟩ : key = own ∧ known = value := by simpa [Action.given?, found] using given
      exact .inr ⟨⟨rfl, rfl⟩, held_of_lookup found⟩
  | loaded own stored => exact .inl given
  | set | extend | failed | clear => cases given

theorem extend_counts (cache : Cache α) (now : Int) (key : Bytes) :
    (cache.extend now key).2.hits = cache.hits ∧ (cache.extend now key).2.misses = cache.misses := by
  unfold Cache.extend
  cases cache.fresh? now key <;> exact ⟨rfl, rfl⟩

theorem lookup_counts (cache : Cache α) (now : Int) (key : Bytes) :
    (cache.lookup now key).2.hits + (cache.lookup now key).2.misses = cache.hits + cache.misses + 1 := by
  unfold Cache.lookup
  cases cache.fresh? now key with
  | none => rfl
  | some entry =>
    dsimp only
    rw [(extend_counts cache now key).2, Nat.add_right_comm]

theorem Acts.counts (acts : Acts cache now action after) :
    after.hits + after.misses = cache.hits + cache.misses + if action.looks then 1 else 0 := by
  cases acts with
  | look key => exact lookup_counts cache now key
  | extend key =>
    obtain ⟨hits, misses⟩ := extend_counts cache now key
    rw [hits, misses]
    rfl
  | set | get | loaded | failed | clear => rfl

/-- The cache with one more miss. -/
def missed (cache : Cache α) : Cache α := { cache with misses := cache.misses + 1 }

theorem Acts.of_missed (acts : Acts cache.missed now action after) :
    ∃ other, Acts cache now action other ∧ after = other.missed := by
  cases acts with
  | set key value => exact ⟨_, .set key value, rfl⟩
  | get key => exact ⟨_, .get key, rfl⟩
  | loaded key value => exact ⟨_, .loaded key value, rfl⟩
  | failed key e => exact ⟨_, .failed key e, rfl⟩
  | clear => exact ⟨_, .clear, rfl⟩
  | extend key =>
    have same : cache.missed.extend now key = ((cache.extend now key).1, (cache.extend now key).2.missed) := by
      have found : cache.missed.fresh? now key = cache.fresh? now key := rfl
      unfold Cache.extend
      rw [found]
      cases cache.fresh? now key <;> rfl
    rw [same]
    exact ⟨_, .extend key, rfl⟩
  | look key =>
    have same : cache.missed.lookup now key = ((cache.lookup now key).1, (cache.lookup now key).2.missed) := by
      have found : cache.missed.fresh? now key = cache.fresh? now key := rfl
      unfold Cache.lookup Cache.extend
      rw [found]
      cases cache.fresh? now key <;> rfl
    rw [same]
    exact ⟨_, .look key, rfl⟩

/-- A load that finds nothing has only counted a miss so far. -/
theorem Acts.eq_missed (acts : Acts cache now (.look key none : Action ε α) after) : after = cache.missed := by
  generalize looked : (.look key none : Action ε α) = action at acts
  cases acts with
  | look own =>
    obtain ⟨rfl, nothing⟩ := Action.look.inj looked
    unfold Cache.lookup at nothing ⊢
    cases found : cache.fresh? now key with
    | none => rfl
    | some entry => simp [found] at nothing
  | set | get | extend | loaded | failed | clear => cases looked

end

/-! ## Runs -/

/-- A step of a client at a time. -/
structure Event (ι ε α : Type) where
  client : ι
  time : Int
  action : Action ε α

/-- The steps of all clients, one after the other. -/
inductive Runs : Cache α → List (Event ι ε α) → Cache α → Prop
  | nil (cache : Cache α) : Runs cache [] cache
  | cons {before between after : Cache α} {event : Event ι ε α} {events : List (Event ι ε α)} :
      Acts before event.time event.action between → Runs between events after → Runs before (event :: events) after

/-- One of the steps has stored the value under the key, and none after it has stored anything there or cleared
    the cache. -/
def Stands (events : List (Event ι ε α)) (key : Bytes) (value : α) : Prop :=
  ∃ earlier event later, events = earlier ++ event :: later ∧ event.action.stored? key = some value ∧
    ∀ other ∈ later, other.action.Leaves key

/-- The cache holds and counts what the steps say. -/
structure Agrees (events : List (Event ι ε α)) (cache : Cache α) : Prop where
  distinct : Distinct cache.entries
  stands : ∀ key value, cache.held? key = some value → Stands events key value
  counts : cache.hits + cache.misses = events.countP (·.action.looks)

section
variable {before between after cache : Cache α} {event : Event ι ε α} {events earlier later : List (Event ι ε α)}
  {key : Bytes} {value : α}

theorem Runs.append (first : Runs before earlier between) (then_ : Runs between later after) :
    Runs before (earlier ++ later) after := by
  induction first with
  | nil => exact then_
  | cons acts _ ih => exact .cons acts (ih then_)

theorem Runs.split (runs : Runs before (earlier ++ later) after) :
    ∃ between, Runs before earlier between ∧ Runs between later after := by
  induction earlier generalizing before with
  | nil => exact ⟨before, .nil before, runs⟩
  | cons event earlier ih =>
    obtain _ | ⟨acts, rest⟩ := runs
    obtain ⟨between, first, then_⟩ := ih rest
    exact ⟨between, .cons acts first, then_⟩

theorem Runs.of_missed (runs : Runs before.missed events after) :
    ∃ other, Runs before events other ∧ after = other.missed := by
  induction events generalizing before with
  | nil =>
    obtain _ | _ := runs
    exact ⟨before, .nil before, rfl⟩
  | cons event events ih =>
    obtain _ | ⟨acts, rest⟩ := runs
    obtain ⟨between, first, rfl⟩ := acts.of_missed
    obtain ⟨other, last, rfl⟩ := ih rest
    exact ⟨other, .cons first last, rfl⟩

/-- What is stored by the next step, or is left by it, stands after it. -/
theorem Agrees.stands_after (agrees : Agrees events cache)
    (origin : event.action.stored? key = some value ∨ event.action.Leaves key ∧ cache.held? key = some value) :
    Stands (events ++ [event]) key value := by
  rcases origin with stored | ⟨leaves, held⟩
  · exact ⟨events, event, [], rfl, stored, by simp⟩
  · obtain ⟨earlier, source, later, rfl, stored, left⟩ := agrees.stands key value held
    refine ⟨earlier, source, later ++ [event], by simp, stored, fun other member => ?_⟩
    rcases List.mem_append.mp member with before | last
    · exact left other before
    · exact List.mem_singleton.mp last ▸ leaves

theorem Agrees.step (agrees : Agrees events cache) (acts : Acts cache event.time event.action after) :
    Agrees (events ++ [event]) after where
  distinct := acts.distinct agrees.distinct
  stands _ _ held := agrees.stands_after (acts.held agrees.distinct held)
  counts := by rw [acts.counts, agrees.counts, List.countP_append, List.countP_singleton]

theorem Agrees.run (agrees : Agrees earlier before) (runs : Runs before later after) :
    Agrees (earlier ++ later) after := by
  induction runs generalizing earlier with
  | nil => rwa [List.append_nil]
  | cons acts _ ih =>
    rw [List.append_cons]
    exact ih (agrees.step acts)

/-- What a run on a new cache leaves agrees with its steps. -/
theorem Runs.agrees {ttl : Int} (runs : Runs { timeToLive := ttl } events cache) : Agrees events cache := by
  have start : Agrees ([] : List (Event ι ε α)) ({ timeToLive := ttl } : Cache α) :=
    ⟨List.nodup_nil, fun key value held => by simp [held?, entry?] at held, rfl⟩
  simpa using start.run runs

end

/-! ## Loads within loads -/

section
variable [DecidableEq ι] {client : ι} {loads after outer : List Bytes} {key : Bytes}
  {earlier later between events : List (Event ι ε α)}

/-- The loads that a client is in after the steps, if it was in the given ones before them. There are none if it
    finishes another load than the innermost that it is in. -/
def loadsAfter? (client : ι) (loads : List Bytes) (events : List (Event ι ε α)) : Option (List Bytes) :=
  events.foldlM (fun loads event => if event.client = client then event.action.loads? loads else some loads) loads

theorem loadsAfter_append (client : ι) (loads : List Bytes) (earlier later : List (Event ι ε α)) :
    loadsAfter? client loads (earlier ++ later) =
      (loadsAfter? client loads earlier).bind (loadsAfter? client · later) := List.foldlM_append

theorem loadsAfter_cons (client : ι) (loads : List Bytes) (event : Event ι ε α) (events : List (Event ι ε α)) :
    loadsAfter? client loads (event :: events) =
      (if event.client = client then event.action.loads? loads else some loads).bind (loadsAfter? client · events) :=
  List.foldlM_cons

theorem loadsAfter_singleton (client : ι) (loads : List Bytes) (event : Event ι ε α) :
    loadsAfter? client loads [event] = if event.client = client then event.action.loads? loads else some loads := by
  rw [loadsAfter_cons]
  exact Option.bind_fun_some _

theorem Action.loads_append {action : Action ε α} (inner : action.loads? loads = some after) (outer : List Bytes) :
    action.loads? (loads ++ outer) = some (after ++ outer) := by
  cases action with
  | look key found => cases found <;> (cases inner; rfl)
  | finish key result =>
    cases loads with
    | nil => simp [loads?] at inner
    | cons first rest =>
      obtain ⟨rfl, rfl⟩ : first = key ∧ rest = after := by simpa [loads?] using inner
      simp [loads?]
  | set | get | extend | clear => cases inner; rfl

theorem loadsAfter_frame (inner : loadsAfter? client loads events = some after) (outer : List Bytes) :
    loadsAfter? client (loads ++ outer) events = some (after ++ outer) := by
  induction events generalizing loads with
  | nil => cases inner; rfl
  | cons event events ih =>
    rw [loadsAfter_cons] at inner ⊢
    obtain ⟨middle, first, rest⟩ := Option.bind_eq_some_iff.mp inner
    have framed : (if event.client = client then event.action.loads? (loads ++ outer) else some (loads ++ outer)) =
        some (middle ++ outer) := by
      split_ifs at first ⊢
      · exact Action.loads_append first outer
      · cases first; rfl
    exact Option.bind_eq_some_iff.mpr ⟨middle ++ outer, framed, ih rest⟩

theorem Action.loads_inv {action : Action ε α} {upper : List Bytes}
    (after : action.loads? loads = some (upper ++ key :: outer)) :
    (action = .look key none ∧ upper = [] ∧ loads = outer) ∨
      ∃ inner, loads = inner ++ key :: outer ∧ action.loads? inner = some upper := by
  cases action with
  | look own found =>
    cases found with
    | none =>
      have started : own :: loads = upper ++ key :: outer := Option.some.inj after
      rcases List.cons_eq_append_iff.mp started with ⟨rfl, first⟩ | ⟨inner, rfl, rest⟩
      · obtain ⟨rfl, rfl⟩ := List.cons.inj first
        exact .inl ⟨rfl, rfl, rfl⟩
      · exact .inr ⟨inner, rest, rfl⟩
    | some value => exact .inr ⟨upper, Option.some.inj after, rfl⟩
  | finish own result =>
    cases loads with
    | nil => simp [loads?] at after
    | cons first rest =>
      obtain ⟨rfl, rfl⟩ : first = own ∧ rest = upper ++ key :: outer := by simpa [loads?] using after
      exact .inr ⟨first :: upper, rfl, by simp [loads?]⟩
  | set | get | extend | clear => exact .inr ⟨upper, Option.some.inj after, rfl⟩

/-- Every load that a client is in has started with a look, and since then the client is in the loads within it. -/
theorem exists_look {upper : List Bytes} (inside : loadsAfter? client [] events = some (upper ++ key :: outer)) :
    ∃ earlier began between, events = earlier ++ ⟨client, began, .look key none⟩ :: between ∧
      loadsAfter? client [] between = some upper := by
  induction events using List.reverseRecOn generalizing upper with
  | nil => simp [loadsAfter?] at inside
  | append_singleton events event ih =>
    rw [loadsAfter_append] at inside
    obtain ⟨loads, before, step⟩ := Option.bind_eq_some_iff.mp inside
    rw [loadsAfter_singleton] at step
    -- Unless the load starts here, the step is one within it and comes after those so far.
    have further {inner : List Bytes} (around : loads = inner ++ key :: outer)
        (within : loadsAfter? client inner [event] = some upper) :
        ∃ earlier began between, events ++ [event] = earlier ++ ⟨client, began, .look key none⟩ :: between ∧
          loadsAfter? client [] between = some upper := by
      obtain ⟨earlier, began, between, rfl, so_far⟩ := ih (around ▸ before)
      exact ⟨earlier, began, between ++ [event], by simp, by simpa [loadsAfter_append, so_far] using within⟩
    split_ifs at step with own
    · rcases Action.loads_inv step with ⟨look, rfl, _⟩ | ⟨inner, around, within⟩
      · obtain ⟨_, began, _⟩ := event
        obtain rfl : _ = client := own
        obtain rfl : _ = Action.look key none := look
        exact ⟨events, began, [], rfl, rfl⟩
      · exact further around (by rw [loadsAfter_singleton, if_pos own, within])
    · exact further (Option.some.inj step) (by rw [loadsAfter_singleton, if_neg own])

/-- A load that comes to an end leaves a client in the loads in which it started, whatever was done meanwhile. -/
theorem loadsAfter_without (whole : loadsAfter? client [] between = some []) (began ended : Int) (key : Bytes)
    (result : Except ε α) (other : ι) (loads : List Bytes) :
    loadsAfter? other loads
        (⟨client, began, .look key none⟩ :: (between ++ ⟨client, ended, .finish key result⟩ :: later)) =
      loadsAfter? other loads (between ++ later) := by
  by_cases own : client = other
  · subst own
    have inside : loadsAfter? client (key :: loads) between = some (key :: loads) :=
      loadsAfter_frame whole (key :: loads)
    have outside : loadsAfter? client loads between = some loads := loadsAfter_frame whole loads
    simp [loadsAfter_cons, loadsAfter_append, inside, outside, Action.loads?]
  · simp [loadsAfter_cons, loadsAfter_append, own]

theorem loadsAfter_of_others (others : ∀ event ∈ events, event.client ≠ client) (loads : List Bytes) :
    loadsAfter? client loads events = some loads := by
  induction events with
  | nil => rfl
  | cons event events ih =>
    rw [loadsAfter_cons, if_neg (others event List.mem_cons_self)]
    exact ih fun later member => others later (List.mem_cons_of_mem event member)

/-- The steps are all of one client, which ends every load that it starts, and no other. -/
structure WholeLoads (client : ι) (events : List (Event ι ε α)) : Prop where
  own : ∀ event ∈ events, event.client = client
  whole : loadsAfter? client [] events = some []

namespace WholeLoads

theorem nil : WholeLoads client ([] : List (Event ι ε α)) := ⟨nofun, rfl⟩

theorem hit (client : ι) (now : Int) (key : Bytes) (value : α) :
    WholeLoads client ([⟨client, now, .look key (some value)⟩] : List (Event ι ε α)) where
  own event member := by rw [List.mem_singleton.mp member]
  whole := by
    rw [loadsAfter_singleton, if_pos rfl]
    rfl

theorem around (inner : WholeLoads client between) (began ended : Int) (key : Bytes) (result : Except ε α) :
    WholeLoads client (⟨client, began, .look key none⟩ :: (between ++ [⟨client, ended, .finish key result⟩])) where
  own event member := by
    rcases List.mem_cons.mp member with rfl | later
    · rfl
    · rcases List.mem_append.mp later with within | last
      · exact inner.own event within
      · rw [List.mem_singleton.mp last]
  whole := by rw [loadsAfter_without inner.whole, List.append_nil, inner.whole]

theorem loadsAfter_eq (loads_ : WholeLoads client events) (other : ι) (loads : List Bytes) :
    loadsAfter? other loads events = some loads := by
  by_cases same : client = other
  · subst same
    exact loadsAfter_frame loads_.whole loads
  · exact loadsAfter_of_others (fun event member => loads_.own event member ▸ same) loads

end WholeLoads

end

/-! ## Whole interleavings -/

/-- Any clients have made these steps on a new cache, each its loads one within the other. -/
structure Interleaving [DecidableEq ι] (ttl : Int) (events : List (Event ι ε α)) (cache : Cache α) : Prop where
  runs : Runs { timeToLive := ttl } events cache
  nested : ∀ client, (loadsAfter? client [] events).isSome

/-- The steps of a load that nothing comes between. -/
def loadSteps (client : ι) (now : Int) (key : Bytes) (found : Option α) (result : Except ε α) : List (Event ι ε α) :=
  ⟨client, now, .look key found⟩ :: if found.isSome then [] else [⟨client, now, .finish key result⟩]

theorem load_runs (cache : Cache α) (client : ι) (now : Int) (key : Bytes) (loader : Unit → Except ε α) :
    Runs cache (loadSteps client now key (cache.lookup now key).1 (loader ())) (cache.load now key loader).2 ∧
      (cache.load now key loader).1 = ((cache.lookup now key).1.map .ok).getD (loader ()) := by
  have look : Acts cache now (.look key (cache.lookup now key).1 : Action ε α) (cache.lookup now key).2 := .look key
  unfold load loadSteps
  generalize cache.lookup now key = out at look ⊢
  rcases out with ⟨_ | value, after⟩
  · cases result : loader () with
    | error e => exact ⟨.cons look (.cons (.failed key e) (.nil _)), by simp⟩
    | ok value => exact ⟨.cons look (.cons (.loaded key value) (.nil _)), by simp⟩
  · exact ⟨.cons look (.nil _), rfl⟩

section
variable [DecidableEq ι] {ttl : Int} {cache : Cache α} {earlier between later events : List (Event ι ε α)}
  {client : ι} {key : Bytes}

/-- A load ends after it has looked, and what its client does in between are whole loads. -/
theorem Interleaving.exists_look {ended : Int} {result : Except ε α}
    (interleaving : Interleaving ttl (earlier ++ ⟨client, ended, .finish key result⟩ :: later) cache) :
    ∃ before began between, earlier = before ++ ⟨client, began, .look key none⟩ :: between ∧
      loadsAfter? client [] between = some [] := by
  have nested := interleaving.nested client
  rw [loadsAfter_append] at nested
  cases inside : loadsAfter? client [] earlier with
  | none => simp [inside] at nested
  | some loads =>
    have innermost : loads.head? = some key := by
      by_contra other
      rw [inside, Option.bind_some, loadsAfter_cons, if_pos rfl, Action.loads?, if_neg other] at nested
      cases nested
    obtain ⟨outer, rfl⟩ := List.head?_eq_some_iff.mp innermost
    exact Cache.exists_look (show _ = some ([] ++ key :: outer) from inside)

/-- Without a load that fails, all others are told the same, and the cache is the same but for a miss. -/
theorem Interleaving.without {began ended : Int} {e : ε}
    (interleaving : Interleaving ttl
      (earlier ++ ⟨client, began, .look key none⟩ :: (between ++ ⟨client, ended, .finish key (.error e)⟩ :: later)) cache)
    (whole : loadsAfter? client [] between = some []) :
    ∃ other, Interleaving ttl (earlier ++ between ++ later) other ∧ cache = other.missed := by
  obtain ⟨_, first, rest⟩ := interleaving.runs.split
  obtain _ | ⟨look, rest⟩ := rest
  obtain ⟨_, middle, last⟩ := rest.split
  obtain _ | ⟨finish, last⟩ := last
  obtain _ | _ := finish
  obtain rfl := look.eq_missed
  obtain ⟨other, same, rfl⟩ := (middle.append last).of_missed
  refine ⟨other, ⟨List.append_assoc .. ▸ first.append same, fun client' => ?_⟩, rfl⟩
  have nested := interleaving.nested client'
  rw [loadsAfter_append] at nested
  rw [List.append_assoc, loadsAfter_append]
  simpa only [loadsAfter_without whole] using nested

theorem Interleaving.append {after : Cache α} (interleaving : Interleaving ttl events cache)
    (runs : Runs cache later after) (loads : WholeLoads client later) : Interleaving ttl (events ++ later) after where
  runs := interleaving.runs.append runs
  nested other := by
    rw [loadsAfter_append]
    simpa only [loads.loadsAfter_eq, Option.bind_fun_some] using interleaving.nested other

theorem loadSteps_whole (client : ι) (now : Int) (key : Bytes) (found : Option α) (result : Except ε α) :
    WholeLoads client (loadSteps client now key found result) := by
  cases found with
  | none => exact WholeLoads.nil.around now now key result
  | some value => exact .hit client now key value

/-- In every interleaving of any clients, with loaders that use the cache themselves, a value that is handed out for a
    key is the one that a set or a successful load has stored last under that key, and so is every value that is
    present. A load that fails changes nothing, now or for anyone later, but the misses. Hits and misses count the
    loads that have looked. A load that nothing comes between is a part of such an interleaving. -/
theorem interleaving_sound (interleaving : Interleaving ttl events cache) :
    (∀ earlier event later key value, events = earlier ++ event :: later →
      event.action.given? key = some value → Stands (earlier ++ [event]) key value) ∧
    (∀ key entry, cache.entry? key = some entry → Stands events key entry.value) ∧
    (∀ earlier client ended key e later, events = earlier ++ ⟨client, ended, .finish key (.error e)⟩ :: later →
      ∃ before began between, earlier = before ++ ⟨client, began, .look key none⟩ :: between ∧
        loadsAfter? client [] between = some [] ∧
        ∃ other, Interleaving ttl (before ++ between ++ later) other ∧
          cache = { other with misses := other.misses + 1 }) ∧
    cache.hits + cache.misses = events.countP (·.action.looks) ∧
    ∀ client now key (loader : Unit → Except ε α),
      let found := (cache.lookup now key).1
      Interleaving ttl (events ++ loadSteps client now key found (loader ())) (cache.load now key loader).2 ∧
        (cache.load now key loader).1 = (found.map .ok).getD (loader ()) := by
  have agrees := interleaving.runs.agrees
  refine ⟨?_, ?_, ?_, agrees.counts, fun client now key loader =>
    have steps := load_runs cache client now key loader
    ⟨interleaving.append steps.1 (loadSteps_whole ..), steps.2⟩⟩
  · rintro earlier event later key value rfl given
    obtain ⟨between, first, rest⟩ := interleaving.runs.split
    obtain _ | ⟨acts, _⟩ := rest
    exact first.agrees.stands_after (acts.given given)
  · intro key entry present
    exact agrees.stands key entry.value (by rw [held?, present, Option.map_some])
  · rintro earlier client ended key e later rfl
    obtain ⟨before, began, between, rfl, whole⟩ := interleaving.exists_look
    rw [List.append_assoc, List.cons_append] at interleaving
    exact ⟨before, began, between, rfl, whole, interleaving.without whole⟩

end

/-- One client loads `a`; its loader looks for `b` in vain, while another client sets `a`. -/
theorem interleaving_sound_nested :
    let a := utf8 "a"
    let b := utf8 "b"
    let before : List (Event (Fin 2) Unit Nat) := [⟨0, 0, .look a none⟩, ⟨1, 1, .set a 1⟩, ⟨0, 2, .look b none⟩]
    let later : List (Event (Fin 2) Unit Nat) :=
      [⟨1, 3, .get a (some 1)⟩, ⟨0, 4, .finish a (.ok 2)⟩, ⟨1, 5, .look a (some 2)⟩]
    let events := before ++ ⟨0, 3, .finish b (.error ())⟩ :: later
    ∃ cache, Interleaving 10 events cache ∧ cache.get? 14 a = some 2 ∧ Stands events a 2 ∧
      cache.hits + cache.misses = 3 ∧
      ∃ (fewer : List (Event (Fin 2) Unit Nat)) (other : Cache Nat), fewer.length = 5 ∧ Interleaving 10 fewer other ∧
        cache = { other with misses := other.misses + 1 } := by
  intro a b before later events
  let cache : Cache Nat := ⟨10, [(a, ⟨2, 15⟩)], 1, 2⟩
  have interleaving : Interleaving 10 events cache := by
    refine ⟨?_, by decide⟩
    exact .cons (.look a) (.cons (.set a 1) (.cons (.look b) (.cons (.failed b ()) (.cons (.get a) (.cons (.loaded a 2)
      (.cons (.look a) (.nil _)))))))
  obtain ⟨_, present, failed, counts, _⟩ := interleaving_sound interleaving
  obtain ⟨first, began, between, split, _, other, fewer, same⟩ := failed before 0 3 b () later rfl
  refine ⟨cache, interleaving, by decide, present a ⟨2, 15⟩ (by decide), counts.trans (by decide), _, other, ?_, fewer,
    same⟩
  have lengths := congrArg List.length split
  simp only [List.length_append, List.length_cons] at lengths ⊢
  change 3 = first.length + (between.length + 1) at lengths
  change first.length + between.length + 3 = 5
  omega

end ShellCompletion.Cache
