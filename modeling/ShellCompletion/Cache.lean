import ShellCompletion.Bytes

/-!
# Caches with a time to live

A cache keeps each value for a fixed time after it was stored or last looked up with success. The
clock is an argument of every operation and may stand still or move; times are milliseconds.
A load is a lookup followed, after a miss and a successful load, by a store, so other operations may
come between the two.
-/
namespace ShellCompletion

namespace Cache

/-- A value, and the time from which it is no longer fresh. -/
structure Entry (α : Type) where
  value : α
  expires : Int
deriving DecidableEq, Repr

end Cache

/-- Values by key, with the number of lookups that found a fresh value and of those that did not. -/
structure Cache (α : Type) where
  timeToLive : Int
  entries : List (Bytes × Cache.Entry α) := []
  hits : Nat := 0
  misses : Nat := 0

namespace Cache

variable {α : Type}

def entry? (cache : Cache α) (key : Bytes) : Option (Entry α) := cache.entries.lookup key

def fresh? (cache : Cache α) (now : Int) (key : Bytes) : Option (Entry α) :=
  (cache.entry? key).filter (fun entry => now < entry.expires)

/-- The value of a key, if it is fresh. -/
def get? (cache : Cache α) (now : Int) (key : Bytes) : Option α :=
  (cache.fresh? now key).map Entry.value

/-- Puts an entry in the place of the key's old one, or at the end. -/
def put (key : Bytes) (entry : Entry α) : List (Bytes × Entry α) → List (Bytes × Entry α)
  | [] => [(key, entry)]
  | (other, old) :: rest =>
    if other = key then (key, entry) :: rest else (other, old) :: put key entry rest

/-- Stores a value, after dropping every entry that is no longer fresh. -/
def store (cache : Cache α) (now : Int) (key : Bytes) (value : α) : Cache α :=
  { cache with
    entries := put key ⟨value, now + cache.timeToLive⟩
      (cache.entries.filter (fun e => now < e.2.expires)) }

/-- Gives a fresh value its whole time again; says whether there was one. -/
def extend (cache : Cache α) (now : Int) (key : Bytes) : Bool × Cache α :=
  match cache.fresh? now key with
  | none => (false, cache)
  | some entry =>
    (true, { cache with entries := put key ⟨entry.value, now + cache.timeToLive⟩ cache.entries })

/-- Looks a value up before a load: a fresh one is given its whole time again and counts as a hit,
    otherwise a miss is counted. -/
def lookup (cache : Cache α) (now : Int) (key : Bytes) : Option α × Cache α :=
  match cache.fresh? now key with
  | none => (none, { cache with misses := cache.misses + 1 })
  | some entry =>
    (some entry.value,
      { (cache.extend now key).2 with hits := cache.hits + 1 })

/-- The value of a key, loaded and stored where no fresh one is there. A load that fails stores
    nothing. -/
def load {ε : Type} (cache : Cache α) (now : Int) (key : Bytes) (loader : Unit → Except ε α) :
    Except ε α × Cache α :=
  match cache.lookup now key with
  | (some value, cache) => (.ok value, cache)
  | (none, cache) =>
    match loader () with
    | .error e => (.error e, cache)
    | .ok value => (.ok value, cache.store now key value)

/-- Drops every entry. The counts stay. -/
def clear (cache : Cache α) : Cache α := { cache with entries := [] }

/-- The number of entries, fresh or not. -/
def size (cache : Cache α) : Nat := cache.entries.length

end Cache

end ShellCompletion
