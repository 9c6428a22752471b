import Mathlib.Algebra.Order.Ring.Nat
import Mathlib.Data.List.Forall2
import Mathlib.Tactic.SplitIfs
import ShellCompletion.System.Accounts

namespace ShellCompletion

/-- What is kept of a list and what it is turned into correspond one to one. -/
theorem forall₂_filterMap {α β : Type} {related : α → β → Prop} {keep : α → Prop} [DecidablePred keep]
    {f : α → Option β} (kept : ∀ a, keep a → ∃ b, f a = some b ∧ related a b) (left : ∀ a, ¬ keep a → f a = none)
    (list : List α) : List.Forall₂ related (list.filter keep) (list.filterMap f) := by
  induction list with
  | nil => exact .nil
  | cons a rest ih =>
    by_cases holds : keep a
    · obtain ⟨b, same, agrees⟩ := kept a holds
      rw [List.filter_cons_of_pos (by simpa using holds), List.filterMap_cons_some same]
      exact .cons agrees ih
    · rw [List.filter_cons_of_neg (by simpa using holds), List.filterMap_cons_none (left a holds)]
      exact ih

namespace Account

variable {line : Bytes}

/-- What stands between the colons of a line, by its place; nothing where there are fewer. -/
def field (place : Nat) (line : Bytes) : Bytes := ((Bytes.fields ':'.toUInt8 line)[place]?).getD []

/-- The number that the third field denotes. -/
def number (line : Bytes) : Nat := Bytes.digitsValue (field 2 line)

/-- The line lists an account: it is no comment, and has a name in the first of at least three fields and digits
alone in the third. -/
structure IsListed (line : Bytes) : Prop where
  plain : line.head? ≠ some '#'.toUInt8
  long : 3 ≤ (Bytes.fields ':'.toUInt8 line).length
  named : field 0 line ≠ []
  numbered : Bytes.allDigits (field 2 line)

instance (line : Bytes) : Decidable (IsListed line) :=
  decidable_of_iff (line.head? ≠ some '#'.toUInt8 ∧ 3 ≤ (Bytes.fields ':'.toUInt8 line).length ∧
      field 0 line ≠ [] ∧ Bytes.allDigits (field 2 line))
    ⟨fun ⟨plain, long, named, numbered⟩ => ⟨plain, long, named, numbered⟩,
      fun ⟨plain, long, named, numbered⟩ => ⟨plain, long, named, numbered⟩⟩

/-- The lines of an account file that list accounts. -/
def listed (content : Bytes) : List Bytes := (Bytes.lines content).filter (IsListed ·)

/-- An account has a number of its own exactly if that fits 32 bits. Of one with up to 64 bits the lowest 32 are taken,
and a longer one counts as the largest of 64 bits. -/
structure Keeps (number : Nat) (id : UInt32) : Prop where
  own : id.toNat = number ↔ number < 2 ^ 32
  other : 2 ^ 32 ≤ number → id.toNat = if number < 2 ^ 64 then number % 2 ^ 32 else 2 ^ 32 - 1

theorem line?_of_listed (account : IsListed line) :
    line? line = some (field 0 line, min (number line) Word64.maxUnsigned, Bytes.fields ':'.toUInt8 line) := by
  obtain ⟨plain, long, named, numbered⟩ := account
  have typed : line ≠ [] := by
    rintro rfl
    exact absurd long (by decide)
  unfold number
  unfold field at named numbered ⊢
  match split : Bytes.fields ':'.toUInt8 line with
  | [] | [_] | [_, _] =>
    rw [split] at long
    simp at long
  | name :: second :: number :: more =>
    rw [split] at named numbered
    have digits : Bytes.allDigits number := numbered
    have nonempty : name ≠ [] := named
    simp [line?, typed, plain, split, nonempty, number?, digits]

theorem line?_of_not_listed (other : ¬ IsListed line) : line? line = none := by
  unfold line?
  split_ifs with skipped
  · rfl
  · split
    next name second number more split =>
      simp only [Bool.or_eq_true, not_or, beq_iff_eq] at skipped
      by_cases named : name.isEmpty
      · rw [if_pos named]
      · rw [if_neg named, number?, if_neg, Option.map_none]
        intro digits
        refine other ⟨skipped.2, by simp [split], ?_, ?_⟩
        · simpa [field, split] using named
        · simpa [field, split] using digits
    next => rfl

theorem keeps_ofNat_min (number : Nat) : Keeps number (UInt32.ofNat (min number Word64.maxUnsigned)) := by
  have largest : Word64.maxUnsigned = 2 ^ 64 - 1 := rfl
  by_cases fits : number < 2 ^ 64
  · have word : (UInt32.ofNat number).toNat = number % 2 ^ 32 := UInt32.toNat_ofNat'
    rw [Nat.min_eq_left (by omega)]
    refine ⟨?_, fun _ => by rw [if_pos fits, word]⟩
    rw [word]
    omega
  · have word : (UInt32.ofNat (2 ^ 64 - 1)).toNat = 2 ^ 32 - 1 := rfl
    rw [Nat.min_eq_right (by omega), largest]
    refine ⟨?_, fun _ => by rw [if_neg fits, word]⟩
    rw [word]
    omega

end Account

open Account (field listed Keeps)

/-- The accounts of a file are those of the lines that list one, in order, each with the name of its line. It has the
number of its line if that is below the 32nd power of two, and another one if it is not. -/
theorem accounts_numbered (content : Bytes) :
    List.Forall₂ (fun line user => user.name = field 0 line ∧
        user.fullName = Bytes.before ','.toUInt8 (field 4 line) ∧ Keeps (Account.number line) user.uid)
      (listed content) (usersOf content) ∧
    List.Forall₂ (fun line group => group.name = field 0 line ∧ Keeps (Account.number line) group.gid)
      (listed content) (groupsOf content) := by
  refine ⟨forall₂_filterMap ?_ ?_ _, forall₂_filterMap ?_ ?_ _⟩
  · intro line account
    rw [Account.line?_of_listed account]
    exact ⟨_, rfl, rfl, rfl, Account.keeps_ofNat_min _⟩
  · intro line other
    rw [Account.line?_of_not_listed other]
    rfl
  · intro line account
    rw [Account.line?_of_listed account]
    exact ⟨_, rfl, rfl, Account.keeps_ofNat_min _⟩
  · intro line other
    rw [Account.line?_of_not_listed other]
    rfl

/-- A number that does not fit becomes the one of `root`. -/
theorem account_number_wraps :
    ¬ ∀ (content : Bytes), ∀ user ∈ usersOf content,
      ∃ line ∈ listed content, user.name = field 0 line ∧ user.uid.toNat = Account.number line := by
  intro unaltered
  have backup : ⟨utf8 "backup", 0, []⟩ ∈ usersOf (utf8 "backup:x:4294967296:") := by decide +kernel
  obtain ⟨line, member, _, same⟩ := unaltered _ _ backup
  have only : listed (utf8 "backup:x:4294967296:") = [utf8 "backup:x:4294967296:"] := by decide +kernel
  rw [only] at member
  obtain rfl := List.mem_singleton.mp member
  exact absurd same (by decide +kernel)

end ShellCompletion
