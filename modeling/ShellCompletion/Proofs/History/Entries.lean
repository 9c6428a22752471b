import Mathlib.Data.List.TakeWhile
import ShellCompletion.History
import ShellCompletion.Proofs.Ranking.Distinct

namespace ShellCompletion

theorem Bytes.trim_isEmpty (s : Bytes) : (Bytes.trim s).isEmpty = s.all Bytes.isBlank := by
  rw [Bool.eq_iff_iff, List.isEmpty_iff, Bytes.trim, List.reverse_eq_nil_iff, List.dropWhile_eq_nil_iff, List.all_eq_true]
  constructor
  · intro rest c member
    rw [← List.takeWhile_append_dropWhile (p := Bytes.isBlank) (l := s), List.mem_append] at member
    rcases member with blank | later
    · exact List.mem_takeWhile_imp blank
    · exact rest c (List.mem_reverse.mpr later)
  · exact fun blanks c member => blanks c ((List.dropWhile_sublist _).subset (List.mem_reverse.mp member))

section
variable {α β κ : Type} [DecidableEq κ] {keyOf : β → κ} {key : κ} {change : β → β} {new : β}

/-- Changes the first value of the key, or adds one at the end. -/
def upsert (keyOf : β → κ) (key : κ) (change : β → β) (new : β) : List β → List β
  | [] => [new]
  | value :: rest => if keyOf value = key then change value :: rest else value :: upsert keyOf key change new rest

theorem upsert_of_not_mem {values : List β} (fresh : key ∉ values.map keyOf) :
    upsert keyOf key change new values = values ++ [new] := by
  induction values with
  | nil => rfl
  | cons value rest ih =>
    rw [List.map_cons, List.mem_cons, not_or] at fresh
    rw [upsert, if_neg (Ne.symm fresh.1), ih fresh.2, List.cons_append]

theorem upsert_map {keys : List κ} {old changed : κ → β} (named : ∀ other, keyOf (old other) = other)
    (distinct : keys.Nodup) (known : key ∈ keys) (here : changed key = change (old key))
    (others : ∀ other, other ≠ key → changed other = old other) :
    upsert keyOf key change new (keys.map old) = keys.map changed := by
  induction keys with
  | nil => simp at known
  | cons first rest ih =>
    obtain ⟨apart, distinct⟩ := List.nodup_cons.mp distinct
    rw [List.map_cons, upsert, named, List.map_cons]
    by_cases same : first = key
    · subst same
      have kept : rest.map changed = rest.map old :=
        List.map_congr_left fun other member => others other fun same => apart (same ▸ member)
      rw [if_pos rfl, here, kept]
    · have later : key ∈ rest := (List.mem_cons.mp known).resolve_left (Ne.symm same)
      rw [if_neg same, others first same, ih distinct later]

/-- Items that are put in one after the other leave the values of their keys, in the order in which these occur
first. -/
theorem foldl_upsert [BEq κ] [LawfulBEq κ] (keyOf : β → κ) (itemKey : α → κ) (change : α → β → β) (new : α → β)
    (value : List α → κ → β) (named : ∀ items key, keyOf (value items key) = key)
    (other : ∀ items item key, key ≠ itemKey item → value (items ++ [item]) key = value items key)
    (again : ∀ items item, itemKey item ∈ items.map itemKey →
      value (items ++ [item]) (itemKey item) = change item (value items (itemKey item)))
    (first : ∀ items item, itemKey item ∉ items.map itemKey → value (items ++ [item]) (itemKey item) = new item)
    (items : List α) :
    items.foldl (fun values item => upsert keyOf (itemKey item) (change item) (new item) values) [] =
      (items.map itemKey).eraseDups.map (value items) := by
  induction items using List.reverseRecOn with
  | nil => rfl
  | append_singleton items item ih =>
    rw [List.foldl_append, ih, List.foldl_cons, List.foldl_nil, List.map_append, List.map_singleton, eraseDups_concat]
    by_cases known : itemKey item ∈ items.map itemKey
    · rw [if_pos known, List.append_nil]
      exact upsert_map (named items) (nodup_eraseDups _) (List.mem_eraseDups.mpr known) (again items item known)
        (other items item)
    · have fresh : itemKey item ∉ (items.map itemKey).eraseDups := mt List.mem_eraseDups.mp known
      have kept : (items.map itemKey).eraseDups.map (value (items ++ [item])) =
          (items.map itemKey).eraseDups.map (value items) :=
        List.map_congr_left fun key member => other items item key fun same => fresh (same ▸ member)
      have unnamed : itemKey item ∉ ((items.map itemKey).eraseDups.map (value items)).map keyOf := by
        simpa [named, Function.comp_def] using known
      rw [if_neg known, List.map_append, List.map_singleton, kept, first items item known, upsert_of_not_mem unnamed]

end

namespace History

/-- A run of a command. -/
structure Run where
  command : Bytes
  time : Int
deriving DecidableEq, Repr

/-- Adds runs one after the other. -/
def addAll (entries : List HistoryEntry) (runs : List Run) : List HistoryEntry :=
  runs.foldl (fun entries run => add run.command run.time entries) entries

/-- The times at which a command was run. -/
def timesOf (runs : List Run) (command : Bytes) : List Int := (runs.filter (·.command = command)).map Run.time

/-- The entry of a command that was run: how often, and the latest time. -/
def entryFor (runs : List Run) (command : Bytes) : HistoryEntry :=
  ⟨command, (timesOf runs command).length, (timesOf runs command).max?.getD 0⟩

variable {entries : List HistoryEntry} {runs : List Run} {run : Run} {command : Bytes} {time : Int}

theorem add_eq_modify (command : Bytes) (time : Int) (entries : List HistoryEntry) :
    add command time entries = match entries.findIdx? (·.command = command) with
      | none => entries ++ [⟨command, 1, time⟩]
      | some place => entries.modify place (·.again time) := by
  induction entries with
  | nil => rfl
  | cons entry rest ih =>
    rw [add, List.findIdx?_cons]
    by_cases same : entry.command = command
    · simp [same]
    · rw [if_neg same, ih, if_neg (by simpa using same)]
      cases rest.findIdx? (·.command = command) <;> rfl

theorem add_eq_upsert (command : Bytes) (time : Int) (entries : List HistoryEntry) :
    add command time entries = upsert HistoryEntry.command command (·.again time) ⟨command, 1, time⟩ entries := by
  induction entries with
  | nil => rfl
  | cons entry rest ih => rw [add, upsert, ih]

theorem timesOf_concat (runs : List Run) (run : Run) (command : Bytes) :
    timesOf (runs ++ [run]) command = timesOf runs command ++ if run.command = command then [run.time] else [] := by
  by_cases same : run.command = command <;> simp [timesOf, same]

theorem timesOf_eq_nil : timesOf runs command = [] ↔ command ∉ runs.map Run.command := by
  simp [timesOf, List.filter_eq_nil_iff]

theorem max?_concat {times : List Int} (nonempty : times ≠ []) (time : Int) :
    (times ++ [time]).max?.getD 0 = max (times.max?.getD 0) time := by
  cases times with
  | nil => exact absurd rfl nonempty
  | cons first rest =>
    rw [List.cons_append, List.max?_cons', List.max?_cons', List.foldl_append]
    rfl

theorem entryFor_concat_of_ne (other : command ≠ run.command) :
    entryFor (runs ++ [run]) command = entryFor runs command := by
  rw [entryFor, timesOf_concat, if_neg (Ne.symm other), List.append_nil, entryFor]

theorem entryFor_concat_of_mem (known : run.command ∈ runs.map Run.command) :
    entryFor (runs ++ [run]) run.command = (entryFor runs run.command).again run.time := by
  have nonempty := timesOf_eq_nil.not.mpr (not_not.mpr known)
  rw [entryFor, timesOf_concat, if_pos rfl, max?_concat nonempty, List.length_append]
  rfl

theorem entryFor_concat_of_not_mem (fresh : run.command ∉ runs.map Run.command) :
    entryFor (runs ++ [run]) run.command = ⟨run.command, 1, run.time⟩ := by
  rw [entryFor, timesOf_concat, if_pos rfl, timesOf_eq_nil.mpr fresh]
  rfl

theorem addAll_eq (runs : List Run) : addAll [] runs = (runs.map Run.command).eraseDups.map (entryFor runs) := by
  unfold addAll
  simp only [add_eq_upsert]
  exact foldl_upsert HistoryEntry.command Run.command (fun run entry => entry.again run.time)
    (fun run => ⟨run.command, 1, run.time⟩) entryFor (fun _ _ => rfl) (fun _ _ _ => entryFor_concat_of_ne)
    (fun _ _ => entryFor_concat_of_mem) (fun _ _ => entryFor_concat_of_not_mem) runs

/-- A further run of a command leaves the place of every entry as it is. -/
theorem findIdx?_modify (place : Nat) (time : Int) (command : Bytes) (entries : List HistoryEntry) :
    (entries.modify place (·.again time)).findIdx? (·.command = command) =
      entries.findIdx? (·.command = command) := by
  induction entries generalizing place with
  | nil => cases place <;> rfl
  | cons entry rest ih =>
    cases place with
    | zero => rfl
    | succ place => rw [List.modify_succ_cons, List.findIdx?_cons, List.findIdx?_cons, ih]

namespace Recording

variable {recording : Recording}

/-- The place that is kept for a command is that of its entry. -/
def Agrees (recording : Recording) : Prop :=
  ∀ command, recording.places.lookup command = recording.entries.findIdx? (·.command = command)

/-- What is recorded through the places is what is added without them. -/
theorem record_agrees (agrees : recording.Agrees) (command : Bytes) (time : Int) :
    (recording.record command time).Agrees ∧ (recording.record command time).entries =
      if (dropFinalLineFeeds command).all Bytes.isBlank then recording.entries
      else add (dropFinalLineFeeds command) time recording.entries := by
  rw [record, Bytes.trim_isEmpty, add_eq_modify, ← agrees]
  split_ifs with blank
  · exact ⟨agrees, rfl⟩
  · cases found : recording.places.lookup (dropFinalLineFeeds command) with
    | none =>
      refine ⟨fun other => ?_, rfl⟩
      dsimp only
      rw [List.lookup_cons, List.findIdx?_append, ← agrees]
      by_cases same : other = dropFinalLineFeeds command
      · simp [same, found]
      · have apart : (other == dropFinalLineFeeds command) = false := by simpa using same
        simp [apart, Ne.symm same]
    | some place => exact ⟨fun other => (agrees other).trans (findIdx?_modify place time other _).symm, rfl⟩

end Recording

end History

end ShellCompletion
