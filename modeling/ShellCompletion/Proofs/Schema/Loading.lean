import Mathlib.Data.List.Induction
import Mathlib.Data.List.Nodup
import Mathlib.Tactic.SplitIfs
import ShellCompletion.Proofs.Schema.Checked
import ShellCompletion.Schema.Loader

/-!
# What a load registers

A load goes through submissions, each of which is the schema of an accepted document or what is said about a
refused one. What it has registered and counted after some of them is determined by those alone (`Load.Reports`,
`Load.all_reports`): of the accepted schemas of a command the first stays, and each refusal is reported in its turn.
A refused document enters into nothing but the report of refusals (`Load.foldl_accepted`).
-/
namespace ShellCompletion

namespace Database

theorem find?_command {database : Database} {name : Bytes} {schema : Schema}
    (found : database.find? name = some schema) : schema ∈ database.schemas ∧ schema.command = name :=
  ⟨List.mem_of_find?_eq_some found, by simpa using List.find?_some found⟩

theorem mem_commands_iff {database : Database} {name : Bytes} :
    name ∈ database.schemas.map Schema.command ↔ (database.find? name).isSome := by
  simp [find?, List.find?_isSome]

theorem mem_schemas_iff {database : Database} {schema : Schema} :
    schema ∈ database.schemas ↔ database.find? schema.command = some schema := by
  constructor
  · intro member
    have named : schema.command ∈ database.schemas.map Schema.command := List.mem_map_of_mem member
    obtain ⟨other, found⟩ := Option.isSome_iff_exists.mp (mem_commands_iff.mp named)
    obtain ⟨listed, same⟩ := find?_command found
    rw [found, List.inj_on_of_nodup_map database.distinct listed member same]
  · exact fun found => (find?_command found).1

/-- The outcomes of adding a schema: its command has one already, or the schema joins the others. -/
theorem add_cases (database : Database) (schema : Schema) :
    ((database.find? schema.command).isSome ∧ database.add schema = (false, database)) ∨
      (database.find? schema.command = none ∧ ∃ next : Database, database.add schema = (true, next) ∧
        next.schemas = database.schemas ++ [schema]) := by
  unfold add
  split_ifs with known
  · exact .inl ⟨mem_commands_iff.mp known, rfl⟩
  · refine .inr ⟨?_, _, rfl, rfl⟩
    rwa [mem_commands_iff, Option.not_isSome_iff_eq_none] at known

theorem find?_add (database : Database) (schema : Schema) (name : Bytes) :
    (database.add schema).2.find? name = (database.find? name).or ([schema].find? (·.command = name)) := by
  rcases database.add_cases schema with ⟨known, added⟩ | ⟨_, next, added, schemas⟩
  · rw [added]
    by_cases named : schema.command = name
    · obtain ⟨earlier, found⟩ := Option.isSome_iff_exists.mp (named ▸ known)
      simp [found]
    · simp [named]
  · rw [added, find?, schemas, List.find?_append]
    rfl

end Database

theorem submission_eq_ok_iff {library : JsonLibrary} {source text : Bytes} {schema : Schema} :
    submission library source text = .ok schema ↔ Schema.ofText library text = .ok schema := mapError_eq_ok_iff

/-- The schemas of the accepted documents, in order. -/
def accepted (submissions : List Submission) : List Schema := submissions.filterMap Except.toOption

/-- What is said about the refused documents, in order. -/
def refusals (submissions : List Submission) : List Bytes :=
  submissions.filterMap fun
    | .error message => some message
    | .ok _ => none

@[simp] theorem accepted_concat_error (before : List Submission) (message : Bytes) :
    accepted (before ++ [.error message]) = accepted before := by
  simp [accepted, Except.toOption]

@[simp] theorem accepted_concat_ok (before : List Submission) (schema : Schema) :
    accepted (before ++ [.ok schema]) = accepted before ++ [schema] := by
  simp [accepted, Except.toOption]

@[simp] theorem refusals_concat_error (before : List Submission) (message : Bytes) :
    refusals (before ++ [.error message]) = refusals before ++ [message] := by
  simp [refusals]

@[simp] theorem refusals_concat_ok (before : List Submission) (schema : Schema) :
    refusals (before ++ [.ok schema]) = refusals before := by
  simp [refusals]

theorem mem_accepted {submissions : List Submission} {schema : Schema} :
    schema ∈ accepted submissions ↔ .ok schema ∈ submissions := by
  simp only [accepted, List.mem_filterMap]
  constructor
  · rintro ⟨submission, member, same⟩
    cases submission with
    | error message => exact nomatch same
    | ok other => exact (Option.some.inj same) ▸ member
  · exact fun member => ⟨.ok schema, member, rfl⟩

namespace Load

/-- What a load has done after the documents that it has seen. -/
structure Reports (load : Load) (seen : List Submission) : Prop where
  /-- The schema of a command is the first accepted one. -/
  found : ∀ name, load.database.find? name = (accepted seen).find? (·.command = name)
  size : load.database.size = load.loaded
  total : load.loaded + load.rejected + load.shadowed = seen.length
  errors : load.errors = refusals seen
  rejected : load.rejected = load.errors.length

variable {load other : Load} {seen : List Submission}

theorem Reports.mem_schemas_iff (reports : load.Reports seen) {schema : Schema} :
    schema ∈ load.database.schemas ↔ (accepted seen).find? (·.command = schema.command) = some schema := by
  rw [Database.mem_schemas_iff, reports.found]

theorem Reports.step (reports : load.Reports seen) (submission : Submission) :
    (load.step submission).Reports (seen ++ [submission]) := by
  obtain ⟨found, size, total, errors, rejected⟩ := reports
  cases submission with
  | error message =>
    refine ⟨by simpa [Load.step] using found, size, ?_, by simp [Load.step, errors], by simp [Load.step, rejected]⟩
    simp only [Load.step, List.length_append, List.length_singleton]
    omega
  | ok schema =>
    have after : ∀ name, (load.database.add schema).2.find? name =
        (accepted (seen ++ [.ok schema])).find? (·.command = name) := fun name => by
      rw [Database.find?_add, found, accepted_concat_ok, List.find?_append]
    rcases load.database.add_cases schema with ⟨_, added⟩ | ⟨_, next, added, schemas⟩
    · rw [added] at after
      refine ⟨by simpa [Load.step, added] using after, by simpa [Load.step, added] using size, ?_,
        by simpa [Load.step, added] using errors, by simpa [Load.step, added] using rejected⟩
      simp only [Load.step, added, List.length_append, List.length_singleton]
      omega
    · rw [added] at after
      refine ⟨by simpa [Load.step, added] using after, ?_, ?_, by simpa [Load.step, added] using errors,
        by simpa [Load.step, added] using rejected⟩
      · rw [Database.size] at size
        simp [Load.step, added, Database.size, schemas, size]
      · simp only [Load.step, added, List.length_append, List.length_singleton]
        omega

theorem all_reports (submissions : List Submission) : (all submissions).Reports submissions := by
  induction submissions using List.reverseRecOn with
  | nil => exact ⟨fun _ => rfl, rfl, rfl, rfl, rfl⟩
  | append_singleton before submission ih =>
    rw [all, List.foldl_append]
    exact ih.step submission

theorem mem_submissions {submissions : List Submission} {schema : Schema}
    (member : schema ∈ (all submissions).database.schemas) : .ok schema ∈ submissions :=
  mem_accepted.mp (List.mem_of_find?_eq_some ((all_reports submissions).mem_schemas_iff.mp member))

/-- Two loads have registered and shadowed the same. -/
structure Agrees (load other : Load) : Prop where
  database : load.database = other.database
  loaded : load.loaded = other.loaded
  shadowed : load.shadowed = other.shadowed

theorem Agrees.refl (load : Load) : load.Agrees load := ⟨rfl, rfl, rfl⟩

theorem Agrees.step (agrees : load.Agrees other) (schema : Schema) :
    (load.step (.ok schema)).Agrees (other.step (.ok schema)) := by
  obtain ⟨database, loaded, shadowed⟩ := agrees
  simp only [Load.step, database]
  split
  · exact ⟨rfl, by simp [loaded], shadowed⟩
  · exact ⟨rfl, loaded, by simp [shadowed]⟩

/-- A load registers what it would if only the accepted documents were there. -/
theorem foldl_accepted (agrees : load.Agrees other) (submissions : List Submission) :
    (submissions.foldl Load.step load).Agrees (((accepted submissions).map .ok).foldl Load.step other) := by
  induction submissions generalizing load other with
  | nil => exact agrees
  | cons submission rest ih =>
    cases submission with
    | error message => exact ih ⟨agrees.database, agrees.loaded, agrees.shadowed⟩
    | ok schema => exact ih (agrees.step schema)

theorem all_agrees {submissions fewer : List Submission} (same : accepted fewer = accepted submissions) :
    (all fewer).Agrees (all submissions) := by
  obtain ⟨database, loaded, shadowed⟩ := foldl_accepted (.refl {}) submissions
  obtain ⟨database', loaded', shadowed'⟩ := foldl_accepted (.refl {}) fewer
  rw [same] at database' loaded' shadowed'
  exact ⟨database'.trans database.symm, loaded'.trans loaded.symm, shadowed'.trans shadowed.symm⟩

end Load

namespace Bytes

theorem le_total : ∀ s t : Bytes, (le s t || le t s) = true
  | [], _ => rfl
  | _ :: _, [] => rfl
  | a :: s, b :: t => by
    have rest := le_total s t
    simp only [le, Bool.or_eq_true, Bool.and_eq_true, decide_eq_true_eq, beq_iff_eq] at rest ⊢
    rcases Nat.lt_trichotomy a.toNat b.toNat with less | same | more
    · exact .inl (.inl less)
    · have same := UInt8.toNat_inj.mp same
      exact rest.imp (fun le => .inr ⟨same, le⟩) (fun le => .inr ⟨same.symm, le⟩)
    · exact .inr (.inl more)

theorem le_trans : ∀ s t u : Bytes, le s t → le t u → le s u
  | [], _, _, _, _ => rfl
  | _ :: _, [], _, first, _ => nomatch first
  | _ :: _, _ :: _, [], _, second => nomatch second
  | a :: s, b :: t, c :: u, first, second => by
    simp only [le, Bool.or_eq_true, Bool.and_eq_true, decide_eq_true_eq, beq_iff_eq] at first second ⊢
    rcases first with first | ⟨rfl, first⟩
    · rcases second with second | ⟨rfl, _⟩
      · exact .inl (UInt8.lt_trans first second)
      · exact .inl first
    · exact second.imp id fun ⟨same, second⟩ => ⟨same, le_trans s t u first second⟩

end Bytes

namespace FileTree

variable {tree : FileTree} {base directory : Bytes} {entries : List Entry}

theorem list_sorted (listed : tree.list base directory = .ok entries) :
    (entries.map Entry.name).Pairwise (fun name later => Bytes.le name later) := by
  unfold list at listed
  split at listed
  · exact nomatch listed
  · split_ifs at listed with found
    obtain rfl := Except.ok.inj listed
    rw [List.map_map]
    exact (List.map_id _).symm ▸ List.pairwise_mergeSort Bytes.le_trans Bytes.le_total _

/-- The documents of a directory are its entries that are named like one, sorted by name. -/
theorem documentsIn_sorted (listed : tree.list base directory = .ok entries) :
    ∃ names : List Bytes, tree.documentsIn base directory = names.map (Path.append directory) ∧
      names.Pairwise (fun name later => Bytes.le name later) ∧
      ∀ name, name ∈ names ↔ (∃ entry ∈ entries, entry.name = name) ∧ Path.hasExtension (utf8 ".json") name :=
  ⟨(entries.map Entry.name).filter (Path.hasExtension (utf8 ".json")), by rw [documentsIn, listed],
    (list_sorted listed).filter _, fun name => by simp⟩

theorem submissionAt_eq_ok_iff {library : JsonLibrary} {path : Bytes} {schema : Schema} :
    tree.submissionAt library base path = .ok schema ↔
      ∃ text, tree.read base path = .ok text ∧ Schema.ofText library text = .ok schema := by
  unfold submissionAt
  cases tree.read base path with
  | error fault => simp
  | ok text => simp [submission_eq_ok_iff]

end FileTree

end ShellCompletion
