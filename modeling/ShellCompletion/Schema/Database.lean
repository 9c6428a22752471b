import ShellCompletion.Schema.Basic

/-!
# Databases of schemas

A database holds at most one schema for each command. The first one that is added stays.
-/
namespace ShellCompletion

/-- Schemas of distinct commands, in the order in which they were added. -/
structure Database where
  schemas : List Schema
  distinct : (schemas.map Schema.command).Nodup

namespace Database

def empty : Database := ⟨[], List.nodup_nil⟩

instance : Inhabited Database := ⟨empty⟩

/-- The schema of a command. -/
def find? (database : Database) (name : Bytes) : Option Schema :=
  database.schemas.find? (·.command = name)

def contains (database : Database) (name : Bytes) : Bool :=
  database.schemas.any (·.command = name)

/-- Adds a schema, unless its command has one already; says whether it was added. -/
def add (database : Database) (schema : Schema) : Bool × Database :=
  if known : schema.command ∈ database.schemas.map Schema.command then (false, database)
  else (true,
    { schemas := database.schemas ++ [schema]
      distinct := by
        rw [List.map_append, List.nodup_append]
        refine ⟨database.distinct, by simp, ?_⟩
        rintro a member b single rfl
        simp only [List.map_cons, List.map_nil, List.mem_singleton] at single
        exact known (single ▸ member) })

def addAll (database : Database) (schemas : List Schema) : Database :=
  schemas.foldl (fun database schema => (database.add schema).2) database

def size (database : Database) : Nat := database.schemas.length

/-- The names of the commands, sorted. -/
def names (database : Database) : List Bytes :=
  (database.schemas.map Schema.command).mergeSort Bytes.le

end Database

end ShellCompletion
