import ShellCompletion.Proofs.Cache.Entries
import ShellCompletion.Suggestion
import ShellCompletion.System.Tables

namespace ShellCompletion

/-- The action has one answer, whatever state of the kind it starts in, and leaves a state of the kind. It
    may depend on an index, its answer does not. -/
def Steady {ι σ α : Type} (kind : ι → σ → Prop) (action : ι → StateM σ α) : Prop :=
  ∃ answer, ∀ index state, kind index state →
    (action index state).1 = answer ∧ kind index (action index state).2

namespace Steady

variable {ι σ α β : Type} {kind : ι → σ → Prop} {action other : ι → StateM σ α}

theorem pure (answer : α) : Steady kind fun _ => Pure.pure answer := ⟨answer, fun _ _ is => ⟨rfl, is⟩⟩

theorem bind {next : ι → α → StateM σ β} (first : Steady kind action)
    (then_ : ∀ answer, Steady kind fun index => next index answer) :
    Steady kind fun index => action index >>= next index := by
  obtain ⟨middle, first⟩ := first
  obtain ⟨answer, then_⟩ := then_ middle
  refine ⟨answer, fun index state is => ?_⟩
  obtain ⟨answered, between⟩ := first index state is
  have last := then_ index _ between
  rw [← answered] at last
  exact last

theorem ite {condition : Prop} [Decidable condition] (yes : Steady kind action) (no : Steady kind other) :
    Steady kind fun index => if condition then action index else other index := by
  split
  · exact yes
  · exact no

/-- What an action learns of the state does not matter where it makes no difference in the kind. -/
theorem get_bind {next : ι → σ → StateM σ α}
    (same : ∀ index state, kind index state → next index state = other index) (steady : Steady kind other) :
    Steady kind fun index => get >>= next index := by
  obtain ⟨answer, steady⟩ := steady
  refine ⟨answer, fun index state is => ?_⟩
  have last := steady index state is
  rw [← same index state is] at last
  exact last

end Steady

/-- Every listing is what reading its directory gives. -/
def Listings.Faithful (reader : DirectoryReader) (listings : Listings) : Prop :=
  listings.cache.Holds fun directory entries => reader.read directory = .ok entries

/-- An action on the listings is steady where they are faithful. -/
def Listings.Reads {α : Type} (reader : DirectoryReader) (action : StateM Listings α) : Prop :=
  Steady (fun _ : Unit => Listings.Faithful reader) fun _ => action

namespace Listings.Reads

variable {α β : Type} {reader : DirectoryReader} {action other : StateM Listings α}

theorem pure (answer : α) : Reads reader (Pure.pure answer) := Steady.pure answer

theorem bind {next : α → StateM Listings β} (first : Reads reader action)
    (then_ : ∀ answer, Reads reader (next answer)) : Reads reader (action >>= next) := Steady.bind first then_

theorem list (reader : DirectoryReader) (now : Int) (directory : Directory) :
    Reads reader (Listings.list reader now directory) := by
  refine ⟨reader.read (directory.key reader.rootOf), fun _ listings faithful => ?_⟩
  obtain ⟨kept, found⟩ := Cache.Holds.lookup faithful now (directory.key reader.rootOf)
  unfold Listings.list
  dsimp only
  generalize listings.cache.lookup now (directory.key reader.rootOf) = out at kept found ⊢
  rcases out with ⟨_ | entries, after⟩
  · dsimp only
    cases result : reader.read (directory.key reader.rootOf) with
    | error e => exact ⟨rfl, kept⟩
    | ok entries => exact ⟨rfl, kept.store result now⟩
  · exact ⟨(found entries rfl).symm, kept⟩

end Listings.Reads

namespace Suggestion

open Listings (Reads)

variable (context : PathContext) (current token : Bytes)

theorem pathCandidates_reads (filter : PathFilter) :
    Reads context.reader (pathCandidates context filter current token) := by
  refine .bind (.list _ _ _) fun result => ?_
  cases result with
  | error e => exact .pure _
  | ok entries => exact .pure _

theorem listAll_reads (directories : List Bytes) : Reads context.reader (listAll context directories) := by
  induction directories with
  | nil => exact .pure []
  | cons directory rest ih => exact .bind (.list _ _ _) fun entries => .bind ih fun more => .pure _

theorem programCandidates_reads : Reads context.reader (programCandidates context current token) := by
  unfold programCandidates
  split
  · exact pathCandidates_reads context current token _
  · exact .bind (listAll_reads context _) fun found => .pure _

theorem valueCandidates_reads (filesWhenUntyped : Bool) (type : Option ValueType) :
    Reads context.reader (valueCandidates context filesWhenUntyped current token type) := by
  unfold valueCandidates
  split
  · split
    · exact pathCandidates_reads context current token _
    · exact .pure _
  · exact pathCandidates_reads context current token _
  · exact pathCandidates_reads context current token _
  · exact .pure _
  · exact programCandidates_reads context current token
  · exact programCandidates_reads context current token
  all_goals exact .pure _

theorem subcommandCandidates_reads (schema : Option Schema) (parsed : ParsedLine) :
    Reads context.reader (subcommandCandidates context schema current parsed) := by
  unfold subcommandCandidates
  dsimp only
  split
  · exact valueCandidates_reads context current parsed.current true none
  · split
    · exact .pure _
    · exact .bind (valueCandidates_reads context current parsed.current true _) fun values => .pure _

/-- The suggestions are the same from all listings that are what reading gives. -/
theorem candidates_reads (database : Option Database) (parsed : ParsedLine) :
    Reads context.reader (candidates context database current parsed) := by
  unfold candidates
  dsimp only
  split
  · exact .bind (programCandidates_reads context current parsed.current) fun programs => .pure _
  · exact subcommandCandidates_reads context current _ parsed
  · exact .pure _
  · exact .pure _
  · exact valueCandidates_reads context current parsed.current false _
  · exact valueCandidates_reads context current parsed.current true _

end Suggestion

namespace SystemFiles

/-- The accounts by the files of the system. -/
def users (files : SystemFiles) : Except FileError (List User) :=
  (files.tree.read [] (Path.append files.root (utf8 "etc/passwd"))).map usersOf

/-- The groups by the files of the system. -/
def groups (files : SystemFiles) : Except FileError (List Group) :=
  (files.tree.read [] (Path.append files.root (utf8 "etc/group"))).map groupsOf

def interfaces (files : SystemFiles) : Except FileError (List Interface) := Interface.all files.tree files.root

def processes (files : SystemFiles) : Except FileError (List ProcessEntry) := ProcessEntry.all files.tree files.root

end SystemFiles

namespace SystemTables

/-- Every table is what the files of the system give. -/
structure Faithful (files : SystemFiles) (tables : SystemTables) : Prop where
  users : tables.users.Holds fun _ users => files.users = .ok users
  groups : tables.groups.Holds fun _ groups => files.groups = .ok groups
  interfaces : tables.interfaces.Holds fun _ interfaces => files.interfaces = .ok interfaces
  processes : tables.processes.Holds fun _ processes => files.processes = .ok processes

/-- An action on the tables is steady where they are faithful. -/
def Reads {α : Type} (files : SystemFiles) (action : StateM SystemTables α) : Prop :=
  Steady (fun _ : Unit => Faithful files) fun _ => action

variable (settings : Settings) (files : SystemFiles) (now : Int) (token : Bytes)

theorem load_reads {ε α : Type} {given : Except ε α} (table : SystemTables → Cache α)
    (keep : SystemTables → Cache α → SystemTables) (key : Bytes) (made : Except ε α → List Candidate)
    (holds : ∀ tables, Faithful files tables → (table tables).Holds fun _ value => given = .ok value)
    (keeps : ∀ tables loaded, Faithful files tables → (loaded.Holds fun _ value => given = .ok value) →
      Faithful files (keep tables loaded)) :
    Reads files fun tables =>
      let loaded := (table tables).load now key fun _ => given
      (made loaded.1, keep tables loaded.2) := by
  refine ⟨made given, fun _ tables faithful => ?_⟩
  obtain ⟨loaded, kept⟩ := (holds tables faithful).load now key
  exact ⟨congrArg made loaded, keeps tables _ faithful kept⟩

theorem userCandidates_reads : Reads files (userCandidates settings files now token) :=
  load_reads files now users (fun tables users => { tables with users }) (utf8 "passwd")
    (fun users => ShellCompletion.userCandidates settings.includeSystemUsers token (rows users))
    (fun _ faithful => faithful.users) (fun _ _ faithful users => { faithful with users })

theorem groupCandidates_reads : Reads files (groupCandidates files now token) :=
  load_reads files now groups (fun tables groups => { tables with groups }) (utf8 "group")
    (fun groups => ShellCompletion.groupCandidates token (rows groups))
    (fun _ faithful => faithful.groups) (fun _ _ faithful groups => { faithful with groups })

theorem interfaceCandidates_reads : Reads files (interfaceCandidates settings files now token) :=
  load_reads files now interfaces (fun tables interfaces => { tables with interfaces }) (utf8 "net")
    (fun interfaces => Interface.candidates settings token (rows interfaces))
    (fun _ faithful => faithful.interfaces) (fun _ _ faithful interfaces => { faithful with interfaces })

theorem processCandidates_reads : Reads files (processCandidates settings files now token) :=
  load_reads files now processes (fun tables processes => { tables with processes }) (utf8 "proc")
    (fun processes => ProcessEntry.candidates settings token (rows processes))
    (fun _ faithful => faithful.processes) (fun _ _ faithful processes => { faithful with processes })

end SystemTables

end ShellCompletion
