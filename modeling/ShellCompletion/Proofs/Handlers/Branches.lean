import ShellCompletion.Proofs.Ranking.FirstTexts
import ShellCompletion.Proofs.Requests.Transparency

/-!
# Branches that go on from what has been typed

Where branches are listed by how their names start (`Handler.ListsBranches`), as they are by an engine in a world whose
commands do so (`Engine.ask_listsBranches`), those that are offered begin as typed, and a local branch is offered under
its name, or with the remote in front where the remote has been typed: `Handler.candidates_branch`. It is otherwise with
a local branch whose name starts with that of the remote and a slash, since it passes for a branch of the remote
(`Handler.candidates_branch_origin`).
-/
namespace ShellCompletion

namespace Handler

/-! ## Lists of branches -/

/-- What is run for the local branches whose names start as given. -/
def localQuery (start : Bytes) : List Bytes :=
  [utf8 "git", utf8 "branch", utf8 "--format=%(refname:short)", utf8 "--list", start ++ utf8 "*"]

/-- What is run for the branches of remotes whose names start as given. -/
def remoteQuery (start : Bytes) : List Bytes :=
  [utf8 "git", utf8 "branch", utf8 "-r", utf8 "--format=%(refname:short)", utf8 "--list", start ++ utf8 "*"]

/-- What is run for the remotes. -/
def remotesQuery : List Bytes := [utf8 "git", utf8 "remote"]

/-- In states of a kind, which asking does not leave, the branches that are listed have names that start as given. -/
structure ListsBranches {σ : Type} (kind : σ → Prop) (ask : List Bytes → StateM σ (List Bytes)) : Prop where
  stays : ∀ words, IsQuery words → ∀ state, kind state → kind (ask words state).2
  locals : ∀ start state, kind state → ∀ name ∈ (ask (localQuery start) state).1, start <+: name
  remotes : ∀ start state, kind state → ∀ name ∈ (ask (remoteQuery start) state).1, start <+: name

theorem localQuery_isQuery (start : Bytes) : IsQuery (localQuery start) :=
  .concat [utf8 "git", utf8 "branch", utf8 "--format=%(refname:short)", utf8 "--list"] (by decide) _

theorem remoteQuery_isQuery (start : Bytes) : IsQuery (remoteQuery start) :=
  .concat [utf8 "git", utf8 "branch", utf8 "-r", utf8 "--format=%(refname:short)", utf8 "--list"] (by decide) _

theorem remotesQuery_isQuery : IsQuery remotesQuery := .alone (by decide)

theorem localQuery_inj {start other : Bytes} : localQuery start = localQuery other ↔ start = other := by
  simp [localQuery]

theorem remoteQuery_inj {start other : Bytes} : remoteQuery start = remoteQuery other ↔ start = other := by
  simp [remoteQuery]

theorem remoteQuery_ne_localQuery (start other : Bytes) : remoteQuery start ≠ localQuery other := by
  simp [remoteQuery, localQuery]

theorem localQuery_ne_remotesQuery (start : Bytes) : localQuery start ≠ remotesQuery := by
  simp [localQuery, remotesQuery]

theorem remoteQuery_ne_remotesQuery (start : Bytes) : remoteQuery start ≠ remotesQuery := by
  simp [remoteQuery, remotesQuery]

end Handler

namespace Engine

open Handler (ListsBranches localQuery remoteQuery localQuery_isQuery remoteQuery_isQuery outputLines)

variable {world : World} {directory : Bytes}

/-- The commands that list branches print, if they succeed, names that start as given. -/
def PrintsBranches (runner : CommandRunner) : Prop :=
  ∀ start directory timeout output, runner ⟨localQuery start, directory, timeout⟩ = .ok output ∨
    runner ⟨remoteQuery start, directory, timeout⟩ = .ok output → ∀ name ∈ outputLines output, start <+: name

theorem ask_fst {words : List Bytes} {number : Nat} {engine : Engine} (answer : Arrival → StateM Engine Completion)
    (free : 0x1f ∉ directory) (query : Handler.IsQuery words) (serves : engine.Serves world number) :
    (ask world answer directory words engine).1 =
      ((world.runner ⟨words, directory, world.settings.subprocessTimeout⟩).toOption.map outputLines).getD [] := by
  let fresh : Engine := { requests := { started := number + 1 } }
  have servesFresh : fresh.Serves world number :=
    { isFree_new world with latest := nofun, begun := Nat.lt_succ_self number }
  obtain ⟨given, steady⟩ := ask_steady world answer free query
  rw [(steady number engine serves).1, ← (steady number fresh servesFresh).1]
  have missed : fresh.outputs.lookup world.now (outputKey words directory) =
      (none, (fresh.outputs.lookup world.now (outputKey words directory)).2) := rfl
  change ((output world answer directory words fresh).1.map outputLines).getD [] = _
  rw [output_of_quiet answer rfl missed]
  cases world.runner ⟨words, directory, world.settings.subprocessTimeout⟩ <;> rfl

/-- Where the commands print such names, an engine lists branches by how their names start. -/
theorem ask_listsBranches (prints : PrintsBranches world.runner) (answer : Arrival → StateM Engine Completion)
    (free : 0x1f ∉ directory) (number : Nat) : ListsBranches (Serves world number) (ask world answer directory) := by
  have printed : ∀ words, Handler.IsQuery words → ∀ start, words = localQuery start ∨ words = remoteQuery start →
      ∀ engine, Serves world number engine → ∀ name ∈ (ask world answer directory words engine).1, start <+: name := by
    intro words query start which engine serves name member
    rw [ask_fst answer free query serves] at member
    cases ran : world.runner ⟨words, directory, world.settings.subprocessTimeout⟩ with
    | error e =>
      rw [ran] at member
      exact absurd member List.not_mem_nil
    | ok output =>
      rw [ran] at member
      refine prints start directory world.settings.subprocessTimeout output ?_ name member
      rcases which with rfl | rfl
      · exact .inl ran
      · exact .inr ran
  refine ⟨fun words query engine serves => ?_, fun start => printed _ (localQuery_isQuery start) start (.inl rfl),
    fun start => printed _ (remoteQuery_isQuery start) start (.inr rfl)⟩
  obtain ⟨_, steady⟩ := ask_steady world answer free query
  exact (steady number engine serves).2

end Engine

namespace Handler

/-! ## Names after a remote -/

def localBranch (name : Bytes) : Candidate := .of .argument name (some (utf8 "local branch"))

def remoteBranch (name : Bytes) : Candidate := .of .argument name (some (utf8 "remote branch"))

/-- What has been typed of a branch's name, without the remote and the slash in front of it. -/
def nameTyped (remote token : Bytes) : Bytes :=
  if remote ++ utf8 "/" <+: token then token.drop (remote ++ utf8 "/").length else token

/-- A name as it is typed: after the remote and a slash if the token has them. -/
def typedAfter (remote token name : Bytes) : Bytes :=
  if remote ++ utf8 "/" <+: token then remote ++ utf8 "/" ++ name else name

variable {remote token name : Bytes} {category : Category} {description : Option Bytes}

theorem prefix_typedAfter_iff : token <+: typedAfter remote token name ↔ nameTyped remote token <+: name := by
  unfold typedAfter nameTyped
  split_ifs with qualified
  · obtain ⟨rest, rfl⟩ := qualified
    rw [List.drop_left, List.prefix_append_right_inj]
  · rfl

/-- The remote in front of a name is not counted as a part of it. -/
theorem asTyped_append (remote token name : Bytes) :
    asTyped (remote ++ utf8 "/") ((remote ++ utf8 "/").isPrefixOf token)
        (.of category (remote ++ utf8 "/" ++ name) description) =
      .of category (typedAfter remote token name) description := by
  have fromRemote : (remote ++ utf8 "/").isPrefixOf (remote ++ utf8 "/" ++ name) = true :=
    List.isPrefixOf_iff_prefix.mpr (List.prefix_append _ _)
  unfold asTyped typedAfter Candidate.of
  simp only [← List.isPrefixOf_iff_prefix, fromRemote]
  cases (remote ++ utf8 "/").isPrefixOf token <;> simp

theorem asTyped_of_not_prefix (other : ¬ remote ++ utf8 "/" <+: name) :
    asTyped (remote ++ utf8 "/") ((remote ++ utf8 "/").isPrefixOf token) (.of category name description) =
      .of category (typedAfter remote token name) description := by
  have notFromRemote : (remote ++ utf8 "/").isPrefixOf name = false := by
    rwa [← Bool.not_eq_true, List.isPrefixOf_iff_prefix]
  unfold asTyped typedAfter Candidate.of
  simp only [← List.isPrefixOf_iff_prefix, notFromRemote]
  cases (remote ++ utf8 "/").isPrefixOf token <;> simp

/-! ## What is offered -/

section
variable {σ : Type} {kind : σ → Prop} {ask : List Bytes → StateM σ (List Bytes)} {state : σ} {settings : Settings}
  {action : Bytes} {candidate : Candidate}

theorem mem_branches {localStart remoteStart : Bytes} :
    candidate ∈ (branches ask localStart remoteStart state).1 ↔
      (∃ name ∈ (ask (localQuery localStart) state).1, candidate = localBranch name) ∨
      ∃ name ∈ (ask (remoteQuery remoteStart) (ask (localQuery localStart) state).2).1,
        isRemoteBranch name ∧ candidate = remoteBranch name := by
  have found : (branches ask localStart remoteStart state).1 =
      (ask (localQuery localStart) state).1.map localBranch ++
        ((ask (remoteQuery remoteStart) (ask (localQuery localStart) state).2).1.filter isRemoteBranch).map
          remoteBranch := rfl
  simp only [found, List.mem_append, List.mem_map, List.mem_filter, and_assoc, eq_comm]

theorem branchCandidates_own (other : action ∉ remoteActions) (token : Bytes) :
    branchCandidates ask settings token [action] state = branches ask token token state := by
  have local_ : remoteActions.contains action = false := by simpa using other
  unfold branchCandidates
  simp only [local_]
  rfl

theorem branchCandidates_remote (remotely : action ∈ remoteActions) (listed : remote ∈ (ask remotesQuery state).1)
    (token : Bytes) :
    (branchCandidates ask settings token [action, remote] state).1 =
      distinctTexts ((branches ask (nameTyped remote token) (remote ++ utf8 "/" ++ nameTyped remote token)
        (ask remotesQuery state).2).1.map (asTyped (remote ++ utf8 "/") ((remote ++ utf8 "/").isPrefixOf token))) := by
  have remotely_ : remoteActions.contains action = true := by simpa using remotely
  have listed_ : (ask remotesQuery state).1.contains remote = true := by simpa using listed
  have typed : nameTyped remote token = if (remote ++ utf8 "/").isPrefixOf token then
      token.drop (remote ++ utf8 "/").length else token := by
    simp only [nameTyped, List.isPrefixOf_iff_prefix]
  unfold branchCandidates
  simp only [remotely_, typed]
  change ((if !(ask remotesQuery state).1.contains remote then _ else _ : StateM σ (List Candidate))
    (ask remotesQuery state).2).1 = _
  rw [listed_]
  rfl

/-- After a remote, what is found is a local branch, a branch of the remote, or a local branch that is taken for one of
the remote. -/
theorem mem_branches_typed (lists : ListsBranches kind ask) (right : kind state)
    (member : candidate ∈ (branches ask (nameTyped remote token) (remote ++ utf8 "/" ++ nameTyped remote token)
      state).1.map (asTyped (remote ++ utf8 "/") ((remote ++ utf8 "/").isPrefixOf token))) :
    let locals := ask (localQuery (nameTyped remote token)) state
    let remotes := ask (remoteQuery (remote ++ utf8 "/" ++ nameTyped remote token)) locals.2
    (∃ name ∈ locals.1, ¬ remote ++ utf8 "/" <+: name ∧ candidate = localBranch (typedAfter remote token name) ∧
        token <+: candidate.text) ∨
      (∃ name, remote ++ utf8 "/" ++ name ∈ remotes.1 ∧ candidate = remoteBranch (typedAfter remote token name) ∧
        token <+: candidate.text) ∨
      ∃ name, remote ++ utf8 "/" ++ name ∈ locals.1 ∧ candidate = localBranch (typedAfter remote token name) := by
  intro locals remotes
  obtain ⟨found, listed, rfl⟩ := List.mem_map.mp member
  rcases mem_branches.mp listed with ⟨name, known, rfl⟩ | ⟨name, known, _, rfl⟩
  · by_cases fromRemote : remote ++ utf8 "/" <+: name
    · obtain ⟨rest, rfl⟩ := fromRemote
      exact .inr (.inr ⟨rest, known, asTyped_append remote token rest⟩)
    · have typed : asTyped _ _ (localBranch name) = localBranch (typedAfter remote token name) :=
        asTyped_of_not_prefix fromRemote
      refine .inl ⟨name, known, fromRemote, typed, ?_⟩
      rw [typed]
      exact prefix_typedAfter_iff.mpr (lists.locals _ _ right name known)
  · have start := lists.remotes _ _ (lists.stays _ (localQuery_isQuery _) _ right) name known
    obtain ⟨rest, rfl⟩ := (List.prefix_append _ _).trans start
    have typed : asTyped _ _ (remoteBranch (remote ++ utf8 "/" ++ rest)) =
        remoteBranch (typedAfter remote token rest) := asTyped_append remote token rest
    refine .inr (.inl ⟨rest, known, typed, ?_⟩)
    rw [typed]
    exact prefix_typedAfter_iff.mpr ((List.prefix_append_right_inj _).mp start)

theorem localBranch_mem_distinct {localStart remoteStart : Bytes}
    (member : name ∈ (ask (localQuery localStart) state).1) (other : ¬ remote ++ utf8 "/" <+: name) :
    localBranch (typedAfter remote token name) ∈ distinctTexts ((branches ask localStart remoteStart state).1.map
      (asTyped (remote ++ utf8 "/") ((remote ++ utf8 "/").isPrefixOf token))) := by
  let typed := asTyped (remote ++ utf8 "/") ((remote ++ utf8 "/").isPrefixOf token)
  let locals := (ask (localQuery localStart) state).1.map localBranch
  have first : localBranch (typedAfter remote token name) ∈ locals.map typed :=
    List.mem_map.mpr ⟨localBranch name, List.mem_map_of_mem member, asTyped_of_not_prefix other⟩
  have same : ∀ local_ ∈ locals.map typed, local_ = localBranch local_.text := by
    intro local_ found
    obtain ⟨branch, known, rfl⟩ := List.mem_map.mp found
    obtain ⟨_, _, rfl⟩ := List.mem_map.mp known
    simp only [typed, asTyped]
    split_ifs <;> rfl
  have split : (branches ask localStart remoteStart state).1 = locals ++
      ((ask (remoteQuery remoteStart) (ask (localQuery localStart) state).2).1.filter isRemoteBranch).map
        remoteBranch := rfl
  rw [split, List.map_append, mem_distinctTexts, List.find?_append,
    find?_text_of_mem first fun local_ found text => (same local_ found).trans (congrArg localBranch text)]
  rfl

/-- Branches that are offered begin as typed, except for those of the last kind. After `checkout` and its like the local
ones are offered under their names. After a remote no text is offered twice, and what is offered is a local branch, with
the remote in front of its name if the remote has been typed, or a branch of the remote, or a local branch whose name
starts with that of the remote, which is offered without it or with it once. -/
theorem candidates_branch (lists : ListsBranches kind ask) (right : kind state) (settings : Settings)
    (parsed : ParsedLine) :
    let token := parsed.current
    let offered := (candidates ask settings parsed .branch state).1
    (∀ action, wordsBefore parsed = [action] → action ∉ remoteActions →
      (∀ candidate ∈ offered, token <+: candidate.text) ∧
      ∀ name, localBranch name ∈ offered ↔ name ∈ (ask (localQuery token) state).1) ∧
    ∀ action remote, wordsBefore parsed = [action, remote] → action ∈ remoteActions →
      remote ∈ (ask remotesQuery state).1 →
      let start := remote ++ utf8 "/"
      let locals := ask (localQuery (nameTyped remote token)) (ask remotesQuery state).2
      let remotes := ask (remoteQuery (start ++ nameTyped remote token)) locals.2
      let typed := fun (name : Bytes) => if start <+: token then start ++ name else name
      (offered.map Candidate.text).Nodup ∧
      (∀ name ∈ locals.1, ¬ start <+: name → localBranch (typed name) ∈ offered) ∧
      ∀ candidate ∈ offered,
        (∃ name ∈ locals.1, ¬ start <+: name ∧ candidate = localBranch (typed name) ∧ token <+: candidate.text) ∨
        (∃ name, start ++ name ∈ remotes.1 ∧ candidate = remoteBranch (typed name) ∧ token <+: candidate.text) ∨
        ∃ name, start ++ name ∈ locals.1 ∧ candidate = localBranch (typed name) := by
  intro token offered
  have run : ∀ words, wordsBefore parsed = words →
      offered = (branchCandidates ask settings token words state).1 := by
    rintro _ rfl
    rfl
  constructor
  · intro action words other
    rw [run _ words, branchCandidates_own other]
    refine ⟨fun candidate member => ?_, fun name => ?_⟩
    · rcases mem_branches.mp member with ⟨name, known, rfl⟩ | ⟨name, known, _, rfl⟩
      · exact lists.locals _ _ right name known
      · exact lists.remotes _ _ (lists.stays _ (localQuery_isQuery _) _ right) name known
    · rw [mem_branches]
      constructor
      · rintro (⟨_, known, same⟩ | ⟨_, _, _, same⟩)
        · rwa [show name = _ from congrArg Candidate.text same]
        · have differ : utf8 "local branch" ≠ utf8 "remote branch" := by decide
          exact absurd (Option.some.inj (congrArg Candidate.description same)) differ
      · exact fun known => .inl ⟨name, known, rfl⟩
  · intro action remote words remotely listed start locals remotes typed
    rw [run _ words, branchCandidates_remote remotely listed]
    refine ⟨nodup_distinctTexts _, fun name known other => localBranch_mem_distinct known other,
      fun candidate member => ?_⟩
    exact mem_branches_typed lists (lists.stays _ remotesQuery_isQuery _ right) (distinctTexts_subset _ member)

/-- After `push origin`, a token with the remote in front is gone on with. -/
theorem candidates_branch_push :
    let runner : CommandRunner := fun call =>
      if call.words = remotesQuery then .ok (utf8 "origin\n")
      else if call.words = localQuery (utf8 "fe") then .ok (utf8 "feature\nfeat-x\n")
      else if call.words = remoteQuery (utf8 "origin/fe") then .ok (utf8 "origin/feature\norigin/fetch-only\n")
      else .error []
    let world : World :=
      { environment := { entries := [] }, epoch := 0, database := none, reader := ⟨fun _ => .ok [], id⟩
        files := ⟨.empty, []⟩
        runner, history := none }
    let ask := Engine.ask world (fun _ => pure ⟨[], 0, 0⟩) (utf8 "/work")
    let engine : Engine := { requests := { started := 1 } }
    let parsed := parse none (utf8 "git push origin origin/fe") 25
    let offered := (candidates ask {} parsed .branch engine).1
    ListsBranches (Engine.Serves world 0) ask ∧ engine.Serves world 0 ∧
      wordsBefore parsed = [utf8 "push", utf8 "origin"] ∧ utf8 "origin" ∈ (ask remotesQuery engine).1 ∧
      localBranch (utf8 "origin/feature") ∈ offered ∧ (offered.map Candidate.text).Nodup := by
  intro runner world ask engine parsed offered
  have prints : Engine.PrintsBranches runner := by
    intro start directory timeout output ran name member
    rcases ran with ran | ran
    · simp only [runner, localQuery_ne_remotesQuery, (remoteQuery_ne_localQuery _ _).symm, localQuery_inj, if_false]
        at ran
      split_ifs at ran with asked
      rw [← Except.ok.inj ran] at member
      rw [asked]
      revert name
      decide +kernel
    · simp only [runner, remoteQuery_ne_remotesQuery, remoteQuery_ne_localQuery, remoteQuery_inj, if_false] at ran
      split_ifs at ran with asked
      rw [← Except.ok.inj ran] at member
      rw [asked]
      revert name
      decide +kernel
  have lists : ListsBranches (Engine.Serves world 0) ask := Engine.ask_listsBranches prints _ (by decide) 0
  have serves : engine.Serves world 0 := { Engine.isFree_new world with latest := nofun, begun := Nat.one_pos }
  have words : wordsBefore parsed = [utf8 "push", utf8 "origin"] := by decide +kernel
  have listed : utf8 "origin" ∈ (ask remotesQuery engine).1 := by decide +kernel
  obtain ⟨distinct, offers, _⟩ := (candidates_branch lists serves {} parsed).2 _ _ words (by decide) listed
  exact ⟨lists, serves, words, listed, offers (utf8 "feature") (by decide +kernel) (by decide), distinct⟩

/-- A local branch that is named as one of the remote does not begin as typed when it is offered after the remote. -/
theorem candidates_branch_origin :
    let ask : List Bytes → StateM Unit (List Bytes) := fun
      | [_, _] => pure [utf8 "origin"]
      | [_, _, _, _, pattern] => pure ([utf8 "origin/x"].filter (pattern.dropLast.isPrefixOf ·))
      | _ => pure []
    let parsed := parse none (utf8 "git push origin or") 18
    ListsBranches (fun _ => True) ask ∧ answers .branch parsed ∧ parsed.current = utf8 "or" ∧
      (candidates ask {} parsed .branch ()).1 = [localBranch (utf8 "x")] := by
  intro ask parsed
  refine ⟨⟨fun _ _ _ _ => trivial, fun start _ _ name member => ?_, fun start _ _ name member => ?_⟩, ?_⟩
  · have begun : (start ++ utf8 "*").dropLast.isPrefixOf name := List.of_mem_filter member
    rwa [show (start ++ utf8 "*").dropLast = start from List.dropLast_concat, List.isPrefixOf_iff_prefix] at begun
  · exact absurd member List.not_mem_nil
  · decide +kernel

end

end Handler

end ShellCompletion
