import ShellCompletion.Proofs.Listings.Answers
import ShellCompletion.Proofs.Ranking.FirstTexts

namespace ShellCompletion

open Handler (distinctTexts distinctTexts_append filter_distinctTexts find?_text_of_mem mem_distinctTexts
  nodup_distinctTexts texts_distinctTexts)

variable {context : PathContext} {listings : Listings} {typed directory : Bytes} {candidate : Candidate}

theorem Settings.accepts_nil (settings : Settings) (name : Bytes) : settings.accepts name [] := by
  have start : settings.matchesStart name [] := by
    unfold matchesStart Bytes.startsWith startsWithAnyCase
    split_ifs <;> rfl
  rw [accepts, start, Bool.true_or]

/-- The directory can be listed, and has an executable of the name. -/
def HasExecutable (context : PathContext) (listings : Listings) (directory name : Bytes) : Prop :=
  ∃ entries, listings.shows context.reader context.now (.ofPath directory) = .ok entries ∧ ⟨name, .executable⟩ ∈ entries

/-- The candidate for an executable of a directory. -/
def executableOf (env : Environment) (directory name : Bytes) : Candidate :=
  .of .executable name (some (env.contractHome directory))

/-- The executables of one directory that match. -/
def executablesOf (context : PathContext) (listings : Listings) (typed directory : Bytes) : List Candidate :=
  let entries := (listings.shows context.reader context.now (.ofPath directory)).toOption.getD []
  (entries.filter fun entry => entry.kind == .executable && context.settings.accepts entry.name typed).map fun entry =>
    executableOf context.environment directory entry.name

theorem mem_executablesOf : candidate ∈ executablesOf context listings typed directory ↔
    context.settings.accepts candidate.text typed ∧ HasExecutable context listings directory candidate.text ∧
      candidate = executableOf context.environment directory candidate.text := by
  unfold executablesOf HasExecutable
  simp only [List.mem_map, List.mem_filter, Bool.and_eq_true, beq_iff_eq]
  constructor
  · rintro ⟨⟨name, kind⟩, ⟨member, executable, accepted⟩, rfl⟩
    obtain rfl : kind = .executable := executable
    refine ⟨accepted, ?_, rfl⟩
    cases shown : listings.shows context.reader context.now (.ofPath directory) with
    | error e =>
      rw [shown] at member
      exact absurd member List.not_mem_nil
    | ok entries =>
      rw [shown] at member
      exact ⟨entries, rfl, member⟩
  · rintro ⟨accepted, ⟨entries, shown, member⟩, same⟩
    refine ⟨⟨candidate.text, .executable⟩, ⟨?_, rfl, accepted⟩, same.symm⟩
    rwa [shown]

theorem find?_executablesOf :
    (executablesOf context listings typed directory).find? (·.text = candidate.text) = some candidate ↔
      candidate ∈ executablesOf context listings typed directory := by
  refine ⟨List.mem_of_find?_eq_some, fun member => find?_text_of_mem member fun other found text => ?_⟩
  rw [(mem_executablesOf.mp found).2.2, text, ← (mem_executablesOf.mp member).2.2]

theorem find?_executablesOf_eq_none {name : Bytes} (accepted : context.settings.accepts name typed) :
    (executablesOf context listings typed directory).find? (·.text = name) = none ↔
      ¬ HasExecutable context listings directory name := by
  rw [List.find?_eq_none]
  constructor
  · intro absent has
    have found : executableOf context.environment directory name ∈ executablesOf context listings typed directory :=
      mem_executablesOf.mpr ⟨accepted, has, rfl⟩
    exact absent _ found (decide_eq_true rfl)
  · intro hasNot other member text
    obtain ⟨_, has, _⟩ := mem_executablesOf.mp member
    rw [of_decide_eq_true text] at has
    exact hasNot has

theorem executablesOf_eq_filter (context : PathContext) (listings : Listings) (typed directory : Bytes) :
    executablesOf context listings typed directory =
      (executablesOf context listings [] directory).filter (context.settings.accepts ·.text typed) := by
  unfold executablesOf
  rw [List.filter_map, List.filter_filter]
  refine congrArg _ (List.filter_congr fun entry _ => ?_)
  have nothing : context.settings.accepts entry.name [] = true := Settings.accepts_nil _ _
  rw [nothing, Bool.and_true, Bool.and_comm]
  rfl

/-- The directories are listed as at the start, whatever is known from those listed before. -/
theorem listAll_shows (sound : listings.cache.Sound) (context : PathContext) (directories : List Bytes) :
    (listAll context directories listings).1 = directories.filterMap (fun directory =>
        (listings.shows context.reader context.now (.ofPath directory)).toOption.map (directory, ·)) ∧
      (listAll context directories listings).2.cache.Sound ∧
      ∀ other, (listAll context directories listings).2.shows context.reader context.now other =
        listings.shows context.reader context.now other := by
  induction directories generalizing listings with
  | nil => exact ⟨rfl, sound, fun _ => rfl⟩
  | cons directory rest ih =>
    obtain ⟨answer, kept, shown⟩ := Listings.list_shows sound context.reader context.now (.ofPath directory)
    obtain ⟨found, keptAfter, shownAfter⟩ := ih kept
    refine ⟨?_, keptAfter, fun other => (shownAfter other).trans (shown other)⟩
    simp only [shown] at found
    let listed := Listings.list context.reader context.now (.ofPath directory) listings
    have step : (listAll context (directory :: rest) listings).1 =
        (listed.1.toOption.map (directory, ·)).toList ++ (listAll context rest listed.2).1 := rfl
    rw [step, answer, found, List.filterMap_cons]
    cases listings.shows context.reader context.now (.ofPath directory) <;> rfl

theorem executableCandidates_eq (sound : listings.cache.Sound) (context : PathContext) (typed : Bytes)
    (directories : List Bytes) :
    (executableCandidates context typed directories listings).1 =
      distinctTexts (directories.flatMap (executablesOf context listings typed)) := by
  let ofListed : Bytes × List Entry → List Candidate := fun found =>
    (found.2.filter fun entry => entry.kind == .executable && context.settings.accepts entry.name typed).map
      fun entry => executableOf context.environment found.1 entry.name
  have listed : ∀ directories : List Bytes, (directories.filterMap fun directory =>
      (listings.shows context.reader context.now (.ofPath directory)).toOption.map (directory, ·)).flatMap ofListed =
        directories.flatMap (executablesOf context listings typed) := by
    intro directories
    induction directories with
    | nil => rfl
    | cons directory rest ih =>
      rw [List.filterMap_cons, List.flatMap_cons, ← ih]
      unfold executablesOf
      cases listings.shows context.reader context.now (.ofPath directory) <;> rfl
  rw [← listed, ← (listAll_shows sound context directories).1]
  rfl

/-- An executable that a search finds is that of the first directory that has one of the name. -/
theorem mem_distinct_executablesOf {directories : List Bytes} :
    candidate ∈ distinctTexts (directories.flatMap (executablesOf context listings typed)) ↔
      context.settings.accepts candidate.text typed ∧ ∃ before directory after,
        directories = before ++ directory :: after ∧ HasExecutable context listings directory candidate.text ∧
        (∀ earlier ∈ before, ¬ HasExecutable context listings earlier candidate.text) ∧
        candidate = executableOf context.environment directory candidate.text := by
  rw [mem_distinctTexts, List.find?_flatMap, List.findSome?_eq_some_iff]
  constructor
  · rintro ⟨before, directory, after, rfl, found, absent⟩
    obtain ⟨accepted, has, same⟩ := mem_executablesOf.mp (find?_executablesOf.mp found)
    refine ⟨accepted, before, directory, after, rfl, has, fun earlier member => ?_, same⟩
    exact (find?_executablesOf_eq_none accepted).mp (absent earlier member)
  · rintro ⟨accepted, before, directory, after, rfl, has, absent, same⟩
    refine ⟨before, directory, after, rfl, ?_, fun earlier member => ?_⟩
    · exact find?_executablesOf.mpr (mem_executablesOf.mpr ⟨accepted, has, same⟩)
    · exact (find?_executablesOf_eq_none accepted).mpr (absent earlier member)

/-- A search for what has been typed is a search for anything, sorted out. Each name is found once, in the first
directory that has an executable of the name, and more directories only add names that the first ones do not have.
Searches do not change what others find. -/
theorem executableCandidates_first (sound : listings.cache.Sound) (context : PathContext) (typed : Bytes)
    (directories more : List Bytes) :
    let search := fun typed directories => (executableCandidates context typed directories listings).1
    search typed directories = (search [] directories).filter (context.settings.accepts ·.text typed) ∧
    ((search typed directories).map Candidate.text).Nodup ∧
    (∀ candidate, candidate ∈ search typed directories ↔
      context.settings.accepts candidate.text typed ∧ ∃ before directory after,
        directories = before ++ directory :: after ∧ HasExecutable context listings directory candidate.text ∧
        (∀ earlier ∈ before, ¬ HasExecutable context listings earlier candidate.text) ∧
        candidate = .of .executable candidate.text (some (context.environment.contractHome directory))) ∧
    search typed (directories ++ more) = search typed directories ++
      (search typed more).filter (fun other => other.text ∉ (search typed directories).map Candidate.text) ∧
    ∀ elsewhere before, (executableCandidates context typed directories
      (executableCandidates context elsewhere before listings).2).1 = search typed directories := by
  intro search
  have searches : ∀ typed directories, search typed directories =
      distinctTexts (directories.flatMap (executablesOf context listings typed)) :=
    executableCandidates_eq sound context
  refine ⟨?_, ?_, fun candidate => ?_, ?_, fun elsewhere before => ?_⟩
  · rw [searches, searches, filter_distinctTexts (context.settings.accepts · typed), List.filter_flatMap]
    simp only [← executablesOf_eq_filter]
  · rw [searches]
    exact nodup_distinctTexts _
  · rw [searches]
    exact mem_distinct_executablesOf
  · simp only [searches, List.flatMap_append, distinctTexts_append, texts_distinctTexts, List.mem_eraseDups]
  · obtain ⟨_, kept, shown⟩ := listAll_shows sound context before
    have same : ∀ directory, executablesOf context (listAll context before listings).2 typed directory =
        executablesOf context listings typed directory := fun directory => by
      unfold executablesOf
      rw [shown]
    exact (executableCandidates_eq kept context typed directories).trans
      ((congrArg distinctTexts (List.flatMap_congr fun directory _ => same directory)).trans (searches _ _).symm)

/-- A plain file does not hide an executable of its name, nor does a directory that cannot be read. -/
theorem executableCandidates_first_git :
    let read : Bytes → Except Bytes (List Entry) := fun directory =>
      if directory = utf8 "/opt/bin" then .ok [⟨utf8 "git", .file⟩, ⟨utf8 "gzip", .executable⟩]
      else if directory = utf8 "/home/ada/bin" then .ok [⟨utf8 "gzip", .executable⟩, ⟨utf8 "git", .executable⟩]
      else .error (utf8 "no such directory")
    let context : PathContext := ⟨{}, { entries := [(utf8 "HOME", utf8 "/home/ada")] }, ⟨read, id⟩, 0⟩
    let listings : Listings := {}
    let search := fun typed directories => (executableCandidates context typed directories listings).1
    let directories := [utf8 "/opt/bin", utf8 "/missing", utf8 "/home/ada/bin/"]
    listings.cache.Sound ∧
      .of .executable (utf8 "git") (some (utf8 "~/bin/")) ∈ search (utf8 "g") directories ∧
      .of .executable (utf8 "gzip") (some (utf8 "/opt/bin")) ∈ search (utf8 "g") directories ∧
      ((search (utf8 "g") directories).map Candidate.text).Nodup := by
  intro read context listings search directories
  have sound : listings.cache.Sound := Listings.sound_new
  obtain ⟨_, distinct, found, _⟩ := executableCandidates_first sound context (utf8 "g") directories []
  have opt : listings.shows context.reader context.now (.ofPath (utf8 "/opt/bin")) =
      .ok [⟨utf8 "git", .file⟩, ⟨utf8 "gzip", .executable⟩] := by rfl
  have missing : listings.shows context.reader context.now (.ofPath (utf8 "/missing")) =
      .error (utf8 "no such directory") := by rfl
  have home : listings.shows context.reader context.now (.ofPath (utf8 "/home/ada/bin/")) =
      .ok [⟨utf8 "gzip", .executable⟩, ⟨utf8 "git", .executable⟩] := by rfl
  have notOpt : ¬ HasExecutable context listings (utf8 "/opt/bin") (utf8 "git") := by
    rintro ⟨entries, shown, member⟩
    rw [← Except.ok.inj (opt.symm.trans shown)] at member
    exact absurd member (by decide)
  have notMissing : ¬ HasExecutable context listings (utf8 "/missing") (utf8 "git") := by
    rintro ⟨entries, shown, _⟩
    exact nomatch missing.symm.trans shown
  refine ⟨sound, (found _).mpr ⟨by decide, [utf8 "/opt/bin", utf8 "/missing"], utf8 "/home/ada/bin/", [], rfl,
      ⟨_, home, by decide⟩, ?_, by decide⟩,
    (found _).mpr ⟨by decide, [], utf8 "/opt/bin", _, rfl, ⟨_, opt, by decide⟩, by simp, by decide⟩, distinct⟩
  intro earlier member
  rcases List.mem_pair.mp member with rfl | rfl
  · exact notOpt
  · exact notMissing

end ShellCompletion
