import ShellCompletion.Proofs.Acceptance.Names
import ShellCompletion.Proofs.Path.Normal

/-!
# Directories that are accepted

A directory that is accepted ends in a slash, so the text is taken apart at that slash and the directory is read
that it names (`SplitToken.of_entered`): the one that the entry names in the directory read before
(`pathCandidates_enter`). Only an entry named by a tilde alone stands bare at the front of its text, and is then
read as the home directory.
-/
namespace ShellCompletion

open ShellCompletion.Path (IsName slash)

namespace Environment

variable {env : Environment} {name : Bytes}

theorem expandTilde_append (env : Environment) (front rest : Bytes) :
    ∃ home, env.expandTilde (front ++ [slash]) = home ++ [slash] ∧
      env.expandTilde (front ++ [slash] ++ rest) = home ++ [slash] ++ rest := by
  cases front with
  | nil => exact ⟨[], rfl, rfl⟩
  | cons c more =>
    have second : ∀ rest, (more ++ [slash] ++ rest = [] ∨ (more ++ [slash] ++ rest).head? = some '/'.toUInt8) ↔
        (more ++ [slash]).head? = some '/'.toUInt8 := by
      cases more <;> simp
    have first := second []
    rw [List.append_nil] at first
    by_cases tilde : c = '~'.toUInt8 ∧ (more ++ [slash]).head? = some '/'.toUInt8
    · refine ⟨env.home ++ more, ?_, ?_⟩
      · rw [List.cons_append, expandTilde, if_pos (by rwa [first]), List.append_assoc]
      · rw [List.cons_append, List.cons_append, expandTilde, if_pos (by rwa [second])]
        simp
    · refine ⟨c :: more, ?_, ?_⟩
      · rw [List.cons_append, expandTilde, if_neg (by rwa [first])]
      · rw [List.cons_append, List.cons_append, expandTilde, if_neg (by rwa [second])]

/-- Only a tilde alone is expanded in front of a slash. -/
theorem expandTilde_name (isName : IsName name) (other : name ≠ utf8 "~") :
    env.expandTilde (name ++ [slash]) = name ++ [slash] := by
  obtain ⟨c, more, rfl⟩ := List.exists_cons_of_ne_nil isName.nonempty
  rw [List.cons_append, expandTilde, if_neg]
  rintro ⟨rfl, empty | below⟩
  · simp at empty
  · cases more with
    | nil => exact other rfl
    | cons d more =>
      obtain rfl : d = slash := Option.some.inj below
      exact isName.whole (by simp)

end Environment

namespace SplitToken

variable {env : Environment} {current token text name : Bytes}

theorem of_closed (env : Environment) (current : Bytes) {front : Bytes} (closed : unquote text = front ++ [slash]) :
    SplitToken.of env current text =
      ⟨front ++ [slash], (Directory.ofPath current).append (env.expandTilde (front ++ [slash])), []⟩ := by
  have name : Bytes.afterLast slash (front ++ [slash]) = [] := Bytes.afterLast_append (by simp) front
  simp only [SplitToken.of, closed, Bytes.throughLast_concat, name]
  rw [if_neg (by simp)]

/-- The name of an entry behind the directory of a token, with a slash after it, is the directory of that name in
    the one of the token. It has the root of the current directory or one of its own. -/
theorem of_entered (isName : IsName name) (other : (SplitToken.of env current token).display = [] → name ≠ utf8 "~")
    (typed : unquote text = (SplitToken.of env current token).display ++ (name ++ [slash])) :
    let entered := SplitToken.of env current text
    entered.namePart = [] ∧
      entered.directory.path = Path.append (SplitToken.of env current token).directory.path name ++ [slash] ∧
      (entered.directory.root = (Directory.ofPath current).root ∨
        entered.directory = Directory.ofPath entered.directory.path) := by
  intro entered
  rcases Bytes.throughLast_cases slash (unquote token) with none_ | ⟨front, display⟩
  · have split : SplitToken.of env current token =
        ⟨[], Directory.ofPath current, Bytes.afterLast slash (unquote token)⟩ := by simp [SplitToken.of, none_]
    rw [split] at typed other ⊢
    have here := of_closed env current typed
    rw [Environment.expandTilde_name isName (other rfl), Directory.append_name isName] at here
    rw [show entered = _ from here]
    exact ⟨rfl, rfl, .inl rfl⟩
  · obtain ⟨home, expanded, expanded'⟩ := env.expandTilde_append front (name ++ [slash])
    have split : SplitToken.of env current token = ⟨front ++ [slash],
        (Directory.ofPath current).append (home ++ [slash]), Bytes.afterLast slash (unquote token)⟩ := by
      simp [SplitToken.of, display, expanded]
    rw [split] at typed ⊢
    rw [← List.append_assoc] at typed expanded'
    have here := of_closed env current typed
    rw [expanded', List.append_assoc] at here
    rw [show entered = _ from here]
    exact ⟨rfl, Directory.append_below isName (Directory.ofPath current) home⟩

theorem of_directory_absolute (env : Environment) {current : Bytes} (absolute : Path.isAbsolute current)
    (token : Bytes) : Path.isAbsolute (SplitToken.of env current token).directory.path := by
  unfold SplitToken.of
  dsimp only
  split_ifs
  · exact absolute
  · rw [Directory.append_path]
    exact Path.isAbsolute_append absolute _

end SplitToken

theorem Directory.key_of_rooted {directory : Directory} {base name : Bytes} (isName : IsName name)
    (rootOf : Bytes → Bytes) (absolute : Path.isAbsolute base) (path : directory.path = Path.append base name ++ [slash])
    (root : directory.root = [slash] ∨ directory = Directory.ofPath directory.path) :
    directory.key rootOf = (Directory.ofPath (Path.append base name)).key rootOf := by
  rcases root with root | own
  · obtain ⟨front, below⟩ := Path.append_eq isName base
    have named := isName.hasNames_append front []
    rw [List.append_nil, ← below] at named
    have rooted : (Directory.ofPath (Path.append base name)).root = [slash] := by
      rw [Directory.ofPath_root named, if_pos (Path.isAbsolute_append absolute name)]
    calc directory.key rootOf
        = (⟨[slash], Path.append base name ++ [slash]⟩ : Directory).key rootOf := by rw [← path, ← root]
      _ = (⟨[slash], Path.append base name⟩ : Directory).key rootOf :=
          Directory.key_append_slash isName rootOf [slash] base
      _ = (Directory.ofPath (Path.append base name)).key rootOf := by rw [← rooted]; rfl
  · rw [own, path, Directory.ofPath_key_append_slash isName]

/-- The text offered for a directory among the entries is taken apart into that directory and nothing of a name.
    Its path is the one of the entry in the directory of the token, up to the slash at its end, so it has the
    same normal form; it is known under that form if the current directory is absolute and not spelled by
    several slashes alone. Only an entry named by a tilde leads home, where the token has no directory. -/
theorem pathCandidates_enter (context : PathContext) (filter : PathFilter) (current token : Bytes)
    (listings : Listings) {entries : List Entry} (known : context.listed current token listings = .ok entries)
    {entry : Entry} (member : entry ∈ entries) (directory : entry.kind = .directory) (isName : IsName entry.name) :
    let split := SplitToken.of context.environment current token
    let candidate := entry.candidate split.display
    let entered := SplitToken.of context.environment current candidate.text
    let below := Path.append split.directory.path entry.name
    let rootOf := context.reader.rootOf
    (entry.isShown context.settings split.namePart →
        candidate ∈ (pathCandidates context filter current token listings).1) ∧
      entered.namePart = [] ∧
      ((split.display = [] → entry.name ≠ utf8 "~") →
        entered.directory.path = below ++ [slash] ∧
          (Directory.ofPath entered.directory.path).key rootOf = (Directory.ofPath below).key rootOf ∧
          ((Directory.ofPath current).root = [slash] →
            entered.directory.key rootOf = (Directory.ofPath below).key rootOf)) ∧
      (split.display = [] → entry.name = utf8 "~" →
        entered.directory = (Directory.ofPath current).append (context.environment.home ++ [slash])) := by
  intro split candidate entered below rootOf
  have typed : unquote candidate.text = split.display ++ (entry.name ++ [slash]) := by
    simp [candidate, Entry.candidate, Candidate.of, unquote_pathText, directory]
  refine ⟨fun shown => ?_, ?_, fun other => ?_, fun none_ tilde => ?_⟩
  · exact mem_pathCandidates.mpr ⟨entries, known, entry, member, shown, by simp [PathFilter.passes, directory], rfl⟩
  · rw [← List.append_assoc] at typed
    exact congrArg SplitToken.namePart (SplitToken.of_closed context.environment current typed)
  · obtain ⟨_, path, root⟩ := SplitToken.of_entered isName other typed
    refine ⟨path, ?_, fun rooted => ?_⟩
    · rw [show entered.directory.path = _ from path, Directory.ofPath_key_append_slash isName]
    · rw [rooted] at root
      have absolute := Directory.isAbsolute_of_root rooted
      exact Directory.key_of_rooted isName rootOf (SplitToken.of_directory_absolute _ absolute token) path root
  · rw [none_, tilde, List.nil_append] at typed
    have closed := congrArg SplitToken.directory (SplitToken.of_closed context.environment current typed)
    exact closed

/-- A directory with a blank in its name, below one that is typed as it stands. -/
theorem pathCandidates_enter_notes :
    let context : PathContext := ⟨{}, { entries := [] }, ⟨fun _ => .ok [⟨utf8 "my notes", .directory⟩], id⟩, 0⟩
    let entered := SplitToken.of context.environment (utf8 "/work") (utf8 "\"../my notes/\"")
    context.listed (utf8 "/work") (utf8 "../my") {} = .ok [⟨utf8 "my notes", .directory⟩] ∧
      IsName (utf8 "my notes") ∧ entered.directory.path = utf8 "/work/../my notes/" ∧
      entered.directory.key context.reader.rootOf = utf8 "/my notes" := by
  intro context entered
  have known : context.listed (utf8 "/work") (utf8 "../my") {} = .ok [⟨utf8 "my notes", .directory⟩] := rfl
  have isName : IsName (utf8 "my notes") := ⟨by decide, by decide, by decide, by decide⟩
  obtain ⟨_, _, enters, _⟩ := pathCandidates_enter context {} (utf8 "/work") (utf8 "../my") {} known
    List.mem_cons_self rfl isName
  obtain ⟨path, _, key⟩ := enters (by decide)
  exact ⟨known, isName, path, (key (by decide)).trans (by decide +kernel)⟩

/-- The directory named by a tilde is offered as it stands, which reads the home directory. -/
theorem pathCandidates_enter_tilde :
    let context : PathContext :=
      ⟨{}, { entries := [(utf8 "HOME", utf8 "/home/tester")] }, ⟨fun _ => .ok [⟨utf8 "~", .directory⟩], id⟩, 0⟩
    let split := SplitToken.of context.environment (utf8 "/work") []
    let entered := SplitToken.of context.environment (utf8 "/work") (utf8 "~/")
    (pathCandidates context {} (utf8 "/work") [] {}).1 = [.of .directory (utf8 "~/")] ∧
      (Directory.ofPath (Path.append split.directory.path (utf8 "~"))).key id = utf8 "/work/~" ∧
      (Directory.ofPath entered.directory.path).key id = utf8 "/home/tester" := by
  decide +kernel

end ShellCompletion
