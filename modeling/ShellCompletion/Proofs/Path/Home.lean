import ShellCompletion.Environment
import ShellCompletion.Proofs.Path.Keys

/-!
# The home directory in front of a path

A path in the home directory is contracted as far as the home directory is spelled without slashes at its end, and
expanded by the home directory as it is spelled (`Environment.expandTilde_contractHome_of_beneath`). So the path comes
back as it was unless the home directory is spelled with slashes behind its last name; then these turn up inside the
path, which still leads through the same names (`Environment.expandTilde_contractHome`).
-/
namespace ShellCompletion

namespace Path

variable {directory stem slashes rest path : Bytes}

/-- The path is that of the directory, or goes on behind it with a slash. -/
def Beneath (directory path : Bytes) : Prop :=
  ∃ rest, path = directory ++ rest ∧ (rest = [] ∨ rest.head? = some slash)

theorem hasNames_append (s t : Bytes) : hasNames (s ++ t) = (hasNames s || hasNames t) := List.any_append

theorem eq_slash_of_mem (only : hasNames slashes = false) {c : UInt8} (member : c ∈ slashes) : c = slash := by
  simpa using List.any_eq_false.mp only c member

/-- A path with a name is a path that ends in a name, with slashes behind it. -/
theorem exists_stem (named : hasNames path) :
    ∃ stem slashes, path = stem ++ slashes ∧ hasFileName stem ∧ hasNames slashes = false := by
  induction path using List.reverseRecOn with
  | nil => exact absurd named (by decide)
  | append_singleton front c ih =>
    by_cases last : c = slash
    · rw [hasNames_append, last] at named
      obtain ⟨stem, slashes, rfl, file, only⟩ := ih (by simpa [hasNames] using named)
      refine ⟨stem, slashes ++ [c], List.append_assoc .., file, ?_⟩
      rw [hasNames_append, only, last]
      rfl
    · refine ⟨front ++ [c], [], (List.append_nil _).symm, ?_, rfl⟩
      simpa [hasFileName] using last

theorem dropSlashes_append_slashes (only : hasNames slashes = false) (stem : Bytes) :
    dropSlashes (stem ++ slashes) = dropSlashes stem := by
  have pass : ∀ c ∈ slashes.reverse, (c == slash) = true := fun c member => by
    simpa using eq_slash_of_mem only (List.mem_reverse.mp member)
  rw [dropSlashes, List.reverse_append, List.dropWhile_append_of_pos pass, dropSlashes]

theorem dropSlashes_of_hasFileName (file : hasFileName stem) : dropSlashes stem = stem := by
  obtain ⟨front, c, rfl⟩ := (List.eq_nil_or_concat stem).resolve_left (by rintro rfl; exact absurd file (by decide))
  have other : c ≠ slash := by simpa [hasFileName] using file
  simp [dropSlashes, other]

theorem hasFileName_append_iff (file : hasFileName stem) (only : hasNames slashes = false) :
    hasFileName (stem ++ slashes) ↔ slashes = [] := by
  constructor
  · intro ends
    by_contra typed
    rw [hasFileName, List.getLast?_append_of_ne_nil _ typed, List.getLast?_eq_some_getLast typed] at ends
    have last := eq_slash_of_mem only (List.getLast_mem typed)
    simp [last] at ends
  · rintro rfl
    rwa [List.append_nil]

theorem names_append_slash_append (s t : Bytes) : names (s ++ slash :: t) = names s ++ names t := by
  rw [names, parts, Bytes.fields_append, List.filter_append]
  rfl

theorem names_append_slashes (only : hasNames slashes = false) (path : Bytes) : names (path ++ slashes) = names path := by
  induction slashes using List.reverseRecOn with
  | nil => rw [List.append_nil]
  | append_singleton front c ih =>
    obtain rfl : c = slash := eq_slash_of_mem only (by simp)
    rw [hasNames_append, Bool.or_eq_false_iff] at only
    rw [← List.append_assoc, names_append_slash, ih only.1]

theorem components_append_slashes (only : hasNames slashes = false) (boundary : rest = [] ∨ rest.head? = some slash)
    (stem : Bytes) : components (stem ++ slashes ++ rest) = components (stem ++ rest) := by
  have same : names (stem ++ slashes ++ rest) = names (stem ++ rest) := by
    rcases boundary with rfl | below
    · rw [List.append_nil, List.append_nil, names_append_slashes only]
    · obtain ⟨more, rfl⟩ := List.head?_eq_some_iff.mp below
      rw [names_append_slash_append, names_append_slash_append, names_append_slashes only]
  rw [← resolveDots_names, same, resolveDots_names]

end Path

namespace Environment

open ShellCompletion.Path (Beneath components dropSlashes hasFileName hasNames isAbsolute slash)

variable {env : Environment} {home stem slashes rest path : Bytes}

theorem home_eq (given : env.get? (utf8 "HOME") = some home) (typed : home ≠ []) : env.home = home := by
  have kept : (!home.isEmpty) = true := by simpa using typed
  rw [Environment.home, given, Option.filter_some, if_pos kept, Option.getD_some]

theorem trimSlashes_cons (c : UInt8) (rest : Bytes) : trimSlashes (c :: rest) = c :: dropSlashes rest := rfl

theorem trimSlashes_append (file : hasFileName stem) (only : hasNames slashes = false) :
    trimSlashes (stem ++ slashes) = stem := by
  cases stem with
  | nil => exact absurd file (by decide)
  | cons c more =>
    rw [List.cons_append, trimSlashes_cons, Path.dropSlashes_append_slashes only]
    cases more with
    | nil => rfl
    | cons d more => rw [Path.dropSlashes_of_hasFileName (by simpa [hasFileName] using file)]

theorem trimSlashes_of_slashes (only : hasNames home = false) (typed : home ≠ []) : trimSlashes home = utf8 "/" := by
  obtain ⟨c, more, rfl⟩ := List.exists_cons_of_ne_nil typed
  have behind : hasNames more = false := ((Bool.or_eq_false_iff.mp (List.any_cons.symm.trans only))).2
  have dropped := Path.dropSlashes_append_slashes behind []
  rw [List.nil_append] at dropped
  rw [trimSlashes_cons, dropped, Path.eq_slash_of_mem only List.mem_cons_self]
  rfl

theorem expandTilde_of_absolute (absolute : isAbsolute path) : env.expandTilde path = path := by
  obtain ⟨more, rfl⟩ := List.head?_eq_some_iff.mp (by simpa [isAbsolute] using absolute)
  rw [expandTilde, if_neg]
  rintro ⟨tilde, _⟩
  exact absurd tilde (by decide)

theorem expandTilde_of_tilde (boundary : rest = [] ∨ rest.head? = some slash) :
    env.expandTilde ('~'.toUInt8 :: rest) = env.home ++ rest := by
  rw [expandTilde, if_pos ⟨rfl, boundary⟩]

/-- What lies in the home directory is contracted behind the name that the home directory ends in. -/
theorem contractHome_of_beneath (trimmed : trimSlashes env.home = stem) (file : hasFileName stem)
    (boundary : rest = [] ∨ rest.head? = some slash) : env.contractHome (stem ++ rest) = '~'.toUInt8 :: rest := by
  have typed : stem.isEmpty = false := by
    cases stem with
    | nil => exact absurd file (by decide)
    | cons c more => rfl
  have other : (stem == utf8 "/") = false := by
    by_contra same
    rw [beq_iff_eq.mp (eq_true_of_ne_false same)] at file
    exact absurd file (by decide)
  unfold contractHome
  rw [trimmed]
  rcases boundary with rfl | below
  · simp only [typed, other, List.append_nil, Bool.or_self, Bool.false_eq_true, if_false, if_true]
    rfl
  · have longer : stem ++ rest ≠ stem := by
      intro same
      rw [List.append_right_eq_self.mp same] at below
      exact nomatch below
    have slash_ : rest.head? = some '/'.toUInt8 := below
    simp [typed, other, longer, slash_]

theorem contractHome_of_not_beneath (elsewhere : ¬ Beneath (trimSlashes env.home) path) :
    env.contractHome path = path := by
  unfold contractHome
  dsimp only
  split_ifs with root own inside
  · rfl
  · exact absurd ⟨[], by rw [List.append_nil, own], .inl rfl⟩ elsewhere
  · simp only [Bool.and_eq_true, beq_iff_eq] at inside
    obtain ⟨rest, rfl⟩ := List.isPrefixOf_iff_prefix.mp inside.1
    rw [List.drop_left] at inside
    exact absurd ⟨rest, rfl, .inr inside.2⟩ elsewhere
  · rfl

theorem contractHome_of_root (root : trimSlashes env.home = utf8 "/") : env.contractHome path = path := by
  simp [contractHome, root]

/-- What lies in the home directory comes back with the home directory as it is spelled. -/
theorem expandTilde_contractHome_of_beneath (spelled : env.home = stem ++ slashes) (file : hasFileName stem)
    (only : hasNames slashes = false) (boundary : rest = [] ∨ rest.head? = some slash) :
    env.expandTilde (env.contractHome (stem ++ rest)) = env.home ++ rest := by
  have trimmed : trimSlashes env.home = stem := spelled ▸ trimSlashes_append file only
  rw [contractHome_of_beneath trimmed file boundary, expandTilde_of_tilde boundary]

/-- An absolute path that is contracted and expanded is the same again, unless the home directory is spelled with
slashes behind its last name and the path lies in it. Then the home directory as it is spelled stands in front of the
rest of the path. In either case the path leads through the same names. -/
theorem expandTilde_contractHome (given : env.get? (utf8 "HOME") = some home) (typed : home ≠ [])
    (absolute : isAbsolute path) :
    let shown := env.expandTilde (env.contractHome path)
    (shown = path ↔ hasFileName home ∨ hasNames home = false ∨ ¬ Beneath (dropSlashes home) path) ∧
    (hasNames home → ∀ rest, path = dropSlashes home ++ rest → rest = [] ∨ rest.head? = some slash →
      shown = home ++ rest) ∧
    components shown = components path := by
  intro shown
  have spelled : env.home = home := home_eq given typed
  by_cases named : hasNames home
  · obtain ⟨stem, slashes, rfl, file, only⟩ := Path.exists_stem named
    have trimmed : trimSlashes env.home = stem := spelled ▸ trimSlashes_append file only
    have inside : ∀ rest, path = stem ++ rest → rest = [] ∨ rest.head? = some slash →
        shown = stem ++ slashes ++ rest := by
      rintro rest rfl boundary
      exact spelled ▸ expandTilde_contractHome_of_beneath spelled file only boundary
    rw [Path.dropSlashes_append_slashes only, Path.dropSlashes_of_hasFileName file,
      Path.hasFileName_append_iff file only]
    by_cases beneath : Beneath stem path
    · obtain ⟨rest, divided, boundary⟩ := beneath
      have back := inside rest divided boundary
      refine ⟨?_, fun _ => inside, ?_⟩
      · rw [back, divided, List.append_left_inj, List.append_right_eq_self, named]
        have within : Beneath stem (stem ++ rest) := ⟨rest, rfl, boundary⟩
        simp [within]
      · rw [back, divided, Path.components_append_slashes only boundary]
    · have same : shown = path := by
        change env.expandTilde (env.contractHome path) = path
        rw [contractHome_of_not_beneath (trimmed ▸ beneath), expandTilde_of_absolute absolute]
      exact ⟨iff_of_true same (.inr (.inr beneath)), fun _ => inside, congrArg components same⟩
  · have only : hasNames home = false := eq_false_of_ne_true named
    have same : shown = path := by
      change env.expandTilde (env.contractHome path) = path
      rw [contractHome_of_root (spelled ▸ trimSlashes_of_slashes only typed), expandTilde_of_absolute absolute]
    exact ⟨iff_of_true same (.inr (.inl only)), fun named' => absurd named' named, congrArg components same⟩

/-- One home directory without slashes at its end and one with two. -/
theorem expandTilde_contractHome_notes :
    let plain : Environment := { entries := [(utf8 "HOME", utf8 "/home/ada")] }
    let slashed : Environment := { entries := [(utf8 "HOME", utf8 "/home/ada//")] }
    plain.expandTilde (plain.contractHome (utf8 "/home/ada/notes")) = utf8 "/home/ada/notes" ∧
      slashed.expandTilde (slashed.contractHome (utf8 "/home/ada/notes")) = utf8 "/home/ada///notes" ∧
      components (utf8 "/home/ada///notes") = components (utf8 "/home/ada/notes") := by
  intro plain slashed
  obtain ⟨same, _, _⟩ := @expandTilde_contractHome plain (utf8 "/home/ada") (utf8 "/home/ada/notes") (by decide)
    (by decide) (by decide)
  obtain ⟨_, inside, names⟩ := @expandTilde_contractHome slashed (utf8 "/home/ada//") (utf8 "/home/ada/notes")
    (by decide) (by decide) (by decide)
  have back := inside (by decide) (utf8 "/notes") (by decide) (.inr (by decide))
  rw [back] at names
  exact ⟨same.mpr (.inl (by decide)), back, names⟩

/-- Slashes at the end of the home directory turn up inside the path. -/
theorem expandTilde_contractHome_slashed :
    ¬ ∀ (env : Environment) (home path : Bytes), env.get? (utf8 "HOME") = some home → home ≠ [] → isAbsolute path →
      env.expandTilde (env.contractHome path) = path := by
  intro undone
  exact absurd (undone { entries := [(utf8 "HOME", utf8 "/home/ada/")] } (utf8 "/home/ada/") (utf8 "/home/ada/notes")
    (by decide) (by decide) (by decide)) (by decide)

end Environment

end ShellCompletion
