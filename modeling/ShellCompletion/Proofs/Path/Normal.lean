import Mathlib.Data.List.Basic
import Mathlib.Data.List.TakeWhile
import Mathlib.Tactic.SplitIfs
import ShellCompletion.Path.Basic
import ShellCompletion.Proofs.Bytes.Parts

namespace ShellCompletion

namespace Path

/-- What may stand between the slashes of a path. -/
structure IsPart (part : Bytes) : Prop where
  nonempty : part ≠ []
  whole : slash ∉ part

/-- The name of an entry other than the two that every directory has. -/
structure IsName (name : Bytes) : Prop where
  nonempty : name ≠ []
  whole : slash ∉ name
  ne_dot : name ≠ dot
  ne_dotDot : name ≠ dotDot

variable {base name path : Bytes}

theorem IsPart.hasFileName_append (isPart : IsPart name) (front : Bytes) : hasFileName (front ++ name) := by
  have nonempty := isPart.nonempty
  rw [hasFileName, List.getLast?_append_of_ne_nil _ nonempty, List.getLast?_eq_some_getLast nonempty]
  have member := List.getLast_mem nonempty
  simpa using fun same : name.getLast nonempty = slash => isPart.whole (same ▸ member)

namespace IsName

theorem not_absolute (isName : IsName name) : isAbsolute name = false := by
  by_contra absolute
  obtain ⟨rest, rfl⟩ := List.head?_eq_some_iff.mp (by simpa [isAbsolute] using absolute)
  exact isName.whole List.mem_cons_self

theorem isPart (isName : IsName name) : IsPart name := ⟨isName.nonempty, isName.whole⟩

theorem hasNames_append (isName : IsName name) (front rest : Bytes) : hasNames (front ++ name ++ rest) := by
  obtain ⟨c, more, rfl⟩ := List.exists_cons_of_ne_nil isName.nonempty
  have other : c ≠ slash := fun same => isName.whole (same ▸ List.mem_cons_self)
  simp [hasNames, other]

theorem names_eq (isName : IsName name) : names name = [name] := by
  rw [names, parts, Bytes.fields_of_not_mem isName.whole]
  simp [isName.nonempty]

end IsName

theorem isAbsolute_append_of_ne_nil (typed : path ≠ []) (rest : Bytes) :
    isAbsolute (path ++ rest) = isAbsolute path := by
  obtain ⟨c, more, rfl⟩ := List.exists_cons_of_ne_nil typed
  rfl

theorem isAbsolute_append (absolute : isAbsolute base) (path : Bytes) : isAbsolute (append base path) := by
  have typed : base ≠ [] := by rintro rfl; exact absurd absolute (by decide)
  unfold append
  split_ifs with own
  · exact own
  · rwa [isAbsolute_append_of_ne_nil typed]
  · rwa [isAbsolute_append_of_ne_nil typed]

theorem append_append (typed : path ≠ []) (base rest : Bytes) :
    append base (path ++ rest) = append base path ++ rest := by
  rw [append, append, isAbsolute_append_of_ne_nil typed]
  split_ifs <;> simp

theorem append_name (isName : IsName name) (front : Bytes) :
    append (front ++ [slash]) name = front ++ [slash] ++ name := by
  simp [append, isName.not_absolute, hasFileName]

theorem names_append_slash (path : Bytes) : names (path ++ [slash]) = names path := by
  rw [names, parts, Bytes.fields_append, List.filter_append]
  exact List.append_nil _

/-- The entry as seen from the directory is the name alone, or stands after a slash. -/
theorem append_cases (isName : IsName name) (base : Bytes) :
    append base name = name ∧ names base = [] ∨
      ∃ front, append base name = front ++ slash :: name ∧ names front = names base := by
  rw [append, isName.not_absolute, if_neg (by simp)]
  by_cases file : hasFileName base
  · exact .inr ⟨base, by rw [if_pos file], rfl⟩
  · rw [if_neg file]
    rcases List.eq_nil_or_concat base with rfl | ⟨front, c, rfl⟩
    · exact .inl ⟨rfl, rfl⟩
    · obtain rfl : c = slash := by simpa [hasFileName] using file
      rw [List.concat_eq_append, names_append_slash]
      exact .inr ⟨front, by simp, rfl⟩

theorem append_eq (isName : IsName name) (base : Bytes) : ∃ front, append base name = front ++ name := by
  rcases append_cases isName base with ⟨alone, _⟩ | ⟨front, after, _⟩
  · exact ⟨[], alone⟩
  · exact ⟨front ++ [slash], by simp [after]⟩

theorem names_append (isName : IsName name) (base : Bytes) : names (append base name) = names base ++ [name] := by
  rcases append_cases isName base with ⟨alone, empty⟩ | ⟨front, after, same⟩
  · rw [alone, empty, isName.names_eq, List.nil_append]
  · rw [after, ← same, names, parts, Bytes.fields_append, List.filter_append]
    exact congrArg (names front ++ ·) isName.names_eq

theorem fileName_append (isName : IsName name) (base : Bytes) : fileName (append base name) = name := by
  rcases append_cases isName base with ⟨alone, _⟩ | ⟨front, after, _⟩
  · rw [alone, fileName, Bytes.afterLast_of_not_mem isName.whole]
  · rw [after, fileName, Bytes.afterLast_append isName.whole]

theorem resolveDots_concat (absolute : Bool) (reached names : List Bytes) (isName : IsName name) :
    resolveDots absolute reached (names ++ [name]) = resolveDots absolute reached names ++ [name] := by
  induction names generalizing reached with
  | nil => simp [resolveDots, isName.ne_dot, isName.ne_dotDot]
  | cons first rest ih =>
    by_cases same : first = dot
    · simpa [resolveDots, same] using ih reached
    by_cases up : first = dotDot
    · have other : dotDot ≠ dot := by decide
      cases reached with
      | nil => simpa [resolveDots, other, up] using ih _
      | cons last before =>
        by_cases stays : last = dotDot
        · simpa [resolveDots, other, up, stays] using ih _
        · simpa [resolveDots, other, up, stays] using ih before
    · simpa [resolveDots, same, up] using ih (first :: reached)

theorem dropSlashes_concat (file : hasFileName path) : dropSlashes (path ++ [slash]) = path := by
  rcases List.eq_nil_or_concat path with rfl | ⟨front, c, rfl⟩
  · exact absurd file (by decide)
  · have other : c ≠ slash := by simpa [hasFileName] using file
    simp [dropSlashes, other]

end Path

namespace Directory

open ShellCompletion.Path (IsName slash)

variable {name : Bytes}

/-- The normal form of a path that ends in the name of an entry, also of one with a slash after it. -/
theorem normal_append (isName : IsName name) (rootOf : Bytes → Bytes) (root base : Bytes) :
    let front := if !root.isEmpty then rootOf root else []
    let normal := front ++ Bytes.join [slash] (Path.resolveDots (!root.isEmpty) [] (Path.names base) ++ [name])
    (⟨root, Path.append base name⟩ : Directory).normal rootOf = normal ∧
      (⟨root, Path.append base name ++ [slash]⟩ : Directory).normal rootOf = normal ++ [slash] := by
  obtain ⟨front, path⟩ := Path.append_eq isName base
  have named := isName.hasNames_append front []
  have named' := isName.hasNames_append front [slash]
  have file := Path.fileName_append isName base
  have file' : Path.fileName (Path.append base name ++ [slash]) = [] := Bytes.afterLast_append (by simp) _
  have names := Path.names_append isName base
  have names' : Path.names (Path.append base name ++ [slash]) = Path.names base ++ [name] := by
    rw [Path.names_append_slash, names]
  rw [List.append_nil, ← path] at named
  rw [← path] at named'
  constructor
  · simp [normal, named, names, Path.resolveDots_concat _ _ _ isName, Path.endsAtDirectory, file, isName.nonempty,
      isName.ne_dot, isName.ne_dotDot]
  · simp [normal, named', names', Path.resolveDots_concat _ _ _ isName, Path.endsAtDirectory, file',
      isName.ne_dotDot]

/-- A slash after the name of an entry makes no other directory of it. -/
theorem key_append_slash (isName : IsName name) (rootOf : Bytes → Bytes) (root base : Bytes) :
    (⟨root, Path.append base name ++ [slash]⟩ : Directory).key rootOf =
      (⟨root, Path.append base name⟩ : Directory).key rootOf := by
  obtain ⟨normal, normal'⟩ := normal_append isName rootOf root base
  obtain ⟨more, joined⟩ := Bytes.join_concat [slash] (Path.resolveDots (!root.isEmpty) [] (Path.names base)) name
  rw [joined, ← List.append_assoc] at normal normal'
  have file := isName.isPart.hasFileName_append ((if !root.isEmpty then rootOf root else []) ++ more)
  have named := isName.hasNames_append ((if !root.isEmpty then rootOf root else []) ++ more) [slash]
  have closed (front : Bytes) : Path.hasFileName (front ++ [slash]) = false := by simp [Path.hasFileName]
  simp only [key, normal, normal', file, closed, named, Path.dropSlashes_concat file]
  rfl

theorem append_of_absolute {path : Bytes} (absolute : Path.isAbsolute path) (base : Directory) :
    base.append path = ofPath path := if_pos absolute

theorem append_of_relative {path : Bytes} (relative : Path.isAbsolute path = false) (base : Directory) :
    base.append path = ⟨base.root, Path.append base.path path⟩ := if_neg (by simp [relative])

theorem append_path (base : Directory) (path : Bytes) : (base.append path).path = Path.append base.path path := by
  unfold append Path.append
  split_ifs <;> rfl

theorem append_name (isName : IsName name) (base : Directory) :
    base.append (name ++ [slash]) = ⟨base.root, Path.append base.path name ++ [slash]⟩ := by
  have relative := Path.isAbsolute_append_of_ne_nil isName.nonempty [slash]
  rw [isName.not_absolute] at relative
  rw [append_of_relative relative, Path.append_append isName.nonempty]

/-- The directory of a name behind a slash lies in the directory up to that slash. Where the path is absolute, it
    has a root of its own. -/
theorem append_below (isName : IsName name) (base : Directory) (front : Bytes) :
    let directory := base.append (front ++ [slash] ++ (name ++ [slash]))
    directory.path = Path.append (base.append (front ++ [slash])).path name ++ [slash] ∧
      (directory.root = base.root ∨ directory = ofPath directory.path) := by
  have typed : front ++ [slash] ≠ [] := by simp
  have same := Path.isAbsolute_append_of_ne_nil typed (name ++ [slash])
  cases absolute : Path.isAbsolute (front ++ [slash]) with
  | true =>
    rw [absolute] at same
    rw [append_of_absolute same, append_of_absolute absolute]
    refine ⟨?_, .inr rfl⟩
    dsimp only [ofPath]
    rw [Path.append_name isName, ← List.append_assoc]
  | false =>
    have relative : front ≠ [] := by rintro rfl; exact absurd absolute (by decide)
    rw [absolute] at same
    rw [append_of_relative same, append_of_relative absolute]
    refine ⟨?_, .inl rfl⟩
    dsimp only
    rw [Path.append_append typed, Path.append_append relative, Path.append_name isName, ← List.append_assoc]

theorem ofPath_root {path : Bytes} (named : Path.hasNames path) :
    (ofPath path).root = if Path.isAbsolute path then [slash] else [] := by
  rw [ofPath, named]
  rfl

theorem isAbsolute_of_root {path : Bytes} (rooted : (ofPath path).root = [slash]) : Path.isAbsolute path := by
  unfold ofPath at rooted
  dsimp only at rooted
  split_ifs at rooted with named absolute
  · rw [rooted]
    rfl
  · exact absolute

theorem ofPath_key_append_slash (isName : IsName name) (rootOf : Bytes → Bytes) (base : Bytes) :
    (ofPath (Path.append base name ++ [slash])).key rootOf = (ofPath (Path.append base name)).key rootOf := by
  obtain ⟨front, path⟩ := Path.append_eq isName base
  have named := isName.hasNames_append front []
  have named' := isName.hasNames_append front [slash]
  have typed : Path.append base name ≠ [] := by simp [path, isName.nonempty]
  rw [List.append_nil, ← path] at named
  rw [← path] at named'
  have root : (ofPath (Path.append base name ++ [slash])).root = (ofPath (Path.append base name)).root := by
    rw [ofPath_root named, ofPath_root named', Path.isAbsolute_append_of_ne_nil typed]
  have key := key_append_slash isName rootOf (ofPath (Path.append base name)).root base
  rw [← root] at key
  exact key.trans (by rw [root]; rfl)

end Directory
end ShellCompletion
