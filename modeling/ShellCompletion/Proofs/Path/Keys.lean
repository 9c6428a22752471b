import Mathlib.Data.List.Induction
import ShellCompletion.Proofs.Listings.Answers
import ShellCompletion.Proofs.Path.Normal

/-!
# Spellings of one directory

An absolute path leads from the root through its parts, of which some lead nowhere and some lead back
(`Path.components`). Where slashes name one root, the key of such a path is that root with the names behind it
(`Directory.key_of_absolute`), from which the names are read back (`Path.components_ofNames`). So spellings share a
listing exactly if they lead to the same names (`Directory.key_spelled`).
-/
namespace ShellCompletion

namespace Path

variable {reached list : List Bytes} {part path : Bytes}

/-- One part further: an empty part and one dot lead nowhere, and two dots lead back over the last name, if there is
    one. -/
def follow (reached : List Bytes) (part : Bytes) : List Bytes :=
  if part = [] ∨ part = dot then reached
  else if part = dotDot then reached.dropLast
  else reached ++ [part]

/-- The names that an absolute path leads to. -/
def components (path : Bytes) : List Bytes := (parts path).foldl follow []

/-- The path from the root through the names. -/
def ofNames (names : List Bytes) : Bytes := slash :: Bytes.join [slash] names

theorem follow_isName (all : ∀ name ∈ reached, IsName name) (whole : slash ∉ part) :
    ∀ name ∈ follow reached part, IsName name := by
  unfold follow
  split_ifs with stays back
  · exact all
  · exact fun name member => all name (List.dropLast_subset reached member)
  · intro name member
    rcases List.mem_append.mp member with earlier | last
    · exact all name earlier
    · obtain ⟨nonempty, ne_dot⟩ := not_or.mp stays
      exact List.mem_singleton.mp last ▸ ⟨nonempty, whole, ne_dot, back⟩

theorem foldl_follow_isName {parts : List Bytes} (all : ∀ name ∈ reached, IsName name)
    (whole : ∀ part ∈ parts, slash ∉ part) : ∀ name ∈ parts.foldl follow reached, IsName name := by
  induction parts generalizing reached with
  | nil => exact all
  | cons part rest ih =>
    exact ih (follow_isName all (whole part List.mem_cons_self))
      fun later member => whole later (List.mem_cons_of_mem part member)

theorem components_isName (path : Bytes) : ∀ name ∈ components path, IsName name :=
  foldl_follow_isName (fun _ member => nomatch member) fun _ => Bytes.not_mem_of_mem_fields

theorem foldl_follow_of_isName (all : ∀ name ∈ list, IsName name) : list.foldl follow reached = reached ++ list := by
  induction list generalizing reached with
  | nil => simp
  | cons name rest ih =>
    have isName := all name List.mem_cons_self
    have step : follow reached name = reached ++ [name] := by
      simp [follow, isName.nonempty, isName.ne_dot, isName.ne_dotDot]
    rw [List.foldl_cons, step, ih fun later member => all later (List.mem_cons_of_mem name member)]
    simp

/-- Resolving the dots of names from the root, where two dots are never reached, is following them. -/
theorem resolveDots_eq_foldl {parts : List Bytes} (nonempty : ∀ part ∈ parts, part ≠ []) (plain : dotDot ∉ reached) :
    resolveDots true reached parts = parts.foldl follow reached.reverse := by
  induction parts generalizing reached with
  | nil => rfl
  | cons part rest ih =>
    have typed := nonempty part List.mem_cons_self
    replace ih {reached : List Bytes} :=
      @ih reached fun later member => nonempty later (List.mem_cons_of_mem part member)
    rw [List.foldl_cons]
    by_cases here : part = dot
    · simpa [resolveDots, follow, here] using ih plain
    by_cases up : part = dotDot
    · have apart : dotDot ≠ dot := by decide
      rw [up] at typed ⊢
      cases reached with
      | nil => simpa [resolveDots, follow, apart, typed] using ih plain
      | cons last before =>
        obtain ⟨other, plain⟩ := not_or.mp (mt List.mem_cons.mpr plain)
        simpa [resolveDots, follow, apart, typed, Ne.symm other] using ih plain
    · have fresh : dotDot ∉ part :: reached := by simp [plain, Ne.symm up]
      simpa [resolveDots, follow, here, up, typed] using ih fresh

theorem foldl_follow_filter (reached parts : List Bytes) :
    (parts.filter (!·.isEmpty)).foldl follow reached = parts.foldl follow reached := by
  induction parts generalizing reached with
  | nil => rfl
  | cons part rest ih =>
    cases part with
    | nil => exact ih reached
    | cons c more => exact ih _

theorem resolveDots_names (path : Bytes) : resolveDots true [] (names path) = components path := by
  have nonempty : ∀ name ∈ names path, name ≠ [] := by simp [names]
  rw [resolveDots_eq_foldl nonempty (by simp)]
  exact foldl_follow_filter [] (parts path)

theorem components_of_slashes (slashes : hasNames path = false) : components path = [] := by
  have none_ : names path = [] := by
    induction path with
    | nil => rfl
    | cons c rest ih =>
      obtain ⟨first, rest_⟩ : c = slash ∧ hasNames rest = false := by simpa [hasNames] using slashes
      rw [names, parts, Bytes.fields, if_pos first]
      exact ih rest_
  rw [← resolveDots_names, none_]
  rfl

theorem ofNames_cons (name : Bytes) (rest : List Bytes) :
    ofNames (name :: rest) = ((name :: rest).map ([slash] ++ ·)).flatten := by
  rw [ofNames, Bytes.join_cons]
  rfl

theorem parts_flatten (whole : ∀ name ∈ list, slash ∉ name) :
    parts (list.map ([slash] ++ ·)).flatten = [] :: list := by
  induction list using List.reverseRecOn with
  | nil => rfl
  | append_singleton front last ih =>
    have earlier := ih fun name member => whole name (List.mem_append_left _ member)
    have alone := Bytes.fields_of_not_mem (whole last (by simp))
    rw [parts] at earlier ⊢
    rw [List.map_append, List.flatten_append, List.map_singleton, List.flatten_singleton, List.singleton_append,
      Bytes.fields_append, earlier, alone, List.cons_append]

theorem components_ofNames (all : ∀ name ∈ list, IsName name) : components (ofNames list) = list := by
  cases list with
  | nil => rfl
  | cons name rest =>
    rw [components, ofNames_cons, parts_flatten fun name member => (all name member).whole]
    exact foldl_follow_of_isName all

theorem ofNames_injective {others : List Bytes} (all : ∀ name ∈ list, IsName name)
    (all' : ∀ name ∈ others, IsName name) (same : ofNames list = ofNames others) : list = others := by
  rw [← components_ofNames all, same, components_ofNames all']

theorem hasFileName_join (all : ∀ name ∈ list, IsName name) (typed : list ≠ []) (front : Bytes) :
    hasFileName (front ++ Bytes.join [slash] list) := by
  rcases List.eq_nil_or_concat list with rfl | ⟨earlier, last, rfl⟩
  · exact absurd rfl typed
  · have isName := all last (by simp)
    obtain ⟨more, joined⟩ := Bytes.join_concat [slash] earlier last
    rw [List.concat_eq_append, joined, ← List.append_assoc]
    exact isName.isPart.hasFileName_append _

theorem hasNames_append_of_hasFileName (file : hasFileName path) (rest : Bytes) : hasNames (path ++ rest) := by
  obtain ⟨front, c, rfl⟩ := (List.eq_nil_or_concat path).resolve_left (by rintro rfl; exact absurd file (by decide))
  have other : c ≠ slash := by simpa [hasFileName] using file
  simp [hasNames, other]

end Path

/-- Slashes, however many, name one root. -/
def DirectoryReader.HasOneRoot (reader : DirectoryReader) : Prop :=
  ∀ slashes, slashes ≠ [] → Path.hasNames slashes = false → reader.rootOf slashes = [Path.slash]

namespace Directory

open ShellCompletion.Path (components hasNames ofNames slash)

variable {reader : DirectoryReader} {path : Bytes}

theorem ofPath_root_of_absolute (absolute : Path.isAbsolute path) :
    (ofPath path).root ≠ [] ∧ hasNames (ofPath path).root = false := by
  unfold ofPath
  cases named : hasNames path with
  | false =>
    refine ⟨?_, named⟩
    rintro rfl
    exact absurd absolute (by decide)
  | true =>
    rw [if_neg (by simp), if_pos absolute]
    exact ⟨List.cons_ne_nil _ _, rfl⟩

/-- The normal form is the root with the names behind it, and may have a slash behind those. -/
theorem normal_of_absolute (oneRoot : reader.HasOneRoot) (absolute : Path.isAbsolute path) :
    ∃ closing, (closing = [] ∨ closing = [slash] ∧ components path ≠ []) ∧
      (ofPath path).normal reader.rootOf = ofNames (components path) ++ closing := by
  obtain ⟨typed, slashes⟩ := ofPath_root_of_absolute absolute
  have rooted : (!(ofPath path).root.isEmpty) = true := by simpa using typed
  have root := oneRoot _ typed slashes
  have itself : (ofPath path).path = path := rfl
  unfold normal
  simp only [itself, rooted, root, Path.resolveDots_names, Bool.not_true, Bool.false_eq_true, if_true, if_false,
    Bool.false_and]
  cases named : hasNames path with
  | false =>
    rw [Path.components_of_slashes named]
    exact ⟨[], .inl rfl, rfl⟩
  | true =>
    refine ⟨_, ?_, rfl⟩
    split_ifs with ends
    · exact .inr ⟨rfl, by rintro empty; simp [empty] at ends⟩
    · exact .inl rfl

/-- The normal form ends in a slash in just those cases in which it is taken off. -/
theorem key_of_absolute (oneRoot : reader.HasOneRoot) (absolute : Path.isAbsolute path) :
    (ofPath path).key reader.rootOf = ofNames (components path) := by
  have all := Path.components_isName path
  obtain ⟨closing, closes, normal⟩ := normal_of_absolute oneRoot absolute
  rw [key, normal]
  rcases closes with rfl | ⟨rfl, typed⟩
  · rw [List.append_nil]
    cases empty : components path with
    | nil => rfl
    | cons first rest =>
      have file := Path.hasFileName_join (empty ▸ all) (List.cons_ne_nil first rest) [slash]
      rw [ofNames, ← List.singleton_append, file]
      rfl
  · have file : Path.hasFileName (ofNames (components path)) := Path.hasFileName_join all typed [slash]
    have closed : Path.hasFileName (ofNames (components path) ++ [slash]) = false := by simp [Path.hasFileName]
    rw [closed, Path.hasNames_append_of_hasFileName file, Path.dropSlashes_concat file]
    rfl

/-- Where slashes name one root, an absolute path is listed under one slash and the names that it leads to with slashes
between them, without one at the end. Spellings share a listing exactly if they lead to the same names, and the spelling
of the listing is its own. -/
theorem key_spelled (oneRoot : reader.HasOneRoot) (absolute : Path.isAbsolute path) :
    let key := ofNames (components path)
    (ofPath path).key reader.rootOf = key ∧
      (∀ now listings, Listings.list reader now (ofPath path) listings = Listings.load reader now key listings) ∧
      (components path ≠ [] → Path.hasFileName key) ∧
      (∀ other, Path.isAbsolute other →
        ((ofPath other).key reader.rootOf = (ofPath path).key reader.rootOf ↔ components other = components path)) ∧
      (ofPath key).key reader.rootOf = key := by
  intro key
  have all := Path.components_isName path
  have spelled : (ofPath path).key reader.rootOf = key := key_of_absolute oneRoot absolute
  refine ⟨spelled, fun now listings => ?_, fun typed => Path.hasFileName_join all typed [slash],
    fun other absolute' => ?_, ?_⟩
  · rw [Listings.list_eq_load, spelled]
  · rw [spelled, key_of_absolute oneRoot absolute']
    exact ⟨Path.ofNames_injective (Path.components_isName other) all, congrArg ofNames⟩
  · have again : Path.isAbsolute key := rfl
    rw [key_of_absolute oneRoot again]
    exact congrArg ofNames (Path.components_ofNames all)

/-- A path with dots and a slash at its end, and the root spelled by two slashes. -/
theorem key_spelled_work :
    let reader : DirectoryReader := ⟨fun _ => .ok [], fun _ => [slash]⟩
    reader.HasOneRoot ∧ Path.isAbsolute (utf8 "/work/sub/.././") ∧
      components (utf8 "/work/sub/.././") = [utf8 "work"] ∧
      (∀ now listings, Listings.list reader now (ofPath (utf8 "/work/sub/.././")) listings =
        Listings.load reader now (utf8 "/work") listings) ∧
      (ofPath (utf8 "/work/sub/.././")).key reader.rootOf = (ofPath (utf8 "//work")).key reader.rootOf ∧
      (ofPath (utf8 "//")).key reader.rootOf = utf8 "/" := by
  intro reader
  have oneRoot : reader.HasOneRoot := fun _ _ _ => rfl
  have absolute : Path.isAbsolute (utf8 "/work/sub/.././") := by decide +kernel
  obtain ⟨_, listed, _, shared, _⟩ := key_spelled oneRoot absolute
  obtain ⟨root, _⟩ := key_spelled oneRoot (show Path.isAbsolute (utf8 "//") from by decide)
  have names : ofNames (components (utf8 "/work/sub/.././")) = utf8 "/work" := by decide +kernel
  refine ⟨oneRoot, absolute, by decide +kernel, fun now listings => ?_, Eq.symm ?_, root⟩
  · rw [listed, names]
  · exact (shared (utf8 "//work") (by decide +kernel)).mpr (by decide +kernel)

end Directory

end ShellCompletion
