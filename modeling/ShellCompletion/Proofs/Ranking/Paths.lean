import ShellCompletion.Proofs.Acceptance.Names
import ShellCompletion.Proofs.Path.Normal
import ShellCompletion.Proofs.Ranking.Distinct
import ShellCompletion.Proofs.Ranking.Matching

/-!
# Offered paths

What is compared of an offered path is the directory as typed with the name of the entry behind it, whatever quotes
and slashes the text has (`plainText_pathText`). So a path counts under the name of its entry, and none of them is
lost as a repetition where the names are distinct (`deduplicate_pathCandidates`). And since the directory is the same
on both sides, a path matches the token as the name matches what has been typed of a name
(`Settings.matchesStart_append`, `Settings.matchesScattered_append`): what is offered also ranks as a match
(`pathCandidates_tier`).
-/
namespace ShellCompletion

open ShellCompletion.Path (IsPart slash)

namespace Path

theorem dropSlash_begins (text : Bytes) : dropSlash text <+: text := by
  unfold dropSlash
  split_ifs
  · exact List.dropLast_prefix text
  · exact List.prefix_rfl

theorem dropSlash_of_file {path : Bytes} (file : hasFileName path) : dropSlash path = path := by
  refine if_neg fun ⟨_, closed⟩ => ?_
  rw [hasFileName, closed] at file
  exact absurd file (by decide)

theorem dropSlash_concat {path : Bytes} (nonempty : path ≠ []) : dropSlash (path ++ [slash]) = path := by
  have long : 1 < (path ++ [slash]).length := by
    have := List.length_pos_iff.mpr nonempty
    rw [List.length_append, List.length_singleton]
    omega
  rw [dropSlash, if_pos ⟨long, List.getLast?_concat⟩, List.dropLast_concat]

theorem baseName_append {display name : Bytes} (isPart : IsPart name)
    (closed : display = [] ∨ ∃ front, display = front ++ [slash]) : baseName (display ++ name) = name := by
  have last : Bytes.afterLast slash (display ++ name) = name := by
    rcases closed with rfl | ⟨front, rfl⟩
    · exact Bytes.afterLast_of_not_mem isPart.whole
    · rw [List.append_assoc]
      exact Bytes.afterLast_append isPart.whole front
  rw [baseName, dropSlash_of_file (isPart.hasFileName_append display), last]
  simp [isPart.nonempty]

end Path

theorem plainText_pathText {display name : Bytes} {isDirectory : Bool} (isPart : IsPart name) :
    plainText (pathText display name isDirectory) = display ++ name := by
  rw [plainText, unquote_pathText]
  cases isDirectory with
  | true => rw [if_pos rfl, ← List.append_assoc, Path.dropSlash_concat (by simp [isPart.nonempty])]
  | false => rw [if_neg (by simp), List.append_nil, Path.dropSlash_of_file (isPart.hasFileName_append display)]

theorem EntryKind.category_isPathLike (kind : EntryKind) : kind.category.isPathLike := by
  cases kind <;> rfl

theorem Entry.key_candidate {entry : Entry} (isPart : IsPart entry.name) (path : Bytes) :
    (entry.candidate (Bytes.throughLast slash path)).key = entry.name := by
  dsimp only [Candidate.key, Entry.candidate, Candidate.of]
  rw [if_pos entry.kind.category_isPathLike, plainText_pathText isPart,
    Path.baseName_append isPart (Bytes.throughLast_cases slash path)]

/-- Where the names in a directory are distinct, none of the paths that are offered for a token is a repetition of
    another one. -/
theorem deduplicate_pathCandidates (context : PathContext) (filter : PathFilter) (current token : Bytes)
    (listings : Listings) (names : ∀ entries, context.listed current token listings = .ok entries →
      (entries.map Entry.name).Nodup ∧ ∀ entry ∈ entries, IsPart entry.name) :
    let offered := (pathCandidates context filter current token listings).1
    deduplicate offered = offered := by
  intro offered
  apply deduplicate_of_nodup
  rw [show offered = _ from pathCandidates_eq context filter current token listings]
  cases known : context.listed current token listings with
  | error => exact List.nodup_nil
  | ok entries =>
    obtain ⟨distinct, parts⟩ := names entries known
    have keys (shown : Entry → Bool) : (entries.filter shown).map
        (Candidate.key ∘ Entry.candidate (SplitToken.of context.environment current token).display) =
          (entries.filter shown).map Entry.name :=
      List.map_congr_left fun entry member => Entry.key_candidate (parts entry (List.mem_filter.mp member).1) _
    dsimp only [SplitToken.candidates]
    rw [List.map_map, keys]
    exact distinct.sublist (List.filter_sublist.map Entry.name)

/-- Names that differ in their quotes, blanks and backslashes only, behind a tilde that stays bare. -/
theorem deduplicate_pathCandidates_quotes :
    let entries : List Entry :=
      [⟨utf8 "a b", .file⟩, ⟨utf8 "'a b'", .directory⟩, ⟨utf8 "\"a b\"", .file⟩, ⟨utf8 "a\\ b", .executable⟩]
    let context : PathContext := ⟨{}, { entries := [] }, ⟨fun _ => .ok entries, id⟩, 0⟩
    let offered := (pathCandidates context {} (utf8 "/work") (utf8 "~/") {}).1
    (∀ listed, context.listed (utf8 "/work") (utf8 "~/") {} = .ok listed →
      (listed.map Entry.name).Nodup ∧ ∀ entry ∈ listed, IsPart entry.name) ∧
      deduplicate offered = offered ∧ offered.map Candidate.text =
        [utf8 "~/\"a b\"", utf8 "~/\"'a b'/\"", utf8 "~/\"\\\"a b\\\"\"", utf8 "~/\"a\\\\ b\""] := by
  intro entries context offered
  have names : ∀ listed, context.listed (utf8 "/work") (utf8 "~/") {} = .ok listed →
      (listed.map Entry.name).Nodup ∧ ∀ entry ∈ listed, IsPart entry.name := by
    intro listed known
    obtain rfl : entries = listed := Except.ok.inj known
    have parts : ∀ entry ∈ entries, entry.name ≠ [] ∧ slash ∉ entry.name := by decide
    exact ⟨by decide, fun entry member => ⟨(parts entry member).1, (parts entry member).2⟩⟩
  exact ⟨names, deduplicate_pathCandidates context {} (utf8 "/work") (utf8 "~/") {} names, by decide +kernel⟩

namespace Settings

variable {settings : Settings}

theorem matchesStart_append {typed : Bytes} (whole : slash ∉ typed) (display name : Bytes) :
    settings.matchesStart (display ++ name) (Path.dropSlash (display ++ typed)) ↔ settings.matchesStart name typed := by
  by_cases empty : typed = []
  · subst empty
    rw [List.append_nil]
    exact iff_of_true (matchesStart_of_begun ((Path.dropSlash_begins display).trans (List.prefix_append _ _)))
      (matchesStart_of_begun List.nil_prefix)
  · have part : IsPart typed := ⟨empty, whole⟩
    rw [Path.dropSlash_of_file (part.hasFileName_append display), matchesStart_iff, comparable_append,
      comparable_append, List.prefix_append_right_inj, ← matchesStart_iff]

/-- Behind the directory as typed a scattered name stays scattered. -/
theorem matchesScattered_append {name typed : Bytes} (scattered : settings.matchesScattered name typed)
    (display : Bytes) : settings.matchesScattered (display ++ name) (display ++ typed) := by
  rw [matchesScattered_iff] at scattered ⊢
  rw [comparable_append, comparable_append]
  exact scattered.append_left _

end Settings

/-- The path of an entry that is shown for a token matches the token, and from the start exactly if the name does. -/
theorem tierOf_candidate {settings : Settings} (env : Environment) (current token : Bytes) {entry : Entry}
    (isPart : IsPart entry.name) :
    let split := SplitToken.of env current token
    let tier := tierOf settings token (entry.candidate split.display).text
    (tier = .exact ∨ tier = .start ↔ settings.matchesStart entry.name split.namePart) ∧
      (entry.isShown settings split.namePart → tier ≠ .none) := by
  intro split tier
  have whole : slash ∉ split.namePart := Bytes.not_mem_afterLast slash (unquote token)
  have typed : plainText token = Path.dropSlash (split.display ++ split.namePart) :=
    congrArg Path.dropSlash (Bytes.throughLast_append_afterLast slash (unquote token)).symm
  have plain : plainText (entry.candidate split.display).text = split.display ++ entry.name :=
    plainText_pathText isPart
  constructor
  · rw [tierOf_start_iff, typed, plain, Settings.matchesStart_append whole]
  · intro shown none_
    obtain ⟨other, unscored⟩ := tierOf_none_iff.mp none_
    rw [typed, plain] at other unscored
    rw [Settings.matchesStart_append whole] at other
    obtain ⟨nonempty, scattered⟩ := (Settings.accepts_cases (Bool.and_eq_true_iff.mp shown).2).resolve_left other
    have part : IsPart split.namePart := ⟨nonempty, whole⟩
    rw [Path.dropSlash_of_file (part.hasFileName_append _), fuzzyScore_pos_iff] at unscored
    exact unscored ⟨by simp [nonempty], by simp [isPart.nonempty], Settings.matchesScattered_append scattered _⟩

/-- A path that is offered for a token also ranks as a match of the token: whole or from the start exactly if the
    name of its entry starts with what has been typed of a name, and else as a scattered one. -/
theorem pathCandidates_tier (context : PathContext) (filter : PathFilter) (current token : Bytes)
    (listings : Listings) (parts : ∀ entries, context.listed current token listings = .ok entries →
      ∀ entry ∈ entries, IsPart entry.name) :
    let split := SplitToken.of context.environment current token
    ∀ candidate ∈ (pathCandidates context filter current token listings).1,
      let tier := tierOf context.settings token candidate.text
      tier ≠ .none ∧ ∀ entries, context.listed current token listings = .ok entries →
        ∀ entry ∈ entries, entry.candidate split.display = candidate →
          (tier = .exact ∨ tier = .start ↔ context.settings.matchesStart entry.name split.namePart) := by
  intro split candidate member tier
  constructor
  · obtain ⟨entries, known, entry, listed, shown, _, rfl⟩ := mem_pathCandidates.mp member
    exact (tierOf_candidate context.environment current token (parts entries known entry listed)).2 shown
  · rintro entries known entry listed rfl
    exact (tierOf_candidate context.environment current token (parts entries known entry listed)).1

/-- A scattered query behind a directory and an open quote finds a name with a blank in it. -/
theorem pathCandidates_tier_notes :
    let settings : Settings := { fuzzyMatching := true }
    let context : PathContext := ⟨settings, { entries := [] }, ⟨fun _ => .ok [⟨utf8 "my notes", .directory⟩], id⟩, 0⟩
    let token := utf8 "\"../MT"
    let tier := tierOf settings token (utf8 "\"../my notes/\"")
    (∀ entries, context.listed (utf8 "/work") token {} = .ok entries → ∀ entry ∈ entries, IsPart entry.name) ∧
      (pathCandidates context {} (utf8 "/work") token {}).1 = [.of .directory (utf8 "\"../my notes/\"")] ∧
      tier ≠ .none ∧ ¬ (tier = .exact ∨ tier = .start) := by
  intro settings context token tier
  have parts : ∀ entries, context.listed (utf8 "/work") token {} = .ok entries →
      ∀ entry ∈ entries, IsPart entry.name := by
    intro entries known entry member
    obtain rfl : [⟨utf8 "my notes", .directory⟩] = entries := Except.ok.inj known
    obtain rfl := List.mem_singleton.mp member
    exact ⟨by decide, by decide⟩
  have offered : (pathCandidates context {} (utf8 "/work") token {}).1 =
      [.of .directory (utf8 "\"../my notes/\"")] := by decide +kernel
  obtain ⟨ranked, from_start⟩ := pathCandidates_tier context {} (utf8 "/work") token {} parts _
    (offered ▸ List.mem_singleton_self _)
  have other := (from_start _ rfl ⟨utf8 "my notes", .directory⟩ (List.mem_singleton_self _) (by decide +kernel)).not
  exact ⟨parts, offered, ranked, other.mpr (by decide)⟩

end ShellCompletion
