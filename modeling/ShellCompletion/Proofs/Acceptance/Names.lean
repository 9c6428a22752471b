import ShellCompletion.Listing
import ShellCompletion.Proofs.Line.Replacing

/-!
# File names on a command line

A name is typed in double quotes if it holds a byte that calls for them, and stands for itself either way
(`unquote_quoteIfNeeded`, `unquote_pathText`), so that a path to choose from stands for an entry of the directory as
typed (`unquote_pathCandidates`). In quotes it is one word. Without them it is one word unless it holds a line
break, since line breaks end words and do not call for quotes (`joins_pathText_iff`). So a path that is accepted is
read back as it stands exactly if it is quoted or holds no line break (`pathCandidates_read_back`).
-/
namespace ShellCompletion

namespace Quoting

theorem strip_append (q : Quoting) (s t : Bytes) : q.strip (s ++ t) = q.strip s ++ (q.after s).strip t := by
  induction s generalizing q with
  | nil => rfl
  | cons c rest ih =>
    rw [List.cons_append, strip, strip, show q.after (c :: rest) = (q.feed c).2.after rest from rfl]
    dsimp only
    split_ifs <;> simp [ih]

/-! ## Between double quotes -/

theorem feed_inDouble {c : UInt8} (plain : specialInDouble c = false) : double.feed c = (.quoted, double) := by
  have escape : c ≠ '\\'.toUInt8 := Bytes.ne_of_test plain (by decide)
  have quote : c ≠ '"'.toUInt8 := Bytes.ne_of_test plain (by decide)
  simp [feed, escape, quote]

/-- An escaped name stands for itself between double quotes, and stays between them as one word. -/
theorem read_escapeInDouble (name : Bytes) :
    double.after (escapeInDouble name) = double ∧ double.strip (escapeInDouble name) = name ∧
      double.Joins (escapeInDouble name) := by
  induction name with
  | nil => exact ⟨rfl, rfl, trivial⟩
  | cons c rest ih =>
    obtain ⟨after, strip_, joins⟩ := ih
    cases special : specialInDouble c with
    | true =>
      rw [escapeInDouble, if_pos special]
      refine ⟨after, ?_, by decide, ?_, joins⟩
      · change c :: double.strip (escapeInDouble rest) = c :: rest
        rw [strip_]
      · rintro ⟨plain, _⟩
        cases plain
    | false =>
      have fed := feed_inDouble special
      rw [escapeInDouble, if_neg (by simp [special])]
      refine ⟨?_, ?_, ?_⟩
      · rw [Quoting.after, List.foldl_cons, fed]
        exact after
      · simp [strip, fed, strip_]
      · simp [Joins, fed, joins]

/-! ## Outside quotes -/

theorem feed_unquoted {c : UInt8} (plain : needsQuoting c = false) : bare.feed c = (.plain, bare) := by
  have escape : c ≠ '\\'.toUInt8 := Bytes.ne_of_test plain (by decide)
  have double : c ≠ '"'.toUInt8 := Bytes.ne_of_test plain (by decide)
  have single : c ≠ '\''.toUInt8 := Bytes.ne_of_test plain (by decide)
  simp [feed, escape, double, single]

/-- A name in which nothing calls for quotes stands for itself without them, and is one word if no byte of it
    is a blank. -/
theorem read_unquoted {name : Bytes} (plain : ∀ c ∈ name, needsQuoting c = false) :
    bare.strip name = name ∧ (bare.Joins name ↔ ∀ c ∈ name, Bytes.isBlank c = false) := by
  induction name with
  | nil => simp [strip, Joins]
  | cons c rest ih =>
    obtain ⟨strip_, joins⟩ := ih fun d member => plain d (List.mem_cons_of_mem c member)
    have fed := feed_unquoted (plain c List.mem_cons_self)
    constructor
    · simp [strip, fed, strip_]
    · simp [Joins, fed, joins]

end Quoting

theorem isBlank_of_unquoted {c : UInt8} (plain : needsQuoting c = false) :
    Bytes.isBlank c ↔ c = '\n'.toUInt8 ∨ c = '\r'.toUInt8 := by
  constructor
  · intro blank
    rcases Bytes.eq_of_isBlank blank with rfl | rfl | line
    · exact absurd plain (by decide)
    · exact absurd plain (by decide)
    · exact line
  · rintro (rfl | rfl) <;> decide

/-! ## Names as they are typed -/

/-- The text is quoted or holds no line break. -/
def Bytes.StaysWhole (text : Bytes) : Prop :=
  '"'.toUInt8 ∈ text ∨ '\n'.toUInt8 ∉ text ∧ '\r'.toUInt8 ∉ text

instance (text : Bytes) : Decidable text.StaysWhole := inferInstanceAs (Decidable (_ ∨ _))

theorem quoteIfNeeded_cases (name : Bytes) :
    quoteIfNeeded name = '"'.toUInt8 :: (escapeInDouble name ++ ['"'.toUInt8]) ∨
      quoteIfNeeded name = name ∧ ∀ c ∈ name, needsQuoting c = false := by
  unfold quoteIfNeeded
  split_ifs with needed
  · exact .inl rfl
  · exact .inr ⟨rfl, by simpa using needed⟩

theorem unquote_quoteIfNeeded (name : Bytes) : unquote (quoteIfNeeded name) = name := by
  rcases quoteIfNeeded_cases name with quoted | ⟨same, plain⟩
  · obtain ⟨after, strip_, _⟩ := Quoting.read_escapeInDouble name
    rw [quoted, unquote]
    change Quoting.double.strip _ = name
    rw [Quoting.strip_append, after, strip_]
    exact List.append_nil name
  · rw [same, unquote, (Quoting.read_unquoted plain).1]

theorem joins_quoteIfNeeded_iff (name : Bytes) :
    Quoting.bare.Joins (quoteIfNeeded name) ↔ Bytes.StaysWhole (quoteIfNeeded name) := by
  rcases quoteIfNeeded_cases name with quoted | ⟨same, plain⟩
  · obtain ⟨after, _, joins⟩ := Quoting.read_escapeInDouble name
    have whole : Quoting.double.Joins (escapeInDouble name ++ ['"'.toUInt8]) := by
      rw [Quoting.joins_append, after]
      exact ⟨joins, by decide, trivial⟩
    rw [quoted]
    exact iff_of_true ⟨by decide, whole⟩ (.inl List.mem_cons_self)
  · have quote : '"'.toUInt8 ∉ name := fun member => absurd (plain _ member) (by decide)
    rw [same, (Quoting.read_unquoted plain).2, Bytes.StaysWhole]
    constructor
    · intro words
      exact .inr ⟨fun member => absurd (words _ member) (by decide), fun member => absurd (words _ member) (by decide)⟩
    · rintro (quoted | ⟨feed, return_⟩) c member
      · exact absurd quoted quote
      · by_contra blank
        rcases (isBlank_of_unquoted (plain c member)).mp (by simpa using blank) with rfl | rfl
        · exact feed member
        · exact return_ member

/-- No operator starts a name as it is typed. -/
theorem apart_quoteIfNeeded (name : Bytes) : Redirect.Apart (quoteIfNeeded name) := by
  intro c first
  rcases quoteIfNeeded_cases name with quoted | ⟨same, plain⟩
  · rw [quoted, List.dropWhile_cons_of_neg (by decide)] at first
    obtain rfl := Option.some.inj first
    decide
  · rw [same] at first
    have member : c ∈ name := (List.dropWhile_suffix _).subset (List.mem_of_head? first)
    have plain := plain c member
    exact ⟨Bytes.ne_of_test plain (by decide), Bytes.ne_of_test plain (by decide), Bytes.ne_of_test plain (by decide)⟩

/-! ## Paths as they are typed -/

theorem pathText_eq (display name : Bytes) (isDirectory : Bool) :
    ∃ lead rest, (lead = [] ∨ lead = utf8 "~/") ∧
      display ++ (name ++ if isDirectory then [Path.slash] else []) = lead ++ rest ∧
      pathText display name isDirectory = lead ++ quoteIfNeeded rest := by
  unfold pathText
  generalize name ++ (if isDirectory then [Path.slash] else []) = tail
  dsimp only
  split_ifs with tilde
  · obtain ⟨below, rfl⟩ := List.isPrefixOf_iff_prefix.mp tilde
    exact ⟨utf8 "~/", below ++ tail, .inr rfl, List.append_assoc _ _ _, rfl⟩
  · exact ⟨[], display ++ tail, .inl rfl, rfl, rfl⟩

variable {display name : Bytes} {isDirectory : Bool}

theorem unquote_tilde (text : Bytes) : unquote (utf8 "~/" ++ text) = utf8 "~/" ++ unquote text := by
  rw [unquote, Quoting.strip_append]
  rfl

theorem unquote_pathText (display name : Bytes) (isDirectory : Bool) :
    unquote (pathText display name isDirectory) = display ++ (name ++ if isDirectory then [Path.slash] else []) := by
  obtain ⟨lead, rest, front, same, text⟩ := pathText_eq display name isDirectory
  rw [text, same]
  rcases front with rfl | rfl
  · exact unquote_quoteIfNeeded rest
  · rw [unquote_tilde, unquote_quoteIfNeeded]

theorem pathText_ne_nil (named : name ≠ []) : pathText display name isDirectory ≠ [] := by
  intro empty
  have plain := unquote_pathText display name isDirectory
  rw [empty, show unquote [] = [] from rfl] at plain
  simp [named] at plain

theorem apart_pathText (display name : Bytes) (isDirectory : Bool) :
    Redirect.Apart (pathText display name isDirectory) := by
  obtain ⟨lead, rest, front, _, text⟩ := pathText_eq display name isDirectory
  rw [text]
  rcases front with rfl | rfl
  · exact apart_quoteIfNeeded rest
  · intro c first
    obtain rfl := Option.some.inj first
    decide

/-- A path as it is typed is one word if it is quoted or holds no line break. -/
theorem joins_pathText_iff (display name : Bytes) (isDirectory : Bool) :
    Quoting.bare.Joins (pathText display name isDirectory) ↔
      Bytes.StaysWhole (pathText display name isDirectory) := by
  obtain ⟨lead, rest, front, _, text⟩ := pathText_eq display name isDirectory
  rw [text]
  rcases front with rfl | rfl
  · exact joins_quoteIfNeeded_iff rest
  · have lead : Quoting.bare.Joins (utf8 "~/") := Quoting.joins_literal (by decide)
    have other : ∀ c, c ∉ utf8 "~/" → (c ∈ utf8 "~/" ++ quoteIfNeeded rest ↔ c ∈ quoteIfNeeded rest) :=
      fun c absent => by rw [List.mem_append, or_iff_right absent]
    rw [Quoting.joins_append, show Quoting.bare.after (utf8 "~/") = .bare from rfl, and_iff_right lead,
      joins_quoteIfNeeded_iff, Bytes.StaysWhole, Bytes.StaysWhole, other _ (by decide), other _ (by decide),
      other _ (by decide)]

/-! ## Candidates for a path -/

variable {context : PathContext} {filter : PathFilter} {current token : Bytes} {listings : Listings}

/-- The entries of the directory of a token, as they are known or read. -/
def PathContext.listed (context : PathContext) (current token : Bytes) (listings : Listings) : Except Bytes (List Entry) :=
  (Listings.list context.reader context.now (SplitToken.of context.environment current token).directory listings).1

/-- The candidates for a token are those of its directory's entries, in their order; a directory that cannot be read
    has none. -/
theorem pathCandidates_eq (context : PathContext) (filter : PathFilter) (current token : Bytes) (listings : Listings) :
    let split := SplitToken.of context.environment current token
    (pathCandidates context filter current token listings).1 =
      match context.listed current token listings with
      | .error _ => []
      | .ok entries => split.candidates context.settings filter entries := by
  unfold pathCandidates PathContext.listed
  dsimp only [bind, StateT.bind]
  rcases Listings.list context.reader context.now _ listings with ⟨error | entries, after⟩
  · rfl
  · rfl

theorem mem_pathCandidates {candidate : Candidate} :
    let split := SplitToken.of context.environment current token
    candidate ∈ (pathCandidates context filter current token listings).1 ↔
      ∃ entries, context.listed current token listings = .ok entries ∧ ∃ entry ∈ entries,
        entry.isShown context.settings split.namePart ∧ filter.passes entry ∧
          entry.candidate split.display = candidate := by
  intro split
  rw [pathCandidates_eq]
  cases context.listed current token listings with
  | error => simp
  | ok entries => simp [SplitToken.candidates, and_assoc, split]

/-- What is typed for a name stands for that name, also after a tilde and slash. So the candidates for a token stand
    for the entries of its directory, in their order: for the directory as typed, up to the last slash of the token,
    then the name of the entry, and a slash if it is a directory. -/
theorem unquote_pathCandidates :
    (∀ name, unquote (quoteIfNeeded name) = name) ∧
      (∀ name, unquote (utf8 "~/" ++ quoteIfNeeded name) = utf8 "~/" ++ name) ∧
      ∀ (context : PathContext) (filter : PathFilter) (current token : Bytes) (listings : Listings),
        let namePart := Bytes.afterLast Path.slash (unquote token)
        (pathCandidates context filter current token listings).1.map (unquote ·.text) =
          match context.listed current token listings with
          | .error _ => []
          | .ok entries =>
            (entries.filter fun entry => entry.isShown context.settings namePart && filter.passes entry).map fun entry =>
              Bytes.throughLast Path.slash (unquote token) ++
                (entry.name ++ if entry.kind = .directory then [Path.slash] else []) := by
  refine ⟨unquote_quoteIfNeeded, fun name => ?_, fun context filter current token listings => ?_⟩
  · rw [unquote_tilde, unquote_quoteIfNeeded]
  · intro namePart
    rw [pathCandidates_eq]
    cases context.listed current token listings with
    | error => rfl
    | ok entries =>
      dsimp only [SplitToken.candidates]
      rw [List.map_map]
      refine List.map_congr_left fun entry _ => ?_
      dsimp only [Function.comp_apply, Entry.candidate, Candidate.of]
      simp only [unquote_pathText, beq_iff_eq]
      rfl

/-- A path that is accepted in the place of the token under the cursor is read back as that token exactly if it
    is quoted or holds no line break. -/
theorem pathCandidates_read_back (database : Option Database) (line : Bytes) (context : PathContext)
    (filter : PathFilter) (current : Bytes) (listings : Listings)
    (named : ∀ entries, context.listed current (parse database line line.length).current listings = .ok entries →
      ∀ entry ∈ entries, entry.name ≠ []) :
    let parsed := parse database line line.length
    ∀ candidate ∈ (pathCandidates context filter current parsed.current listings).1,
      let accepted := line.take parsed.replaceStart ++ candidate.text
      let again := parse database accepted accepted.length
      (again.replaceStart = parsed.replaceStart ∧ again.current = candidate.text) ↔ candidate.text.StaysWhole := by
  intro parsed candidate member
  obtain ⟨entries, known, entry, listed, _, _, rfl⟩ := mem_pathCandidates.mp member
  dsimp only [Entry.candidate, Candidate.of]
  rw [← joins_pathText_iff]
  exact parse_replaced_iff database line line.length (apart_pathText _ _ _)
    (pathText_ne_nil (named entries known entry listed))

/-- A name with a blank in it is put in quotes and read back. -/
theorem pathCandidates_read_back_notes :
    let context : PathContext := ⟨{}, { entries := [] }, ⟨fun _ => .ok [⟨utf8 "my notes", .file⟩], id⟩, 0⟩
    let parsed := parse none (utf8 "cat my") 6
    (∀ entries, context.listed (utf8 "/work") parsed.current {} = .ok entries → ∀ entry ∈ entries, entry.name ≠ []) ∧
      ∃ candidate ∈ (pathCandidates context {} (utf8 "/work") parsed.current {}).1,
        let again := parse none (utf8 "cat \"my notes\"") 14
        candidate.text = utf8 "\"my notes\"" ∧ again.replaceStart = parsed.replaceStart ∧
          again.current = candidate.text := by
  intro context parsed
  have named : ∀ entries, context.listed (utf8 "/work") parsed.current {} = .ok entries →
      ∀ entry ∈ entries, entry.name ≠ [] := by
    intro entries known
    obtain rfl : [⟨utf8 "my notes", .file⟩] = entries := Except.ok.inj known
    decide
  have offered : Candidate.of .file (utf8 "\"my notes\"") ∈
      (pathCandidates context {} (utf8 "/work") parsed.current {}).1 := by decide +kernel
  have back := pathCandidates_read_back none (utf8 "cat my") context {} (utf8 "/work") {} named _ offered
  exact ⟨named, _, offered, rfl, back.mpr (by decide)⟩

/-- A name with a line break in it is typed as it stands and falls apart into two words. -/
theorem pathCandidates_line_break :
    let context : PathContext := ⟨{}, { entries := [] }, ⟨fun _ => .ok [⟨utf8 "a\nb", .file⟩], id⟩, 0⟩
    let parsed := parse none [] 0
    (pathCandidates context {} (utf8 "/work") parsed.current {}).1 = [.of .file (utf8 "a\nb")] ∧
      let accepted := List.take parsed.replaceStart [] ++ utf8 "a\nb"
      let again := parse none accepted accepted.length
      parsed.replaceStart = 0 ∧ again.replaceStart = 2 ∧ again.current = utf8 "b" := by
  decide +kernel

end ShellCompletion
