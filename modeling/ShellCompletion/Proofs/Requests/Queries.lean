import ShellCompletion.Engine
import ShellCompletion.Proofs.Requests.Steady

/-!
# What the handlers ask for

A handler asks for one of a few commands, with at most one word more, which may be typed
(`Handler.IsQuery`). The output of a command is cached under its directory and words with a separator between
them. Only the last word can have that separator in it, so in a directory without it no two of these commands
share a key (`outputKey_injective`).
-/
namespace ShellCompletion

namespace Handler

/-- The words that the commands of handlers start with. -/
def stems : List (List Bytes) :=
  [["ps", "-xo", "pid,%cpu,%mem,command"], ["getent", "passwd"],
    ["git", "branch", "--format=%(refname:short)", "--list"],
    ["git", "branch", "-r", "--format=%(refname:short)", "--list"], ["git", "remote"],
    ["pacman", "-Ssq"], ["apt-cache", "pkgnames"]].map (·.map utf8)

/-- The words are those of a command that a handler asks for. -/
def IsQuery (words : List Bytes) : Prop := ∃ stem ∈ stems, ∃ last : Option Bytes, words = stem ++ last.toList

theorem IsQuery.alone {stem : List Bytes} (known : stem ∈ stems) : IsQuery stem := ⟨stem, known, none, by simp⟩

theorem IsQuery.concat (stem : List Bytes) (known : stem ∈ stems) (last : Bytes) : IsQuery (stem ++ [last]) :=
  ⟨stem, known, some last, rfl⟩

/-- The property holds of actions that only return a value, and of one action after another if it holds of
    both. -/
structure Composes {σ : Type} (property : ∀ {α : Type}, StateM σ α → Prop) : Prop where
  pure : ∀ {α : Type} (value : α), property (pure value : StateM σ α)
  bind : ∀ {α β : Type} {first : StateM σ α} {next : α → StateM σ β}, property first →
    (∀ value, property (next value)) → property (first >>= next)

section
variable {σ : Type} {property : ∀ {α : Type}, StateM σ α → Prop} {ask : List Bytes → StateM σ (List Bytes)}

theorem packageQuery_isQuery (manager token : Bytes) : IsQuery (packageQuery manager token) := by
  unfold packageQuery
  split_ifs
  · exact .concat [utf8 "pacman", utf8 "-Ssq"] (by decide) _
  · exact .alone (by decide)
  · exact .concat [utf8 "apt-cache", utf8 "pkgnames"] (by decide) token

theorem branches_composed (composes : Composes property) (asks : ∀ words, IsQuery words → property (ask words))
    (localStart remoteStart : Bytes) : property (branches ask localStart remoteStart) := by
  have locals := asks _ (.concat [utf8 "git", utf8 "branch", utf8 "--format=%(refname:short)", utf8 "--list"]
    (by decide) (localStart ++ utf8 "*"))
  have remotes := asks _ (.concat [utf8 "git", utf8 "branch", utf8 "-r", utf8 "--format=%(refname:short)",
    utf8 "--list"] (by decide) (remoteStart ++ utf8 "*"))
  exact composes.bind locals fun _ => composes.bind remotes fun _ => composes.pure _

theorem branchCandidates_composed (composes : Composes property)
    (asks : ∀ words, IsQuery words → property (ask words)) (settings : Settings) (token : Bytes)
    (words : List Bytes) : property (branchCandidates ask settings token words) := by
  have remotes := asks [utf8 "git", utf8 "remote"] (.alone (by decide))
  unfold branchCandidates
  split
  · exact composes.pure []
  · split_ifs
    · exact branches_composed composes asks token token
    · exact composes.pure []
    · refine composes.bind remotes fun remotes => ?_
      split
      · exact composes.pure _
      · split_ifs
        · exact composes.pure []
        · exact composes.bind (branches_composed composes asks _ _) fun found => composes.pure _
      · exact composes.pure []

theorem candidates_composed (composes : Composes property)
    (asks : ∀ words, IsQuery words → property (ask words)) (settings : Settings) (parsed : ParsedLine)
    (handler : Handler) : property (handler.candidates ask settings parsed) := by
  unfold candidates
  dsimp only
  split
  · exact composes.bind (asks _ (.alone (by decide))) fun lines => composes.pure _
  · exact composes.bind (asks _ (.alone (by decide))) fun lines => composes.pure _
  · exact branchCandidates_composed composes asks settings parsed.current _
  · exact composes.bind (asks _ (packageQuery_isQuery _ _)) fun names => composes.pure _

/-- A handler's candidates depend on its commands' answers only. -/
theorem candidates_steady {ι : Type} {kind : ι → σ → Prop}
    (asks : ∀ words, IsQuery words → Steady kind fun _ => ask words) (settings : Settings) (parsed : ParsedLine)
    (handler : Handler) : Steady kind fun _ => handler.candidates ask settings parsed := by
  have composes : Composes fun {α} (action : StateM σ α) => Steady kind fun _ => action :=
    ⟨Steady.pure, fun first then_ => .bind first then_⟩
  exact candidates_composed composes asks settings parsed handler

end

end Handler

section
variable {separator : UInt8} {word word' rest rest' directory directory' : Bytes} {words words' : List Bytes}

theorem append_inj_of_free (free : separator ∉ word) (free' : separator ∉ word')
    (starts : ∀ byte ∈ rest.head?, byte = separator) (starts' : ∀ byte ∈ rest'.head?, byte = separator)
    (same : word ++ rest = word' ++ rest') : word = word' ∧ rest = rest' := by
  induction word generalizing word' with
  | nil =>
    cases word' with
    | nil => exact ⟨rfl, same⟩
    | cons byte word' =>
      have first : rest.head? = some byte := by simpa using congrArg List.head? same
      exact absurd (starts byte first ▸ List.mem_cons_self) free'
  | cons byte word ih =>
    cases word' with
    | nil =>
      have first : rest'.head? = some byte := by simpa using congrArg List.head? same.symm
      exact absurd (starts' byte first ▸ List.mem_cons_self) free
    | cons byte' word' =>
      obtain ⟨rfl, behind⟩ := List.cons.inj same
      obtain ⟨rfl, rest⟩ := ih (List.not_mem_of_not_mem_cons free) (List.not_mem_of_not_mem_cons free') behind
      exact ⟨rfl, rest⟩

/-- The words with a separator before each. -/
def separated (separator : UInt8) (words : List Bytes) : Bytes := words.flatMap (separator :: ·)

theorem separated_starts (separator : UInt8) (words : List Bytes) :
    ∀ byte ∈ (separated separator words).head?, byte = separator := by
  cases words with
  | nil => simp [separated]
  | cons => simp [separated, eq_comm]

/-- Where only a word after the stem can have the separator in it, one stem goes on as the other, and from
    the same stem the words are the same. -/
theorem separated_inj {stem stem' : List Bytes} {last last' : Option Bytes} (free : ∀ word ∈ stem, separator ∉ word)
    (free' : ∀ word ∈ stem', separator ∉ word)
    (same : separated separator (stem ++ last.toList) = separated separator (stem' ++ last'.toList)) :
    (stem <+: stem' ∨ stem' <+: stem) ∧ (stem = stem' → last = last') := by
  -- Word by word: each ends at its first separator, so the first words agree and the rest do.
  induction stem generalizing stem' with
  | nil =>
    refine ⟨.inl (List.nil_prefix), ?_⟩
    rintro rfl
    cases last <;> cases last' <;> simp_all [separated]
  | cons word stem ih =>
    cases stem' with
    | nil => exact ⟨.inr List.nil_prefix, fun equal => absurd equal (by simp)⟩
    | cons word' stem' =>
      have joined : word ++ separated separator (stem ++ last.toList) =
          word' ++ separated separator (stem' ++ last'.toList) := (List.cons.inj same).2
      obtain ⟨rfl, rest⟩ := append_inj_of_free (free word List.mem_cons_self) (free' word' List.mem_cons_self)
        (separated_starts _ _) (separated_starts _ _) joined
      obtain ⟨goes, equal⟩ := ih (fun word member => free word (List.mem_cons_of_mem _ member))
        (fun word member => free' word (List.mem_cons_of_mem _ member)) rest
      exact ⟨by simpa [List.cons_prefix_cons] using goes, fun same => equal (List.cons.inj same).2⟩

/-- No two commands of handlers have the same key, in directories without the separator. -/
theorem outputKey_injective (query : Handler.IsQuery words) (query' : Handler.IsQuery words')
    (free : 0x1f ∉ directory) (free' : 0x1f ∉ directory')
    (same : Engine.outputKey words directory = Engine.outputKey words' directory') :
    words = words' ∧ directory = directory' := by
  have plain : ∀ stem ∈ Handler.stems, ∀ word ∈ stem, (0x1f : UInt8) ∉ word := by decide
  have apart : ∀ stem ∈ Handler.stems, ∀ other ∈ Handler.stems, stem <+: other → stem = other := by decide
  obtain ⟨stem, known, last, rfl⟩ := query
  obtain ⟨stem', known', last', rfl⟩ := query'
  obtain ⟨rfl, joined⟩ := append_inj_of_free free free' (separated_starts _ _) (separated_starts _ _) same
  obtain ⟨goes, equal⟩ := separated_inj (plain stem known) (plain stem' known') joined
  have one : stem = stem' := by
    rcases goes with on | back
    · exact apart stem known stem' known' on
    · exact (apart stem' known' stem known back).symm
  exact ⟨by rw [one, equal one], rfl⟩

end

end ShellCompletion
