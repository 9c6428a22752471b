import ShellCompletion.Proofs.Ranking.Matching

/-!
# Fewer names with each byte

A name is offered if what has been typed begins it or, with fuzzy matching, is scattered over it
(`Settings.accepts_iff`). Both are kept when bytes are taken off the end of what has been typed
(`Settings.accepts_of_append`) and when the settings tell fewer texts apart or look for scattered matches as well
(`Settings.accepts_of_looser`). So with each byte that is typed the offered names only become fewer
(`Settings.accepts_narrows`).
-/
namespace ShellCompletion.Settings

variable {settings looser : Settings} {name typed query rest : Bytes}

/-- That a scattered match is looked for only where something has been typed makes no difference: nothing typed
    begins every name. -/
theorem accepts_iff : settings.accepts name query ↔ settings.comparable query <+: settings.comparable name ∨
    settings.fuzzyMatching ∧ (settings.comparable query).Sublist (settings.comparable name) := by
  simp only [accepts, Bool.or_eq_true, Bool.and_eq_true, Bool.not_eq_true', List.isEmpty_eq_false_iff, and_assoc,
    matchesStart_iff, matchesScattered_iff]
  constructor
  · rintro (begun | ⟨fuzzy, _, scattered⟩)
    · exact .inl begun
    · exact .inr ⟨fuzzy, scattered⟩
  · rintro (begun | ⟨fuzzy, scattered⟩)
    · exact .inl begun
    · by_cases empty : query = []
      · subst empty
        exact .inl (matchesStart_iff.mp (matchesStart_of_begun List.nil_prefix))
      · exact .inr ⟨fuzzy, empty, scattered⟩

theorem matchesWhole_iff : settings.matchesWhole name typed ↔ settings.comparable name = settings.comparable typed := by
  rw [matchesWhole, Bool.and_eq_true, beq_iff_eq, matchesStart_iff, ← length_comparable settings name,
    ← length_comparable settings typed]
  constructor
  · rintro ⟨length, begun⟩
    exact (begun.eq_of_length length.symm).symm
  · intro same
    exact ⟨congrArg List.length same, same ▸ List.prefix_rfl⟩

theorem accepts_of_append (accepted : settings.accepts name (query ++ rest)) : settings.accepts name query := by
  rw [accepts_iff, comparable_append] at accepted
  rw [accepts_iff]
  rcases accepted with begun | ⟨fuzzy, scattered⟩
  · exact .inl ((List.prefix_append _ _).trans begun)
  · exact .inr ⟨fuzzy, (List.sublist_append_left _ _).trans scattered⟩

/-- The second settings tell no texts apart that the first do not, and look for scattered matches if the first do. -/
structure Loosens (settings looser : Settings) : Prop where
  letterCase : looser.caseSensitive → settings.caseSensitive
  scattered : settings.fuzzyMatching → looser.fuzzyMatching

/-- What looser settings compare of a text depends on what the settings compare of it, byte by byte. -/
theorem Loosens.comparable_eq_map (loosens : settings.Loosens looser) :
    ∃ f : UInt8 → UInt8, ∀ s, looser.comparable s = (settings.comparable s).map f := by
  unfold comparable
  by_cases strict : looser.caseSensitive
  · exact ⟨id, fun s => by rw [if_pos strict, if_pos (loosens.letterCase strict), List.map_id]⟩
  · by_cases stricter : settings.caseSensitive
    · exact ⟨Bytes.lowerByte, fun s => by rw [if_neg strict, if_pos stricter, Bytes.lower]⟩
    · exact ⟨id, fun s => by rw [if_neg strict, if_neg stricter, List.map_id]⟩

theorem accepts_of_looser (loosens : settings.Loosens looser) (accepted : settings.accepts name query) :
    looser.accepts name query := by
  obtain ⟨f, compares⟩ := loosens.comparable_eq_map
  rw [accepts_iff] at accepted
  rw [accepts_iff, compares, compares]
  rcases accepted with begun | ⟨fuzzy, scattered⟩
  · exact .inl (begun.map f)
  · exact .inr ⟨loosens.scattered fuzzy, scattered.map f⟩

/-- A name is offered exactly if what has been typed begins it or, with fuzzy matching, is scattered over it. So what
    is offered was offered before the last bytes were typed, what is offered while letter case counts is offered when
    it does not, and what is offered without fuzzy matching is offered with it. Two texts that match as a whole are
    those that are compared as the same text, so this holds both ways round, and each is offered for the other. -/
theorem accepts_narrows (settings : Settings) (name query rest : Bytes) :
    (settings.accepts name query ↔ settings.comparable query <+: settings.comparable name ∨
        settings.fuzzyMatching ∧ (settings.comparable query).Sublist (settings.comparable name)) ∧
      (settings.accepts name (query ++ rest) → settings.accepts name query) ∧
      ({ settings with caseSensitive := true }.accepts name query →
        { settings with caseSensitive := false }.accepts name query) ∧
      ({ settings with fuzzyMatching := false }.accepts name query →
        { settings with fuzzyMatching := true }.accepts name query) ∧
      (settings.matchesWhole name query → settings.accepts name query) ∧
      (settings.matchesWhole name query ↔ settings.matchesWhole query name) ∧
      (settings.matchesWhole name query ↔ settings.comparable name = settings.comparable query) := by
  refine ⟨accepts_iff, accepts_of_append, accepts_of_looser ⟨?_, id⟩, accepts_of_looser ⟨id, ?_⟩, ?_, ?_,
    matchesWhole_iff⟩
  · exact fun _ => rfl
  · exact fun _ => rfl
  · intro whole
    rw [accepts_iff, matchesWhole_iff.mp whole]
    exact .inl List.prefix_rfl
  · rw [matchesWhole_iff, matchesWhole_iff, eq_comm]

/-- Bytes of a name in their own case are scattered over it, and the whole name matches in another case. -/
theorem accepts_narrows_makefile :
    let settings : Settings := { fuzzyMatching := true }
    let name := utf8 "Makefile"
    settings.accepts name (utf8 "Mk" ++ utf8 "f") ∧ settings.accepts name (utf8 "Mk") ∧
      { settings with caseSensitive := true }.accepts name (utf8 "Mk") ∧
      { settings with caseSensitive := false }.accepts name (utf8 "Mk") ∧
      { settings with fuzzyMatching := false }.accepts name (utf8 "MAKE") ∧
      { settings with fuzzyMatching := true }.accepts name (utf8 "MAKE") ∧
      settings.matchesWhole name (utf8 "makefile") ∧ settings.accepts name (utf8 "makefile") := by
  intro settings name
  have typed : settings.accepts name (utf8 "Mk" ++ utf8 "f") := by decide
  have strict : { settings with caseSensitive := true }.accepts name (utf8 "Mk") := by decide
  have plain : { settings with fuzzyMatching := false }.accepts name (utf8 "MAKE") := by decide
  have whole : settings.matchesWhole name (utf8 "makefile") := by decide
  obtain ⟨_, shorter, anyCase, _⟩ := accepts_narrows settings name (utf8 "Mk") (utf8 "f")
  obtain ⟨_, _, _, fuzzy, _⟩ := accepts_narrows settings name (utf8 "MAKE") []
  obtain ⟨_, _, _, _, offered, _⟩ := accepts_narrows settings name (utf8 "makefile") []
  exact ⟨typed, shorter typed, strict, anyCase strict, plain, fuzzy plain, whole, offered whole⟩

end ShellCompletion.Settings
