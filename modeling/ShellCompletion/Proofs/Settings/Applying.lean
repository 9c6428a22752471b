import ShellCompletion.Json.Reader
import ShellCompletion.Proofs.Schema.Checked
import ShellCompletion.Settings.Document

/-!
# Settings documents change all or nothing

A document that is an object and has a value of the right kind for each setting that it names changes these settings,
and no other (`Settings.applyText_eq_ok_iff`). Any other document changes nothing. Where the integers of documents fit
64 bits (`JsonLibrary.IntegersFit`), a count that is taken is the number as it is written, and one that would wrap
around is refused. Each change keeps the counts positive (`Settings.change_valid`), hence they are positive in all
settings that changes lead to from the defaults.
-/
namespace ShellCompletion

/-! ## Integers of 64 bits -/

namespace Word64

/-- The number fits 64 bits, with a sign or without. -/
def Fits (value : Int) : Prop := -maxSigned - 1 ≤ value ∧ value ≤ maxUnsigned

theorem toSigned_eq {value : Int} (fits : Fits value) :
    toSigned value = if value ≤ maxSigned then value else value - (maxUnsigned + 1) := by
  obtain ⟨low, high⟩ := fits
  simp only [toSigned, Int.bmod_def, maxSigned, maxUnsigned] at *
  split_ifs <;> omega

theorem toSigned_pos_iff {value : Int} (fits : Fits value) : 0 < toSigned value ↔ 1 ≤ value ∧ value ≤ maxSigned := by
  rw [toSigned_eq fits]
  obtain ⟨_, high⟩ := fits
  split_ifs <;> omega

end Word64

/-- An integer that a document of the library gives for a name fits 64 bits. -/
def JsonLibrary.IntegersFit (library : JsonLibrary) : Prop :=
  ∀ text document, library.parse text = .ok document →
    ∀ name n, document.member? name = some (.integer n) → Word64.Fits n

namespace Json

/-- The value has been read from the front of a text. -/
def IsRead (json : Json) : Prop := ∃ fuel text rest, readValue? fuel text = some (json, rest)

/-- What the reader ensures of a value: an integer fits 64 bits, and the members of an object have been read. -/
def IsSound : Json → Prop
  | integer n => Word64.Fits n
  | object members => ∀ member ∈ members, member.2.IsRead
  | _ => True

theorem NumberText.value_sound (number : NumberText) : number.value.IsSound := by
  rw [NumberText.value]
  generalize (if number.negative then -(Bytes.digitsValue number.whole : Int) else _) = signed
  split_ifs with whole
  next =>
    simp only [Bool.and_eq_true, decide_eq_true_eq] at whole
    exact ⟨whole.1.2, whole.2⟩
  all_goals trivial

theorem readMembers?_read {fuel : Nat} {text rest : Bytes} {members : List (Bytes × Json)}
    (given : readMembers? fuel text = some (members, rest)) : ∀ member ∈ members, member.2.IsRead := by
  induction fuel generalizing text members rest with
  | zero => exact nomatch given
  | succ fuel ih =>
    rw [readMembers?] at given
    -- A name, a colon and a value; then the end of the object, or more members.
    repeat' split at given
    all_goals try contradiction
    next value _ read _ _ _ _ _ =>
      obtain ⟨rfl, rfl⟩ := Prod.mk.inj (Option.some.inj given)
      exact List.forall_mem_singleton.mpr ⟨_, _, _, read⟩
    next value _ read _ _ _ _ _ _ =>
      obtain ⟨⟨more, _⟩, later, same⟩ := Option.map_eq_some_iff.mp given
      obtain ⟨rfl, rfl⟩ := Prod.mk.inj same
      exact List.forall_mem_cons.mpr ⟨⟨_, _, _, read⟩, ih later⟩

theorem IsRead.sound {json : Json} (given : json.IsRead) : json.IsSound := by
  obtain ⟨fuel, text, rest, given⟩ := given
  cases fuel with
  | zero => exact nomatch given
  | succ fuel =>
    rw [readValue?] at given
    split at given
    · contradiction
    split_ifs at given with object array string yes no null
    · split at given
      · contradiction
      split_ifs at given with empty
      · obtain ⟨rfl, rfl⟩ := Prod.mk.inj (Option.some.inj given)
        exact List.forall_mem_nil _
      · obtain ⟨⟨members, _⟩, read, same⟩ := Option.map_eq_some_iff.mp given
        obtain ⟨rfl, rfl⟩ := Prod.mk.inj same
        exact readMembers?_read read
    · split at given
      · contradiction
      split_ifs at given with empty
      · obtain ⟨rfl, rfl⟩ := Prod.mk.inj (Option.some.inj given)
        trivial
      · obtain ⟨_, _, same⟩ := Option.map_eq_some_iff.mp given
        obtain ⟨rfl, rfl⟩ := Prod.mk.inj same
        trivial
    · obtain ⟨_, _, same⟩ := Option.map_eq_some_iff.mp given
      obtain ⟨rfl, rfl⟩ := Prod.mk.inj same
      trivial
    iterate 3
      obtain ⟨rfl, rfl⟩ := Prod.mk.inj (Option.some.inj given)
      trivial
    · obtain ⟨⟨number, _⟩, _, same⟩ := Option.map_eq_some_iff.mp given
      obtain ⟨rfl, rfl⟩ := Prod.mk.inj same
      exact number.value_sound

theorem isRead_of_parse {text : Bytes} {json : Json} (given : parse? text = some json) : json.IsRead := by
  unfold parse? at given
  split at given
  next read =>
    split_ifs at given
    exact Option.some.inj given ▸ ⟨_, _, _, read⟩
  next => contradiction

theorem library_integersFit : library.IntegersFit := by
  intro text document parsed name n given
  have read : parse? text = some document := by
    cases known : parse? text with
    | none => simp [library, known] at parsed
    | some other => simpa [library, known] using parsed
  cases document with
  | object members =>
    obtain ⟨before, after, split_, _⟩ := List.lookup_eq_some_iff.mp given
    have listed : (name, .integer n) ∈ members := List.mem_reverse.mp (split_ ▸ List.mem_append_cons_self)
    exact IsRead.sound ((isRead_of_parse read).sound _ listed)
  | _ => exact nomatch given

/-- A positive integer that fits 64 bits with a sign. -/
def positive? : Json → Option Int
  | integer n => if 1 ≤ n ∧ n ≤ Word64.maxSigned then some n else none
  | _ => none

/-- The document gives a new value for the key, or does not name the key and the old value stays. -/
def Gives {α : Type} (document : Json) (key : String) (read : Json → Option α) (old new : α) : Prop :=
  match document.member? (utf8 key) with
  | none => new = old
  | some json => read json = some new

theorem exists_gives_iff {α : Type} (document : Json) (key : String) (read : Json → Option α) (old : α) :
    (∃ new, document.Gives key read old new) ↔
      ∀ json, document.member? (utf8 key) = some json → read json ≠ none := by
  unfold Gives
  cases document.member? (utf8 key) with
  | none => simp
  | some json => simp [Option.ne_none_iff_exists']

end Json

/-! ## The settings of a document -/

/-- The settings that a document may give. -/
inductive Setting where
  | caseSensitive
  | fuzzyMatching
  | smartRanking
  | maxResults
  | subprocessTimeout
  | showHiddenFiles
  | includeSystemUsers
  | historySuggestions
  | dynamicHandlers
  | extraSchemaDirectories
deriving DecidableEq, Repr

namespace Setting

/-- The key by which a document names the setting. -/
def key : Setting → String
  | caseSensitive => "case_sensitive"
  | fuzzyMatching => "fuzzy_matching"
  | smartRanking => "smart_ranking"
  | maxResults => "max_results"
  | subprocessTimeout => "subprocess_timeout_ms"
  | showHiddenFiles => "show_hidden_files"
  | includeSystemUsers => "include_system_users"
  | historySuggestions => "history_suggestions"
  | dynamicHandlers => "dynamic_handlers_enabled"
  | extraSchemaDirectories => "extra_schema_directories"

/-- The values that the setting has. -/
abbrev Value : Setting → Type
  | maxResults | subprocessTimeout => Int
  | extraSchemaDirectories => List Bytes
  | _ => Bool

/-- The value of the setting among all settings. -/
def get (settings : Settings) : (setting : Setting) → setting.Value
  | caseSensitive => settings.caseSensitive
  | fuzzyMatching => settings.fuzzyMatching
  | smartRanking => settings.smartRanking
  | maxResults => settings.maxResults
  | subprocessTimeout => settings.subprocessTimeout
  | showHiddenFiles => settings.showHiddenFiles
  | includeSystemUsers => settings.includeSystemUsers
  | historySuggestions => settings.historySuggestions
  | dynamicHandlers => settings.dynamicHandlers
  | extraSchemaDirectories => settings.extraSchemaDirectories

/-- The value of the setting that a JSON value stands for; none if it is of the wrong kind. -/
def read? (env : Environment) : (setting : Setting) → Json → Option setting.Value
  | maxResults | subprocessTimeout => Json.positive?
  | extraSchemaDirectories => fun json => json.strings?.map (·.map env.expandTilde)
  | caseSensitive | fuzzyMatching | smartRanking | showHiddenFiles | includeSystemUsers | historySuggestions
  | dynamicHandlers => Json.bool?

/-- All settings, from the value of each. -/
def assemble (values : (setting : Setting) → setting.Value) : Settings where
  caseSensitive := values caseSensitive
  fuzzyMatching := values fuzzyMatching
  smartRanking := values smartRanking
  maxResults := values maxResults
  subprocessTimeout := values subprocessTimeout
  showHiddenFiles := values showHiddenFiles
  includeSystemUsers := values includeSystemUsers
  historySuggestions := values historySuggestions
  dynamicHandlers := values dynamicHandlers
  extraSchemaDirectories := values extraSchemaDirectories

@[simp] theorem get_assemble (values : (setting : Setting) → setting.Value) (setting : Setting) :
    setting.get (assemble values) = values setting := by
  cases setting <;> rfl

end Setting

namespace Settings

/-- The document gives each setting its new value, or does not name it and it stays as it was. -/
def Follows (document : Json) (env : Environment) (old new : Settings) : Prop :=
  ∀ setting : Setting, document.Gives setting.key (setting.read? env) (setting.get old) (setting.get new)

theorem readBool_eq_ok_iff {document : Json} {key : String} {old new : Bool} :
    readBool document key old = .ok new ↔ document.Gives key Json.bool? old new := by
  unfold readBool Json.Gives
  cases document.member? (utf8 key) with
  | none => simp [eq_comm]
  | some json => cases json <;> simp [Json.bool?]

theorem readPositive_eq_ok_iff {document : Json} {key : String} {old new : Int}
    (fits : ∀ n, document.member? (utf8 key) = some (.integer n) → Word64.Fits n) :
    readPositive document key old = .ok new ↔ document.Gives key Json.positive? old new := by
  unfold readPositive Json.Gives
  cases given : document.member? (utf8 key) with
  | none => simp [eq_comm]
  | some json =>
    cases json with
    | integer n =>
      simp only [Word64.toSigned_pos_iff (fits n given), Json.positive?]
      split_ifs with positive
      · simp [Word64.toSigned_eq (fits n given), positive.2]
      · simp
    | _ => simp [Json.positive?]

theorem readStrings_eq_ok_iff {document : Json} {key : String} {f : Bytes → Bytes} {old new : List Bytes} :
    readStrings document key f old = .ok new ↔
      document.Gives key (fun json => json.strings?.map (·.map f)) old new := by
  unfold readStrings Json.Gives
  cases document.member? (utf8 key) with
  | none => simp [eq_comm]
  | some json =>
    cases json with
    | array items => cases given : items.mapM Json.string? <;> simp [Json.strings?, Json.items?, given]
    | _ => simp [Json.strings?, Json.items?]

variable {library : JsonLibrary} {settings new : Settings} {env : Environment} {text source : Bytes}

theorem withDocument_eq_ok_iff {document : Json} (fit : library.IntegersFit) (parsed : library.parse text = .ok document) :
    settings.withDocument env document = .ok new ↔
      (∃ members, document = .object members) ∧ Follows document env settings new := by
  cases document with
  | object members =>
    simp only [withDocument, bind_eq_ok_iff, readBool_eq_ok_iff, readStrings_eq_ok_iff,
      readPositive_eq_ok_iff fun _ => fit text _ parsed _ _]
    constructor
    · rintro ⟨_, one, _, two, _, three, _, four, _, five, _, six, _, seven, _, eight, _, nine, _, ten, same⟩
      obtain rfl := Except.ok.inj same
      refine ⟨⟨members, rfl⟩, fun setting => ?_⟩
      cases setting <;> assumption
    · rintro ⟨_, follows⟩
      exact ⟨_, follows .caseSensitive, _, follows .fuzzyMatching, _, follows .smartRanking, _, follows .maxResults,
        _, follows .subprocessTimeout, _, follows .showHiddenFiles, _, follows .includeSystemUsers,
        _, follows .historySuggestions, _, follows .dynamicHandlers, _, follows .extraSchemaDirectories, rfl⟩
  | _ => simp [withDocument]

theorem applyText_eq_ok_iff (fit : library.IntegersFit) : settings.applyText library env text source = .ok new ↔
    ∃ members, library.parse text = .ok (.object members) ∧ Follows (.object members) env settings new := by
  unfold applyText
  cases parsed : library.parse text with
  | error failure => cases failure <;> simp
  | ok document =>
    simp only [mapError_eq_ok_iff, withDocument_eq_ok_iff fit parsed, Except.ok.injEq]
    constructor
    · rintro ⟨⟨members, rfl⟩, follows⟩
      exact ⟨members, rfl, follows⟩
    · rintro ⟨members, rfl, follows⟩
      exact ⟨⟨members, rfl⟩, follows⟩

/-- Some settings follow from a document unless it has a value of the wrong kind for a setting. -/
theorem exists_follows_iff (settings : Settings) {document : Json} : (∃ new, Follows document env settings new) ↔
    ∀ (setting : Setting) json, document.member? (utf8 setting.key) = some json → setting.read? env json ≠ none := by
  have each := fun setting : Setting =>
    Json.exists_gives_iff document setting.key (setting.read? env) (setting.get settings)
  simp only [← each]
  constructor
  · exact fun ⟨new, follows⟩ setting => ⟨_, follows setting⟩
  · intro given
    obtain ⟨values, follows⟩ := Classical.skolem.mp given
    exact ⟨Setting.assemble values, fun setting => by simpa using follows setting⟩

/-! ## Changes -/

variable {tree : FileTree} {base : Bytes} {action : SettingsChange}

/-- A change leads to the settings that it attempts to reach, or fails and leaves the settings as they were. -/
theorem change_cases (library : JsonLibrary) (settings : Settings) (env : Environment) (tree : FileTree)
    (base : Bytes) (action : SettingsChange) :
    (∃ new, settings.attempt library env tree base action = .ok new ∧
        settings.change library env tree base action = (new, none)) ∨
      ∃ error, settings.attempt library env tree base action = .error error ∧
        settings.change library env tree base action = (settings, some error) := by
  unfold change
  cases settings.attempt library env tree base action with
  | ok new => exact .inl ⟨new, rfl, rfl⟩
  | error error => exact .inr ⟨error, rfl, rfl⟩

/-- The counts of the settings are positive. -/
structure Valid (settings : Settings) : Prop where
  maxResults : 1 ≤ settings.maxResults
  subprocessTimeout : 1 ≤ settings.subprocessTimeout

theorem defaults_valid : Valid {} := ⟨by decide, by decide⟩

theorem positive_of_gives {document : Json} {key : String} {old new : Int} (positive : 1 ≤ old)
    (given : document.Gives key Json.positive? old new) : 1 ≤ new := by
  unfold Json.Gives at given
  split at given
  · exact given ▸ positive
  next json _ =>
    cases json with
    | integer n =>
      simp only [Json.positive?] at given
      split_ifs at given with within
      exact Option.some.inj given ▸ within.1
    | _ => exact nomatch given

theorem applyText_valid (fit : library.IntegersFit) (valid : settings.Valid)
    (changed : settings.applyText library env text source = .ok new) : new.Valid := by
  obtain ⟨_, _, follows⟩ := (applyText_eq_ok_iff fit).mp changed
  exact ⟨positive_of_gives valid.maxResults (follows .maxResults),
    positive_of_gives valid.subprocessTimeout (follows .subprocessTimeout)⟩

/-- Each change keeps the counts positive, whether it fails or not. -/
theorem change_valid (fit : library.IntegersFit) (valid : settings.Valid) :
    (settings.change library env tree base action).1.Valid := by
  obtain ⟨new, reached, same⟩ | ⟨_, _, same⟩ := settings.change_cases library env tree base action
  · rw [same]
    cases action with
    | document text source => exact applyText_valid fit valid reached
    | reset => exact Except.ok.inj reached ▸ defaults_valid
    | file path =>
      change settings.applyFile library env tree base path = .ok new at reached
      unfold applyFile at reached
      split_ifs at reached
      · split at reached
        · exact nomatch reached
        · exact applyText_valid fit valid reached
      · exact Except.ok.inj reached ▸ valid
  · rw [same]
    exact valid

/-- The settings that changes lead to from the defaults, in any surroundings. -/
inductive Reachable (library : JsonLibrary) : Settings → Prop where
  | defaults : Reachable library {}
  | changed {settings : Settings} (env : Environment) (tree : FileTree) (base : Bytes) (action : SettingsChange) :
      Reachable library settings → Reachable library (settings.change library env tree base action).1

theorem Reachable.valid (fit : library.IntegersFit) (reachable : Reachable library settings) : settings.Valid := by
  induction reachable with
  | defaults => exact defaults_valid
  | changed _ _ _ _ _ ih => exact change_valid fit ih

/-- A document changes the settings without an error exactly if it is an object that has no value of the wrong kind
    for a setting. -/
theorem change_document_iff (fit : library.IntegersFit) :
    (settings.change library env tree base (.document text source)).2 = none ↔
      ∃ members, library.parse text = .ok (.object members) ∧ ∀ (setting : Setting) json,
        (Json.object members).member? (utf8 setting.key) = some json → setting.read? env json ≠ none := by
  have attempted : (settings.change library env tree base (.document text source)).2 = none ↔
      ∃ new, settings.applyText library env text source = .ok new := by
    obtain ⟨new, reached, same⟩ | ⟨error, failed, same⟩ :=
      settings.change_cases library env tree base (.document text source)
    · exact iff_of_true (by rw [same]) ⟨new, reached⟩
    · refine iff_of_false (by rw [same]; nofun) fun ⟨new, reached⟩ => ?_
      exact nomatch failed.symm.trans reached
  simp only [attempted, applyText_eq_ok_iff fit, ← exists_follows_iff settings]
  exact ⟨fun ⟨new, members, parsed, follows⟩ => ⟨members, parsed, new, follows⟩,
    fun ⟨members, parsed, new, follows⟩ => ⟨new, members, parsed, follows⟩⟩

/-- Only a number out of the library's range makes a failure that is not caught. -/
theorem change_document_uncaught_iff :
    (settings.change library env tree base (.document text source)).2 = some .uncaught ↔
      library.parse text = .error .outOfRange := by
  have attempted : (settings.change library env tree base (.document text source)).2 = some .uncaught ↔
      settings.applyText library env text source = .error .uncaught := by
    obtain ⟨new, reached, same⟩ | ⟨error, failed, same⟩ :=
      settings.change_cases library env tree base (.document text source)
    · have reached : settings.applyText library env text source = .ok new := reached
      simp [same, reached]
    · have failed : settings.applyText library env text source = .error error := failed
      simp [same, failed]
  rw [attempted, applyText]
  cases library.parse text with
  | error failure => cases failure <;> simp
  | ok document => cases applied : settings.withDocument env document <;> simp [applied, Except.mapError]

end Settings

/-- A document either fails and all settings stay as they were, or the library reads an object and each setting that it
    names takes the value given there and each other one stays. It fails exactly if it is no object or has a value of
    the wrong kind for a setting; an integer is one, also for a count, if the number of 64 bits with a sign that it
    wraps around to is not positive. A number out of the library's range is the one failure that is not caught. So the
    counts are positive in all settings that documents, files and resets lead to from the defaults. -/
theorem settings_change_whole {library : JsonLibrary} (fit : library.IntegersFit) :
    (∀ (settings : Settings) (env : Environment) (tree : FileTree) (base text source : Bytes),
      let outcome := settings.change library env tree base (.document text source)
      (outcome.2 ≠ none ∧ outcome.1 = settings ∨ outcome.2 = none ∧ ∃ members,
        library.parse text = .ok (.object members) ∧ Settings.Follows (.object members) env settings outcome.1) ∧
      (outcome.2 = none ↔ ∃ members, library.parse text = .ok (.object members) ∧ ∀ (setting : Setting) json,
        (Json.object members).member? (utf8 setting.key) = some json → setting.read? env json ≠ none) ∧
      (∀ members (setting : Setting) n, library.parse text = .ok (.object members) →
        (Json.object members).member? (utf8 setting.key) = some (.integer n) →
        Word64.Fits n ∧ (Word64.toSigned n ≤ 0 → outcome.2 ≠ none)) ∧
      (outcome.2 = some .uncaught ↔ library.parse text = .error .outOfRange)) ∧
    ∀ settings : Settings, settings.Reachable library → 1 ≤ settings.maxResults ∧ 1 ≤ settings.subprocessTimeout := by
  refine ⟨fun settings env tree base text source => ⟨?_, Settings.change_document_iff fit, ?_,
    Settings.change_document_uncaught_iff⟩, fun settings reachable =>
    ⟨(reachable.valid fit).maxResults, (reachable.valid fit).subprocessTimeout⟩⟩
  · obtain ⟨new, reached, same⟩ | ⟨error, _, same⟩ :=
      settings.change_cases library env tree base (.document text source)
    · refine .inr ?_
      rw [same]
      exact ⟨rfl, (Settings.applyText_eq_ok_iff fit).mp reached⟩
    · refine .inl ?_
      rw [same]
      exact ⟨nofun, rfl⟩
  · intro members setting n parsed given
    have fits := fit text _ parsed _ _ given
    refine ⟨fits, fun wraps changed => ?_⟩
    obtain ⟨others, parsed', readable⟩ := (Settings.change_document_iff fit).mp changed
    obtain rfl : members = others := Json.object.inj (Except.ok.inj (parsed.symm.trans parsed'))
    refine readable setting _ given ?_
    have refused : ¬ (1 ≤ n ∧ n ≤ Word64.maxSigned) := fun within =>
      absurd ((Word64.toSigned_pos_iff fits).mpr within) (Int.not_lt.mpr wraps)
    cases setting <;> first | rfl | exact if_neg refused

/-- A count that wraps around below zero, beside a setting with a value of the right kind. -/
theorem settings_change_whole_wraps :
    let text := utf8 "\x7b\"fuzzy_matching\": true, \"max_results\": 9223372036854775808\x7d"
    Json.library.IntegersFit ∧ ∀ (settings : Settings) (env : Environment) (tree : FileTree) (base source : Bytes),
      let outcome := settings.change Json.library env tree base (.document text source)
      outcome.2 ≠ none ∧ outcome.1 = settings := by
  intro text
  have parsed : Json.library.parse text = .ok (.object [(utf8 "fuzzy_matching", .bool true),
      (utf8 "max_results", .integer 9223372036854775808)]) := by rfl
  refine ⟨Json.library_integersFit, fun settings env tree base source => ?_⟩
  intro outcome
  obtain ⟨whole, _, wraps, _⟩ := (settings_change_whole Json.library_integersFit).1 settings env tree base text source
  have failed : outcome.2 ≠ none := (wraps _ .maxResults 9223372036854775808 parsed (by rfl)).2 (by decide)
  exact ⟨failed, (whole.resolve_right fun changed => failed changed.1).2⟩

end ShellCompletion
