import ShellCompletion.Proofs.Schema.Checked
import ShellCompletion.Proofs.Schema.Loading

/-!
# Well-formed schemas

A schema is well formed if at every depth its names can be typed as words, its arguments have names and its options
are spelled as options (`Schema.WellFormed`). The check accepts exactly these (`Schema.check_iff_wellFormed`), by a
look at one subcommand and the ones below it. What a document describes is checked before it is accepted, and its
options are read so that one with a kind of value takes a value (`SchemaDocument.schema_typed`). So nothing else
gets into a database that a loader fills (`SchemaLoader.sound_of_load`).
-/
namespace ShellCompletion

/-! ## Every depth -/

mutual

/-- A subcommand and all those below it. -/
def Subcommand.family : Subcommand → List Subcommand
  | sub@⟨_, _, _, _, _, subcommands⟩ => sub :: families subcommands

/-- Subcommands and all those below them. -/
def families : List Subcommand → List Subcommand
  | [] => []
  | sub :: rest => sub.family ++ families rest

end

theorem Subcommand.family_eq (sub : Subcommand) : sub.family = sub :: families sub.subcommands := by
  cases sub; rw [family]

theorem mem_families {subcommands : List Subcommand} {inner : Subcommand} :
    inner ∈ families subcommands ↔ ∃ sub ∈ subcommands, inner ∈ sub.family := by
  induction subcommands with
  | nil => simp [families]
  | cons sub rest ih => simp [families, ih]

namespace Schema

/-- The subcommands of a schema at every depth. -/
def allSubcommands (schema : Schema) : List Subcommand := families schema.subcommands

/-- The options of a schema at every depth. -/
def allOptions (schema : Schema) : List OptionSpec :=
  schema.globalOptions ++ schema.allSubcommands.flatMap Subcommand.options

/-- The positional arguments of a schema at every depth. -/
def allArguments (schema : Schema) : List ArgumentSpec :=
  schema.arguments ++ schema.allSubcommands.flatMap Subcommand.arguments

end Schema

/-! ## What well-formed means -/

/-- The name can be typed as a word: it is not empty and holds no white space. -/
def IsName (name : Bytes) : Prop := name ≠ [] ∧ ∀ byte ∈ name, Bytes.isSpace byte = false

/-- The option has a form. A short one is a dash and at least one byte, the first of which is no dash; a long one is
    two dashes and at least one byte; and neither holds white space. -/
structure OptionSpec.WellFormed (option : OptionSpec) : Prop where
  formed : option.short ≠ none ∨ option.long ≠ none
  short : ∀ form ∈ option.short, ∃ second rest, form = '-'.toUInt8 :: second :: rest ∧ second ≠ '-'.toUInt8 ∧
    ∀ byte ∈ form, Bytes.isSpace byte = false
  long : ∀ form ∈ option.long, ∃ third rest, form = '-'.toUInt8 :: '-'.toUInt8 :: third :: rest ∧
    ∀ byte ∈ form, Bytes.isSpace byte = false

/-- The parts of a subcommand are well formed, apart from the subcommands below it. -/
structure Subcommand.WellFormed (sub : Subcommand) : Prop where
  name : IsName sub.name
  aliases : ∀ other ∈ sub.aliases, IsName other
  options : ∀ option ∈ sub.options, option.WellFormed
  arguments : ∀ argument ∈ sub.arguments, argument.name ≠ []

structure Schema.WellFormed (schema : Schema) : Prop where
  command : IsName schema.command
  subcommands : ∀ sub ∈ schema.allSubcommands, IsName sub.name ∧ ∀ other ∈ sub.aliases, IsName other
  options : ∀ option ∈ schema.allOptions, option.WellFormed
  arguments : ∀ argument ∈ schema.allArguments, argument.name ≠ []

/-- An option with a kind of value takes a value. -/
def OptionSpec.IsTyped (option : OptionSpec) : Prop := option.valueType ≠ none → option.takesValue = true

instance (option : OptionSpec) : Decidable option.IsTyped := inferInstanceAs (Decidable (_ → _))

/-! ## The check -/

theorem throw_ne_ok {ε α : Type} (e : ε) {a : α} : (throw e : Except ε α) ≠ .ok a := nofun

theorem isValidName_iff (name : Bytes) : isValidName name ↔ IsName name := by
  simp [isValidName, IsName]

theorem isShortForm_iff (form : Bytes) :
    isShortForm form ↔ ∃ second rest, form = '-'.toUInt8 :: second :: rest ∧ second ≠ '-'.toUInt8 ∧
      ∀ byte ∈ form, Bytes.isSpace byte = false := by
  match form with
  | [] => simp [isShortForm]
  | [_] => simp [isShortForm]
  | dash :: second :: rest => simp [isShortForm, and_assoc]

theorem isLongForm_iff (form : Bytes) :
    isLongForm form ↔ ∃ third rest, form = '-'.toUInt8 :: '-'.toUInt8 :: third :: rest ∧
      ∀ byte ∈ form, Bytes.isSpace byte = false := by
  have dashes : utf8 "--" = ['-'.toUInt8, '-'.toUInt8] := by decide
  match form with
  | [] => simp [isLongForm]
  | [_] => simp [isLongForm]
  | [_, _] => simp [isLongForm]
  | first :: second :: third :: rest =>
    simp only [isLongForm, dashes, List.isPrefixOf, Bool.and_eq_true, beq_iff_eq, List.length_cons, decide_eq_true_eq,
      Bool.not_eq_true', List.any_eq_false, Bool.not_eq_true, List.cons.injEq]
    constructor
    · rintro ⟨⟨⟨rfl, rfl, _⟩, _⟩, words⟩
      exact ⟨third, rest, ⟨rfl, rfl, rfl, rfl⟩, words⟩
    · rintro ⟨_, _, ⟨rfl, rfl, _⟩, words⟩
      exact ⟨⟨⟨rfl, rfl, trivial⟩, by omega⟩, words⟩

theorem OptionSpec.check_eq_ok_iff (option : OptionSpec) : option.check = .ok () ↔ option.WellFormed := by
  have parts : option.WellFormed ↔ (option.short ≠ none ∨ option.long ≠ none) ∧
      (∀ form ∈ option.short, isShortForm form) ∧ ∀ form ∈ option.long, isLongForm form := by
    simp only [isShortForm_iff, isLongForm_iff]
    exact ⟨fun ⟨formed, short, long⟩ => ⟨formed, short, long⟩, fun ⟨formed, short, long⟩ => ⟨formed, short, long⟩⟩
  rw [parts, check]
  cases option.short with
  | none =>
    cases option.long with
    | none => simp
    | some long => cases fits : isLongForm long <;> simp [fits, throw_ne_ok, pure, Except.pure]
  | some short =>
    cases option.long with
    | none => cases fits : isShortForm short <;> simp [fits, throw_bind_ne_ok, pure, Except.pure]
    | some long =>
      cases fits : isShortForm short with
      | false => simp [fits, throw_bind_ne_ok]
      | true => cases fits' : isLongForm long <;> simp [fits, fits', throw_ne_ok, pure, Except.pure]

theorem forM_eq_ok_iff {ε α : Type} {check : α → Except ε Unit} {items : List α} :
    items.forM check = .ok () ↔ ∀ item ∈ items, check item = .ok () := by
  induction items with
  | nil => simp [pure, Except.pure]
  | cons item rest ih =>
    rw [List.forM_eq_forM, List.forM_cons, then_eq_ok_iff, ← List.forM_eq_forM, ih, List.forall_mem_cons]

theorem checkOptions_eq_ok_iff (owner : Bytes) (options : List OptionSpec) :
    checkOptions owner options = .ok () ↔ ∀ option ∈ options, option.WellFormed := by
  simp only [checkOptions, forM_eq_ok_iff, mapError_eq_ok_iff, OptionSpec.check_eq_ok_iff]

theorem checkArguments_eq_ok_iff (owner : Bytes) (arguments : List ArgumentSpec) :
    checkArguments owner arguments = .ok () ↔ ∀ argument ∈ arguments, argument.name ≠ [] := by
  simp only [checkArguments, forM_eq_ok_iff]
  refine forall₂_congr fun argument _ => ?_
  split_ifs with empty <;> simpa using empty

/-- The check looks at the subcommands of every depth. -/
theorem checkSubcommands_iff_wellFormed (owner : Bytes) :
    ∀ subcommands : List Subcommand,
      checkSubcommands owner subcommands = .ok () ↔ ∀ inner ∈ families subcommands, inner.WellFormed
  | [] => by simp [checkSubcommands, families]
  | ⟨name, description, aliases, options, arguments, subcommands⟩ :: rest => by
    have first := Subcommand.check_eq_ok_iff owner ⟨name, description, aliases, options, arguments, subcommands⟩
    dsimp only at first
    rw [checkSubcommands, then_eq_ok_iff, first, checkSubcommands_iff_wellFormed _ subcommands,
      checkSubcommands_iff_wellFormed owner rest, families, Subcommand.family, List.forall_mem_append,
      List.forall_mem_cons]
    simp only [isValidName_iff, checkOptions_eq_ok_iff, checkArguments_eq_ok_iff]
    refine and_congr_left fun _ => ?_
    constructor
    · rintro ⟨named, aliased, optional, argued, below⟩
      exact ⟨⟨named, aliased, optional, argued⟩, below⟩
    · rintro ⟨⟨named, aliased, optional, argued⟩, below⟩
      exact ⟨named, aliased, optional, argued, below⟩

/-- The check accepts exactly the well-formed schemas. -/
theorem Schema.check_iff_wellFormed (schema : Schema) : schema.check = .ok () ↔ schema.WellFormed := by
  rw [Schema.check_eq_ok_iff, isValidName_iff, checkOptions_eq_ok_iff, checkArguments_eq_ok_iff,
    checkSubcommands_iff_wellFormed]
  constructor
  · rintro ⟨command, options, arguments, below⟩
    refine ⟨command, fun sub member => ⟨(below sub member).name, (below sub member).aliases⟩, ?_, ?_⟩
    · intro option member
      rcases List.mem_append.mp member with own | inner
      · exact options option own
      · obtain ⟨sub, listed, here⟩ := List.mem_flatMap.mp inner
        exact (below sub listed).options option here
    · intro argument member
      rcases List.mem_append.mp member with own | inner
      · exact arguments argument own
      · obtain ⟨sub, listed, here⟩ := List.mem_flatMap.mp inner
        exact (below sub listed).arguments argument here
  · rintro ⟨command, subcommands, options, arguments⟩
    refine ⟨command, fun option own => options option (List.mem_append_left _ own),
      fun argument own => arguments argument (List.mem_append_left _ own), fun sub listed => ?_⟩
    exact ⟨(subcommands sub listed).1, (subcommands sub listed).2,
      fun option here => options option (List.mem_append_right _ (List.mem_flatMap.mpr ⟨sub, listed, here⟩)),
      fun argument here => arguments argument (List.mem_append_right _ (List.mem_flatMap.mpr ⟨sub, listed, here⟩))⟩

/-! ## Documents -/

namespace SchemaDocument

theorem mapM_eq_ok {α β ε : Type} {read : α → Except ε β} {items : List α} {results : List β}
    (read_ : items.mapM read = .ok results) : ∀ result ∈ results, ∃ item, read item = .ok result := by
  induction items generalizing results with
  | nil =>
    obtain rfl := Except.ok.inj read_
    simp
  | cons item rest ih =>
    rw [List.mapM_cons] at read_
    obtain ⟨first, here, later⟩ := bind_eq_ok_iff.mp read_
    obtain ⟨more, there, same⟩ := bind_eq_ok_iff.mp later
    obtain rfl := Except.ok.inj same
    exact List.forall_mem_cons.mpr ⟨⟨item, here⟩, ih there⟩

theorem optionalList_eq_ok {α : Type} {read : Json → Reading α} {json : Json} {name : String} {items : List α}
    (given : optionalList read json name = .ok items) : ∀ item ∈ items, ∃ source, read source = .ok item := by
  unfold optionalList at given
  split at given
  · obtain rfl := Except.ok.inj given
    simp
  · obtain ⟨_, _, each⟩ := bind_eq_ok_iff.mp given
    exact mapM_eq_ok each

theorem option_typed {json : Json} {spec : OptionSpec} (described : option json = .ok spec) : spec.IsTyped := by
  obtain ⟨short, _, described⟩ := bind_eq_ok_iff.mp described
  obtain ⟨long, _, described⟩ := bind_eq_ok_iff.mp described
  obtain ⟨description, _, described⟩ := bind_eq_ok_iff.mp described
  obtain ⟨takesValue, _, described⟩ := bind_eq_ok_iff.mp described
  obtain ⟨valueType, _, described⟩ := bind_eq_ok_iff.mp described
  obtain rfl := Except.ok.inj described
  intro typed
  simp [Option.isSome_iff_ne_none.mpr typed]

theorem options_typed {json : Json} {name : String} {options : List OptionSpec}
    (described : optionalList option json name = .ok options) : ∀ spec ∈ options, spec.IsTyped := by
  intro spec member
  obtain ⟨source, read⟩ := optionalList_eq_ok described spec member
  exact option_typed read

theorem subcommand_typed {fuel : Nat} {json : Json} {sub : Subcommand} (described : subcommand fuel json = .ok sub) :
    ∀ inner ∈ sub.family, ∀ spec ∈ inner.options, spec.IsTyped := by
  induction fuel generalizing json sub with
  | zero => exact nomatch described
  | succ fuel ih =>
    obtain ⟨name, _, described⟩ := bind_eq_ok_iff.mp described
    obtain ⟨description, _, described⟩ := bind_eq_ok_iff.mp described
    obtain ⟨aliases, _, described⟩ := bind_eq_ok_iff.mp described
    obtain ⟨options, own, described⟩ := bind_eq_ok_iff.mp described
    obtain ⟨arguments, _, described⟩ := bind_eq_ok_iff.mp described
    obtain ⟨subcommands, below, described⟩ := bind_eq_ok_iff.mp described
    obtain rfl := Except.ok.inj described
    rw [Subcommand.family, List.forall_mem_cons]
    refine ⟨options_typed own, fun inner member => ?_⟩
    obtain ⟨child, listed, inside⟩ := mem_families.mp member
    obtain ⟨source, read⟩ := optionalList_eq_ok below child listed
    exact ih read inner inside

/-- The options of a schema that is read are typed at every depth. -/
theorem schema_typed {json : Json} {known : Schema} (described : schema json = .ok known) :
    ∀ spec ∈ known.allOptions, spec.IsTyped := by
  obtain ⟨command, _, described⟩ := bind_eq_ok_iff.mp described
  obtain ⟨description, _, described⟩ := bind_eq_ok_iff.mp described
  obtain ⟨globalOptions, own, described⟩ := bind_eq_ok_iff.mp described
  obtain ⟨subcommands, below, described⟩ := bind_eq_ok_iff.mp described
  obtain ⟨arguments, _, described⟩ := bind_eq_ok_iff.mp described
  obtain rfl := Except.ok.inj described
  intro spec member
  rcases List.mem_append.mp member with global | inner
  · exact options_typed own spec global
  · obtain ⟨sub, listed, here⟩ := List.mem_flatMap.mp inner
    obtain ⟨top, child, inside⟩ := mem_families.mp listed
    obtain ⟨source, read⟩ := optionalList_eq_ok below top child
    exact subcommand_typed read sub inside spec here

end SchemaDocument

/-! ## What gets in -/

/-- The schema is well formed, and each of its options with a kind of value takes a value. -/
def Schema.IsSound (schema : Schema) : Prop := schema.WellFormed ∧ ∀ option ∈ schema.allOptions, option.IsTyped

theorem Schema.sound_of_ofText {library : JsonLibrary} {text : Bytes} {schema : Schema}
    (accepted : Schema.ofText library text = .ok schema) : schema.IsSound := by
  obtain ⟨document, _, described, checked⟩ := Schema.ofText_eq_ok_iff.mp accepted
  exact ⟨(Schema.check_iff_wellFormed schema).mp checked, SchemaDocument.schema_typed described⟩

/-- Every schema that a loader registers is that of an accepted document. -/
theorem SchemaLoader.sound_of_load {loader : SchemaLoader} {library : JsonLibrary} {tree : FileTree} {base : Bytes}
    {schema : Schema} (member : schema ∈ (loader.load library tree base).1.schemas) : schema.IsSound := by
  have submitted : .ok schema ∈ tree.submissions library base loader.bundled loader.directories :=
    Load.mem_submissions member
  rcases List.mem_append.mp submitted with bundled | described
  · split_ifs at bundled
    · obtain ⟨⟨source, text⟩, _, given⟩ := List.mem_map.mp bundled
      exact Schema.sound_of_ofText (submission_eq_ok_iff.mp given)
    · exact nomatch bundled
  · obtain ⟨directory, _, here⟩ := List.mem_flatMap.mp described
    obtain ⟨path, _, given⟩ := List.mem_map.mp here
    obtain ⟨text, _, accepted⟩ := FileTree.submissionAt_eq_ok_iff.mp given
    exact Schema.sound_of_ofText accepted

/-- The check accepts exactly the schemas that are well formed at every depth. So the schema of an accepted document
    is well formed, and each of its options that has a kind of value takes a value; and the same holds of every
    schema in a database that a loader fills. -/
theorem schemas_wellFormed :
    (∀ schema : Schema, schema.check = .ok () ↔ schema.WellFormed) ∧
      (∀ library text schema, Schema.ofText library text = .ok schema →
        schema.WellFormed ∧ ∀ option ∈ schema.allOptions, option.valueType ≠ none → option.takesValue = true) ∧
      ∀ (loader : SchemaLoader) (library : JsonLibrary) (tree : FileTree) (base : Bytes),
        ∀ schema ∈ (loader.load library tree base).1.schemas,
        schema.WellFormed ∧ ∀ option ∈ schema.allOptions, option.valueType ≠ none → option.takesValue = true :=
  ⟨Schema.check_iff_wellFormed, fun _ _ _ accepted => Schema.sound_of_ofText accepted,
    fun _ _ _ _ _ member => SchemaLoader.sound_of_load member⟩

end ShellCompletion
