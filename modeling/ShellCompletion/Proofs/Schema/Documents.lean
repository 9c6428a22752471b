import ShellCompletion.Json.Reader
import ShellCompletion.Proofs.Schema.Loading
import ShellCompletion.Proofs.Schema.Members
import ShellCompletion.Proofs.Schema.WellFormed

/-!
# What documents give

What a document gives is settled by how it fares: the library finds no value in it, the value describes no schema, the
schema is not well formed, or it is accepted (`DocumentGives`). The description of a schema is read back as that schema
(`SchemaDocument.schema_toJson`), part by part, so the bundled documents give the bundled schemas wherever a library
reads them as they are printed (`Bundled.submissions_eq`). A load is a load of what documents give (`load_first_wins`).
-/
namespace ShellCompletion

/-! ## Reading what is written -/

namespace Json

theorem strings?_ofStrings (texts : List Bytes) : (ofStrings texts).strings? = some texts := by
  change (texts.map Json.string).mapM string? = some texts
  rw [List.mapM_map]
  induction texts with
  | nil => rfl
  | cons text rest ih => rw [List.mapM_cons, ih]; rfl

end Json

theorem subcommandsToJson_eq_map (subcommands : List Subcommand) :
    subcommandsToJson subcommands = subcommands.map Subcommand.toJson := by
  induction subcommands with
  | nil => rfl
  | cons sub rest ih => rw [subcommandsToJson, ih, List.map_cons]

theorem Subcommand.toJson_eq (sub : Subcommand) : sub.toJson = .ofMembers [("name", .string sub.name),
    ("description", .ofString? sub.description), ("aliases", .ofStrings sub.aliases),
    ("options", .array (sub.options.map OptionSpec.toJson)),
    ("arguments", .array (sub.arguments.map ArgumentSpec.toJson)),
    ("subcommands", .array (sub.subcommands.map Subcommand.toJson))] := by
  cases sub
  rw [Subcommand.toJson, subcommandsToJson_eq_map]

namespace SchemaDocument

/-- The members are those that the format names for the part, in its order. -/
def Part.Lists (part : Part) (members : List (String × Json)) : Prop :=
  members.map Prod.fst = part.members.map Prod.fst

variable {part : Part} {members : List (String × Json)} {key : String} {value : Json}

theorem member?_ofMembers (lists : part.Lists members) (member : (key, value) ∈ members) :
    (Json.ofMembers members).member? (utf8 key) = some value := by
  have distinct : ((part.members.map Prod.fst).map utf8).Nodup := by cases part <;> decide +kernel
  rw [← show members.map Prod.fst = _ from lists, List.map_map] at distinct
  have listed : (utf8 key, value) ∈ (members.map fun member => (utf8 member.1, member.2)).reverse :=
    List.mem_reverse.mpr (List.mem_map.mpr ⟨_, member, rfl⟩)
  have distinct' : ((members.map fun member => (utf8 member.1, member.2)).reverse.map Prod.fst).Nodup := by
    rwa [List.map_reverse, List.nodup_reverse, List.map_map]
  obtain ⟨before, after, split⟩ := List.append_of_mem listed
  refine List.lookup_eq_some_iff.mpr ⟨before, after, split, fun earlier there => ?_⟩
  rw [split, List.map_append, List.map_cons, List.nodup_append] at distinct'
  exact bne_iff_ne.mpr (Ne.symm (distinct'.2.2 _ (List.mem_map_of_mem there) _ List.mem_cons_self))

theorem value?_ofMembers (lists : part.Lists members) (member : (key, value) ∈ members) (typed : value ≠ .null) :
    (Json.ofMembers members).value? (utf8 key) = some value :=
  Json.value?_of_member? (member?_ofMembers lists member) typed

theorem value?_ofMembers_null (lists : part.Lists members) (member : (key, .null) ∈ members) :
    (Json.ofMembers members).value? (utf8 key) = none := by
  rw [Json.value?, member?_ofMembers lists member]

theorem requiredString_ofMembers {text : Bytes} (lists : part.Lists members) (member : (key, .string text) ∈ members) :
    requiredString (.ofMembers members) key = .ok text := by
  rw [requiredString, member?_ofMembers lists member]
  rfl

theorem optionalString_ofMembers {text : Option Bytes} (lists : part.Lists members)
    (member : (key, .ofString? text) ∈ members) : optionalString (.ofMembers members) key = .ok text := by
  cases text with
  | none => rw [optionalString, value?_ofMembers_null lists member]
  | some text =>
    rw [optionalString, value?_ofMembers lists member (by simp [Json.ofString?])]
    rfl

theorem optionalBool_ofMembers {truth : Bool} (lists : part.Lists members) (member : (key, .bool truth) ∈ members) :
    optionalBool (.ofMembers members) key = .ok truth := by
  rw [optionalBool, value?_ofMembers lists member (by simp)]
  rfl

theorem optionalStrings_ofMembers {texts : List Bytes} (lists : part.Lists members)
    (member : (key, .ofStrings texts) ∈ members) : optionalStrings (.ofMembers members) key = .ok texts := by
  rw [optionalStrings, value?_ofMembers lists member (by simp [Json.ofStrings])]
  dsimp only
  rw [Json.strings?_ofStrings, expect]

theorem mapM_read {α : Type} {read : Json → Reading α} {print : α → Json} {items : List α}
    (reads : ∀ item ∈ items, read (print item) = .ok item) : (items.map print).mapM read = .ok items := by
  induction items with
  | nil => rfl
  | cons item rest ih =>
    obtain ⟨first, others⟩ := List.forall_mem_cons.mp reads
    rw [List.map_cons, List.mapM_cons, first, ih others]
    rfl

theorem optionalList_ofMembers {α : Type} {read : Json → Reading α} {print : α → Json} {items : List α}
    (lists : part.Lists members) (member : (key, .array (items.map print)) ∈ members)
    (reads : ∀ item ∈ items, read (print item) = .ok item) :
    optionalList read (.ofMembers members) key = .ok items := by
  rw [optionalList, value?_ofMembers lists member (by simp)]
  exact mapM_read reads

/-! ## Parts -/

theorem valueType_toJson (type : ValueType) : valueType type.toJson = .ok type := by
  have lists : Part.valueType.Lists [("type", .string (utf8 type.name)), ("data", type.data)] := rfl
  have name : requiredString type.toJson "type" = .ok (utf8 type.name) := requiredString_ofMembers lists (by simp)
  have given (typed : type.data ≠ .null) : type.toJson.value? (utf8 "data") = some type.data :=
    value?_ofMembers lists (by simp) typed
  have absent (null : type.data = .null) : type.toJson.value? (utf8 "data") = none :=
    value?_ofMembers_null lists (by simp [null])
  simp only [ValueType.toJson, Json.ofMembers] at name given absent ⊢
  simp only [valueType, name]
  cases type with
  | file extensions =>
    have inner : Part.data.Lists [("extensions", .ofStrings extensions)] := rfl
    have read : optionalStrings (ValueType.file extensions).data "extensions" = .ok extensions :=
      optionalStrings_ofMembers inner (by simp)
    rw [given (by rintro ⟨⟩)]
    exact congrArg (·.map ValueType.file) read
  | choice words =>
    rw [given (by rintro ⟨⟩)]
    change (expect (Json.ofStrings words).strings?).bind _ = _
    rw [Json.strings?_ofStrings]
    rfl
  | _ =>
    rw [absent rfl]
    rfl

theorem optionalType_ofMembers {type : Option ValueType} (lists : part.Lists members)
    (member : (key, type.elim .null ValueType.toJson) ∈ members) : optionalType (.ofMembers members) key = .ok type := by
  cases type with
  | none => rw [optionalType, value?_ofMembers_null lists member]
  | some type =>
    rw [optionalType, value?_ofMembers lists member (by simp [ValueType.toJson, Json.ofMembers])]
    dsimp only [Option.elim_some]
    rw [valueType_toJson]
    rfl

theorem option_toJson {spec : OptionSpec} (typed : spec.IsTyped) : option spec.toJson = .ok spec := by
  have lists : Part.option.Lists [("short", .ofString? spec.short), ("long", .ofString? spec.long),
    ("description", .ofString? spec.description), ("takes_value", .bool spec.takesValue),
    ("value_type", spec.valueType.elim .null ValueType.toJson)] := rfl
  have short : optionalString spec.toJson "short" = .ok spec.short := optionalString_ofMembers lists (by simp)
  have long : optionalString spec.toJson "long" = .ok spec.long := optionalString_ofMembers lists (by simp)
  have description : optionalString spec.toJson "description" = .ok spec.description :=
    optionalString_ofMembers lists (by simp)
  have takesValue : optionalBool spec.toJson "takes_value" = .ok spec.takesValue :=
    optionalBool_ofMembers lists (by simp)
  have type : optionalType spec.toJson "value_type" = .ok spec.valueType := optionalType_ofMembers lists (by simp)
  have takes : (spec.takesValue || spec.valueType.isSome) = spec.takesValue := by
    cases given : spec.valueType with
    | none => exact Bool.or_false _
    | some type => rw [typed (by simp [given])]; rfl
  rw [option, short, long, description, takesValue, type]
  exact congrArg (fun takes => Except.ok { spec with takesValue := takes }) takes

theorem argument_toJson (spec : ArgumentSpec) : argument spec.toJson = .ok spec := by
  have lists : Part.argument.Lists [("name", .string spec.name), ("description", .ofString? spec.description),
    ("arg_type", spec.valueType.elim .null ValueType.toJson), ("required", .bool spec.required),
    ("multiple", .bool spec.multiple)] := rfl
  have name : requiredString spec.toJson "name" = .ok spec.name := requiredString_ofMembers lists (by simp)
  have description : optionalString spec.toJson "description" = .ok spec.description :=
    optionalString_ofMembers lists (by simp)
  have type : optionalType spec.toJson "arg_type" = .ok spec.valueType := optionalType_ofMembers lists (by simp)
  have required : optionalBool spec.toJson "required" = .ok spec.required := optionalBool_ofMembers lists (by simp)
  have multiple : optionalBool spec.toJson "multiple" = .ok spec.multiple := optionalBool_ofMembers lists (by simp)
  rw [argument, name, description, type, required, multiple]
  rfl

/-- The induction is on the fuel, of which each level of subcommands takes one. -/
theorem subcommand_toJson {fuel : Nat} {sub : Subcommand} (enough : sub.toJson.depth < fuel)
    (typed : ∀ inner ∈ sub.family, ∀ spec ∈ inner.options, spec.IsTyped) : subcommand fuel sub.toJson = .ok sub := by
  induction fuel generalizing sub with
  | zero => exact absurd enough (Nat.not_lt_zero _)
  | succ fuel ih =>
    have lists : Part.subcommand.Lists [("name", .string sub.name), ("description", .ofString? sub.description),
      ("aliases", .ofStrings sub.aliases), ("options", .array (sub.options.map OptionSpec.toJson)),
      ("arguments", .array (sub.arguments.map ArgumentSpec.toJson)),
      ("subcommands", .array (sub.subcommands.map Subcommand.toJson))] := rfl
    rw [Subcommand.family_eq, List.forall_mem_cons] at typed
    rw [Subcommand.toJson_eq] at enough ⊢
    have below : ∀ child ∈ sub.subcommands, subcommand fuel child.toJson = .ok child := by
      intro child listed
      have given := @value?_ofMembers .subcommand _ "subcommands" (.array (sub.subcommands.map Subcommand.toJson)) lists
        (by simp) nofun
      have inside := Json.depth_lt_of_item given (List.mem_map_of_mem listed)
      exact ih (by omega) fun inner member => typed.2 inner (mem_families.mpr ⟨child, listed, member⟩)
    have name := @requiredString_ofMembers .subcommand _ "name" sub.name lists (by simp)
    have description := @optionalString_ofMembers .subcommand _ "description" sub.description lists (by simp)
    have aliases := @optionalStrings_ofMembers .subcommand _ "aliases" sub.aliases lists (by simp)
    have options := @optionalList_ofMembers .subcommand _ "options" _ option _ sub.options lists (by simp)
      fun spec listed => option_toJson (typed.1 spec listed)
    have arguments := @optionalList_ofMembers .subcommand _ "arguments" _ argument _ sub.arguments lists (by simp)
      fun spec _ => argument_toJson spec
    have subcommands := @optionalList_ofMembers .subcommand _ "subcommands" _ (subcommand fuel) _ sub.subcommands lists
      (by simp) below
    rw [subcommand, name, description, aliases, options, arguments, subcommands]
    cases sub
    rfl

/-- A schema whose options are typed is read back from its description. -/
theorem schema_toJson {known : Schema} (typed : ∀ spec ∈ known.allOptions, spec.IsTyped) :
    schema known.toJson = .ok known := by
  have lists : Part.command.Lists [("command", .string known.command), ("description", .ofString? known.description),
    ("global_options", .array (known.globalOptions.map OptionSpec.toJson)),
    ("subcommands", .array (known.subcommands.map Subcommand.toJson)),
    ("arguments", .array (known.arguments.map ArgumentSpec.toJson))] := rfl
  rw [Schema.toJson, subcommandsToJson_eq_map]
  have below := fun child (listed : child ∈ known.subcommands) => by
    have given := @value?_ofMembers .command _ "subcommands" (.array (known.subcommands.map Subcommand.toJson)) lists
      (by simp) nofun
    refine subcommand_toJson (Json.depth_lt_of_item given (List.mem_map_of_mem listed)) fun inner member spec here => ?_
    refine typed spec (List.mem_append_right _ (List.mem_flatMap.mpr ⟨inner, ?_, here⟩))
    exact mem_families.mpr ⟨child, listed, member⟩
  have command := @requiredString_ofMembers .command _ "command" known.command lists (by simp)
  have description := @optionalString_ofMembers .command _ "description" known.description lists (by simp)
  have options := @optionalList_ofMembers .command _ "global_options" _ option _ known.globalOptions lists (by simp)
    fun spec listed => option_toJson (typed spec (List.mem_append_left _ listed))
  have subcommands := @optionalList_ofMembers .command _ "subcommands" _ (subcommand _) _ known.subcommands lists
    (by simp) below
  have arguments := @optionalList_ofMembers .command _ "arguments" _ argument _ known.arguments lists (by simp)
    fun spec _ => argument_toJson spec
  rw [schema, command, description, options, subcommands, arguments]
  rfl

end SchemaDocument

/-! ## Outcomes -/

/-- What a text from a source gives: the schema that it describes, or what is said about the first thing that is wrong
with it. -/
inductive DocumentGives (library : JsonLibrary) (source text : Bytes) : Submission → Prop
  | notJson {failure : JsonFailure} (unread : library.parse text = .error failure) :
      DocumentGives library source text (.error (source ++ utf8 ": " ++ library.message))
  | undescribed {document : Json} {fault : DocumentFault} (read : library.parse text = .ok document)
      (wrong : SchemaDocument.schema document = .error fault) :
      DocumentGives library source text (.error (source ++ utf8 ": " ++ fault.message library))
  | invalid {document : Json} {schema : Schema} {fault : SchemaFault} (read : library.parse text = .ok document)
      (described : SchemaDocument.schema document = .ok schema) (wrong : schema.check = .error fault) :
      DocumentGives library source text (.error (source ++ utf8 ": " ++ fault.message))
  | accepted {document : Json} {schema : Schema} (read : library.parse text = .ok document)
      (described : SchemaDocument.schema document = .ok schema) (wellFormed : schema.WellFormed) :
      DocumentGives library source text (.ok schema)

section
variable {library : JsonLibrary} {source text : Bytes} {outcome : Submission}

theorem exists_documentGives (library : JsonLibrary) (source text : Bytes) :
    ∃ outcome, DocumentGives library source text outcome := by
  cases read : library.parse text with
  | error failure => exact ⟨_, .notJson read⟩
  | ok document =>
    cases described : SchemaDocument.schema document with
    | error fault => exact ⟨_, .undescribed read described⟩
    | ok schema =>
      cases checked : schema.check with
      | error fault => exact ⟨_, .invalid read described checked⟩
      | ok _ => exact ⟨_, .accepted read described ((Schema.check_iff_wellFormed schema).mp checked)⟩

theorem DocumentGives.submission_eq (gives : DocumentGives library source text outcome) :
    submission library source text = outcome := by
  cases gives with
  | notJson unread =>
    rw [submission, Schema.ofText, unread]
    rfl
  | undescribed read wrong =>
    rw [submission, Schema.ofText, read]
    simp only [Schema.ofDocument, wrong]
    rfl
  | @invalid document schema fault read described wrong =>
    have stopped : Schema.ofDocument document = .error (.schema fault) := by
      rw [Schema.ofDocument, described]
      change schema.check.mapError DocumentFault.schema >>= _ = _
      rw [wrong]
      rfl
    rw [submission, Schema.ofText, read]
    simp only [stopped]
    rfl
  | accepted read described wellFormed =>
    have checked := (Schema.check_iff_wellFormed _).mpr wellFormed
    exact submission_eq_ok_iff.mpr (Schema.ofText_eq_ok_iff.mpr ⟨_, read, described, checked⟩)

theorem submission_eq_iff : submission library source text = outcome ↔ DocumentGives library source text outcome := by
  refine ⟨?_, DocumentGives.submission_eq⟩
  rintro rfl
  obtain ⟨outcome, gives⟩ := exists_documentGives library source text
  exact gives.submission_eq ▸ gives

/-- A file that cannot be read is refused with what reading says. -/
theorem FileTree.submissionAt_eq_iff {tree : FileTree} {base path : Bytes} :
    tree.submissionAt library base path = outcome ↔
      (∃ fault, tree.read base path = .error fault ∧ outcome = .error fault.message) ∨
        ∃ text, tree.read base path = .ok text ∧ DocumentGives library path text outcome := by
  unfold submissionAt
  cases tree.read base path with
  | error fault => simp [eq_comm]
  | ok text => simp [submission_eq_iff]

/-- The bundled documents give the bundled schemas, as far as the library reads them as they are printed. -/
theorem Bundled.submissions_eq
    (read : ∀ schema ∈ Bundled.schemas, library.parse schema.text = .ok schema.toJson) :
    Bundled.submissions library = Bundled.schemas.map .ok := by
  have passes : ∀ schema ∈ Bundled.schemas, schema.check = .ok () := by decide +kernel
  have typed : ∀ schema ∈ Bundled.schemas, ∀ option ∈ schema.allOptions, option.IsTyped := by decide +kernel
  rw [Bundled.submissions, Bundled.documents, List.map_map]
  refine List.map_congr_left fun schema member => submission_eq_iff.mpr ?_
  exact .accepted (read schema member) (SchemaDocument.schema_toJson (typed schema member))
    ((Schema.check_iff_wellFormed schema).mp (passes schema member))

end

/-- Of the schemas that are accepted for a command, the first is registered and no other; each refused document is
    counted and reported in its turn; and the database and the counts of loaded and shadowed documents are those
    that are left without the refused ones, or some of them. A document is accepted if it can be read, the library reads
    it as the description of a schema, and the schema is well formed; else it is refused with what is said about the
    first of these that fails. A loader goes through the bundled documents, which give the bundled schemas, and then
    through its directories in order, each of which gives its documents sorted by name, and loads the same again from
    the same files. -/
theorem load_first_wins :
    (∀ submissions : List Submission,
      let load := Load.all submissions
      (∀ name, load.database.find? name = (accepted submissions).find? (·.command = name)) ∧
        (∀ schema, schema ∈ load.database.schemas ↔
          (accepted submissions).find? (·.command = schema.command) = some schema) ∧
        load.database.size = load.loaded ∧
        load.loaded + load.rejected + load.shadowed = submissions.length ∧
        load.errors = refusals submissions ∧ load.rejected = load.errors.length ∧
        ∀ fewer, fewer.Sublist submissions → accepted fewer = accepted submissions →
          (Load.all fewer).database = load.database ∧ (Load.all fewer).loaded = load.loaded ∧
            (Load.all fewer).shadowed = load.shadowed) ∧
    ∀ library : JsonLibrary,
      (∀ source text outcome,
        submission library source text = outcome ↔ DocumentGives library source text outcome) ∧
      ((∀ schema ∈ Bundled.schemas, library.parse schema.text = .ok schema.toJson) →
        Bundled.submissions library = Bundled.schemas.map .ok) ∧
      ∀ (loader : SchemaLoader) (tree : FileTree) (base : Bytes),
        let submissions := (if loader.bundled then Bundled.submissions library else []) ++
          loader.directories.flatMap fun directory =>
            (tree.documentsIn base directory).map (tree.submissionAt library base)
        let (database, after) := loader.load library tree base
        database = (Load.all submissions).database ∧ after.report = (Load.all submissions).toLoadReport ∧
          after.load library tree base = (database, after) ∧
          (∀ path outcome, tree.submissionAt library base path = outcome ↔
            (∃ fault, tree.read base path = .error fault ∧ outcome = .error fault.message) ∨
              ∃ text, tree.read base path = .ok text ∧ DocumentGives library path text outcome) ∧
          ∀ directory entries, tree.list base directory = .ok entries →
            ∃ names : List Bytes, tree.documentsIn base directory = names.map (Path.append directory) ∧
              names.Pairwise (fun name later => Bytes.le name later) ∧
              ∀ name, name ∈ names ↔ (∃ entry ∈ entries, entry.name = name) ∧
                Path.hasExtension (utf8 ".json") name := by
  refine ⟨fun submissions => ?_, fun library => ⟨fun _ _ _ => submission_eq_iff, Bundled.submissions_eq,
    fun loader tree base => ⟨rfl, rfl, rfl, fun _ _ => FileTree.submissionAt_eq_iff,
      fun _ _ listed => FileTree.documentsIn_sorted listed⟩⟩⟩
  have reports := Load.all_reports submissions
  refine ⟨reports.found, fun _ => reports.mem_schemas_iff, reports.size, reports.total, reports.errors,
    reports.rejected, fun fewer _ same => ?_⟩
  have agrees := Load.all_agrees same
  exact ⟨agrees.database, agrees.loaded, agrees.shadowed⟩

set_option maxRecDepth 4096 in
/-- A bundled document as one library reads it. -/
example : Json.library.parse Bundled.cd.text = .ok Bundled.cd.toJson := by cbv

end ShellCompletion
