import Mathlib
import ShellCompletion.Json.Printer
import ShellCompletion.Json.Reader
import ShellCompletion.Proofs.Schema.Checked
import ShellCompletion.Schema.Loader

/-!
# Members that a schema document may do without

A document is made of objects, its parts, and of each part the format names the members (`Part.members`). One member
more in one of the parts, which the format does not name or which is null where it may be missing, is one extension
(`Extended`). Each part is read member by member (`Part.read_congr`), and how deep subcommands lie does not matter
(`subcommand_eq_of_depth`), so an extended part is read alike (`Extended.read_eq`), by induction on the way down to the
object that is extended. Hence documents that lead to one another by extensions, made or taken back, give the same
schema or the same error (`submission_extended`).
-/
namespace ShellCompletion

/-! ## Members of objects -/

namespace Json

variable {json value : Json} {key name : Bytes} {before after : List (Bytes × Json)}

theorem depth_le_of_mem {members : List (Bytes × Json)} (member : (key, value) ∈ members) :
    value.depth ≤ depthOfMembers members := by
  induction members with
  | nil => exact nomatch member
  | cons first rest ih =>
    rw [depthOfMembers]
    rcases List.mem_cons.mp member with rfl | later
    · exact Nat.le_max_left _ _
    · exact Nat.le_trans (ih later) (Nat.le_max_right _ _)

theorem depth_le_of_mem_items {items : List Json} (member : value ∈ items) : value.depth ≤ depthOfItems items := by
  induction items with
  | nil => exact nomatch member
  | cons first rest ih =>
    rw [depthOfItems]
    rcases List.mem_cons.mp member with rfl | later
    · exact Nat.le_max_left _ _
    · exact Nat.le_trans (ih later) (Nat.le_max_right _ _)

theorem member?_of_value? (given : json.value? key = some value) : json.member? key = some value := by
  unfold value? at given
  split at given
  · exact nomatch given
  · exact given

theorem depth_lt_of_item {items : List Json} {item : Json} (given : json.value? key = some (.array items))
    (member : item ∈ items) : item.depth < json.depth := by
  have given := member?_of_value? given
  cases json with
  | object members =>
    obtain ⟨front, back, split, _⟩ := List.lookup_eq_some_iff.mp given
    have known : (key, .array items) ∈ members := List.mem_reverse.mp (split ▸ List.mem_append_cons_self)
    have inside := depth_le_of_mem_items member
    have outside := depth_le_of_mem known
    simp only [depth] at outside ⊢
    omega
  | _ => exact nomatch given

theorem value?_congr {other : Json} (same : json.member? key = other.member? key) :
    json.value? key = other.value? key := by
  rw [value?, value?, same]

theorem value?_of_member? (given : json.member? key = some value) (typed : value ≠ null) :
    json.value? key = some value := by
  rw [value?, given]
  cases value <;> first | rfl | exact absurd rfl typed

/-- Of the members of one name the last one counts. -/
theorem member?_insert (before after : List (Bytes × Json)) (key : Bytes) (value : Json) (name : Bytes) :
    (object (before ++ (key, value) :: after)).member? name =
      ((object after).member? name).or
        ((if name = key then some value else none).or ((object before).member? name)) := by
  have alone : [(key, value)].lookup name = if name = key then some value else none := by
    by_cases same : name = key
    · rw [if_pos same, same, List.lookup_cons_self]
    · have other : (name == key) = false := beq_eq_false_iff_ne.mpr same
      simp only [List.lookup_cons, other, List.lookup_nil, if_neg same]
  simp only [member?, List.reverse_append, List.reverse_cons, List.lookup_append, alone, Option.or_assoc]

theorem member?_append (before after : List (Bytes × Json)) (name : Bytes) :
    (object (before ++ after)).member? name = ((object after).member? name).or ((object before).member? name) := by
  simp only [member?, List.reverse_append, List.lookup_append]

theorem member?_insert_of_ne (other : name ≠ key) :
    (object (before ++ (key, value) :: after)).member? name = (object (before ++ after)).member? name := by
  rw [member?_insert, member?_append, if_neg other, Option.none_or]

theorem value?_insert_null (absent : (object (before ++ after)).value? key = none) :
    (object (before ++ (key, null) :: after)).value? key = none := by
  cases later : (object after).member? key with
  | none => rw [value?, member?_insert, later, if_pos rfl, Option.none_or, Option.some_or]
  | some value =>
    rw [← absent]
    apply value?_congr
    rw [member?_insert, member?_append, later, Option.some_or, Option.some_or]

/-- With another value in its place a member is found there, or it is not found in either object. -/
theorem member?_replace_cases (before after : List (Bytes × Json)) (key : Bytes) (value other : Json) :
    (∀ name, (object (before ++ (key, value) :: after)).member? name =
        (object (before ++ (key, other) :: after)).member? name) ∨
      (object (before ++ (key, value) :: after)).member? key = some value ∧
        (object (before ++ (key, other) :: after)).member? key = some other ∧
        ∀ name, name ≠ key → (object (before ++ (key, value) :: after)).member? name =
          (object (before ++ (key, other) :: after)).member? name := by
  cases later : (object after).member? key with
  | none =>
    refine .inr ⟨?_, ?_, fun name away => ?_⟩
    · rw [member?_insert, later, if_pos rfl, Option.none_or, Option.some_or]
    · rw [member?_insert, later, if_pos rfl, Option.none_or, Option.some_or]
    · rw [member?_insert_of_ne away, member?_insert_of_ne away]
  | some found =>
    refine .inl fun name => ?_
    by_cases same : name = key
    · rw [same, member?_insert, member?_insert, later, Option.some_or, Option.some_or]
    · rw [member?_insert_of_ne same, member?_insert_of_ne same]

end Json

namespace SchemaDocument

/-! ## The format -/

/-- The objects that a document is made of. -/
inductive Part where
  | command
  | subcommand
  | option
  | argument
  | valueType
  /-- What goes with a kind of value, for files. -/
  | data
deriving DecidableEq, Repr

/-- What a member of a part holds. All but the required ones may be missing or null. -/
inductive Content where
  | required
  | optional
  /-- Another part. -/
  | part (inner : Part)
  /-- A list of other parts. -/
  | parts (inner : Part)
deriving DecidableEq, Repr

/-- The members that the format names. -/
def Part.members : Part → List (String × Content)
  | command => [("command", .required), ("description", .optional), ("global_options", .parts option),
      ("subcommands", .parts subcommand), ("arguments", .parts argument)]
  | subcommand => [("name", .required), ("description", .optional), ("aliases", .optional),
      ("options", .parts option), ("arguments", .parts argument), ("subcommands", .parts subcommand)]
  | option => [("short", .optional), ("long", .optional), ("description", .optional), ("takes_value", .optional),
      ("value_type", .part valueType)]
  | argument => [("name", .required), ("description", .optional), ("arg_type", .part valueType),
      ("required", .optional), ("multiple", .optional)]
  | valueType => [("type", .required), ("data", .part data)]
  | data => [("extensions", .optional)]

/-- The second part is the first one with one member more, in itself or in a part inside it. -/
inductive Extended : Part → Json → Json → Prop
  /-- A member that the format does not name. -/
  | unknown {part : Part} {before after : List (Bytes × Json)} {key : Bytes} {value : Json}
      (undefined : ∀ known ∈ part.members, key ≠ utf8 known.1) :
      Extended part (.object (before ++ after)) (.object (before ++ (key, value) :: after))
  /-- A null for a member that may be missing, and that has no value. -/
  | null {part : Part} {before after : List (Bytes × Json)} {key : String} {content : Content}
      (known : (key, content) ∈ part.members) (optional : content ≠ .required)
      (absent : (Json.object (before ++ after)).value? (utf8 key) = none) :
      Extended part (.object (before ++ after)) (.object (before ++ (utf8 key, .null) :: after))
  | inPart {part inner : Part} {before after : List (Bytes × Json)} {key : String} {value value' : Json}
      (known : (key, .part inner) ∈ part.members) (extended : Extended inner value value') :
      Extended part (.object (before ++ (utf8 key, value) :: after)) (.object (before ++ (utf8 key, value') :: after))
  | inParts {part inner : Part} {before after : List (Bytes × Json)} {key : String} {front back : List Json}
      {value value' : Json} (known : (key, .parts inner) ∈ part.members) (extended : Extended inner value value') :
      Extended part (.object (before ++ (utf8 key, .array (front ++ value :: back)) :: after))
        (.object (before ++ (utf8 key, .array (front ++ value' :: back)) :: after))

theorem eq_of_key {part : Part} {known known' : String × Content} (named : known ∈ part.members)
    (named' : known' ∈ part.members) (same : utf8 known.1 = utf8 known'.1) : known = known' := by
  have unique : ∀ known ∈ part.members, ∀ known' ∈ part.members, utf8 known.1 = utf8 known'.1 → known = known' := by
    cases part <;> decide +kernel
  exact unique known named known' named' same

/-! ## How parts are read -/

/-- What is read of each item of a list that may be missing; none of them where the member is no list. -/
def eachRead {β : Type} (read : Json → β) (json : Json) (key : String) : Option (Option (List β)) :=
  (json.value? (utf8 key)).map fun value => value.items?.map (·.map read)

/-- Of a list only what is read of each item matters. -/
theorem optionalList_congr {α : Type} {read read' : Json → Reading α} {a b : Json} {key : String}
    (same : eachRead read a key = eachRead read' b key) : optionalList read a key = optionalList read' b key := by
  have eq : ∀ (read : Json → Reading α) json, optionalList read json key =
      match eachRead read json key with
      | none => .ok []
      | some none => .error .malformed
      | some (some readings) => readings.mapM id := fun read json => by
    unfold optionalList eachRead
    cases json.value? (utf8 key) with
    | none => rfl
    | some value =>
      cases listed : value.items? with
      | none => simp only [listed, Option.map_some, Option.map_none, expect]; rfl
      | some items => simp only [listed, Option.map_some, List.mapM_map, expect]; rfl
  rw [eq, eq, same]

theorem eachRead_congr_left {β : Type} {read read' : Json → β} {json : Json} (key : String)
    (same : ∀ item, item.depth < json.depth → read item = read' item) :
    eachRead read json key = eachRead read' json key := by
  unfold eachRead
  cases given : json.value? (utf8 key) with
  | none => rfl
  | some value =>
    cases value with
    | array items =>
      have alike : items.map read = items.map read' :=
        List.map_congr_left fun item member => same item (Json.depth_lt_of_item given member)
      simp only [Option.map_some, Json.items?, alike]
    | _ => rfl

/-- Fuel beyond the depth of a subcommand changes nothing. -/
theorem subcommand_eq_of_depth {fuel fuel' : Nat} {json : Json} (enough : json.depth < fuel)
    (enough' : json.depth < fuel') : subcommand fuel json = subcommand fuel' json := by
  induction fuel generalizing fuel' json with
  | zero => exact absurd enough (Nat.not_lt_zero _)
  | succ fuel ih =>
    obtain ⟨fuel', rfl⟩ := Nat.exists_eq_succ_of_ne_zero (Nat.ne_zero_of_lt enough')
    have below : optionalList (subcommand fuel) json "subcommands" =
        optionalList (subcommand fuel') json "subcommands" := by
      refine optionalList_congr (eachRead_congr_left _ fun item inside => ih ?_ ?_)
      · omega
      · omega
    rw [subcommand, subcommand, below]

/-- What is read of a part. Data is read for a file, and for a choice. -/
abbrev Part.Result : Part → Type
  | command => Reading Schema
  | subcommand => Reading Subcommand
  | option => Reading OptionSpec
  | argument => Reading ArgumentSpec
  | valueType => Reading ValueType
  | data => Reading (List Bytes) × Option (List Bytes)

def Part.read : (part : Part) → Json → part.Result
  | command => schema
  | subcommand => fun json => SchemaDocument.subcommand (json.depth + 1) json
  | option => SchemaDocument.option
  | argument => SchemaDocument.argument
  | valueType => SchemaDocument.valueType
  | data => fun json => (optionalStrings json "extensions", json.strings?)

/-- The subcommands of a part are read as parts, whatever fuel is left for them. -/
theorem optionalList_subcommand {fuel : Nat} {json : Json} (enough : json.depth ≤ fuel) :
    optionalList (subcommand fuel) json "subcommands" = optionalList Part.subcommand.read json "subcommands" := by
  refine optionalList_congr (eachRead_congr_left _ fun item inside => subcommand_eq_of_depth ?_ ?_)
  · omega
  · omega

/-- What is read of a member is the same in both objects. -/
def Content.Agrees (a b : Json) (key : String) : Content → Prop
  | required => a.member? (utf8 key) = b.member? (utf8 key)
  | optional => a.value? (utf8 key) = b.value? (utf8 key)
  | part inner => (a.value? (utf8 key)).map inner.read = (b.value? (utf8 key)).map inner.read
  | parts inner => eachRead inner.read a key = eachRead inner.read b key

section
variable {a b : Json} {key : String} {content : Content}

theorem Content.agrees_of_member? (same : a.member? (utf8 key) = b.member? (utf8 key)) (content : Content) :
    content.Agrees a b key := by
  have value := Json.value?_congr same
  cases content with
  | required => exact same
  | optional => exact value
  | part inner => exact congrArg _ value
  | parts inner => exact congrArg (Option.map _) value

theorem Content.agrees_of_value? (same : a.value? (utf8 key) = b.value? (utf8 key)) (optional : content ≠ .required) :
    content.Agrees a b key := by
  cases content with
  | required => exact absurd rfl optional
  | optional => exact same
  | part inner => exact congrArg _ same
  | parts inner => exact congrArg (Option.map _) same

theorem requiredString_congr (agrees : Content.required.Agrees a b key) : requiredString a key = requiredString b key := by
  rw [requiredString, requiredString, show a.member? _ = b.member? _ from agrees]

theorem optionalString_congr (agrees : Content.optional.Agrees a b key) : optionalString a key = optionalString b key := by
  rw [optionalString, optionalString, show a.value? _ = b.value? _ from agrees]

theorem optionalBool_congr (agrees : Content.optional.Agrees a b key) : optionalBool a key = optionalBool b key := by
  rw [optionalBool, optionalBool, show a.value? _ = b.value? _ from agrees]

theorem optionalStrings_congr (agrees : Content.optional.Agrees a b key) :
    optionalStrings a key = optionalStrings b key := by
  rw [optionalStrings, optionalStrings, show a.value? _ = b.value? _ from agrees]

theorem optionalType_congr (agrees : (Content.part .valueType).Agrees a b key) :
    optionalType a key = optionalType b key := by
  have eq : ∀ json, optionalType json key =
      (((json.value? (utf8 key)).map valueType).map (·.map some)).getD (.ok none) := fun json => by
    rw [optionalType]
    cases json.value? (utf8 key) <;> rfl
  rw [eq, eq, show (a.value? _).map valueType = (b.value? _).map valueType from agrees]

theorem options_congr (agrees : (Content.parts .option).Agrees a b key) :
    optionalList option a key = optionalList option b key :=
  optionalList_congr agrees

theorem arguments_congr (agrees : (Content.parts .argument).Agrees a b key) :
    optionalList argument a key = optionalList argument b key :=
  optionalList_congr agrees

theorem subcommands_congr {fuel fuel' : Nat} (agrees : (Content.parts .subcommand).Agrees a b "subcommands")
    (enough : a.depth ≤ fuel) (enough' : b.depth ≤ fuel') :
    optionalList (subcommand fuel) a "subcommands" = optionalList (subcommand fuel') b "subcommands" := by
  rw [optionalList_subcommand enough, optionalList_subcommand enough']
  exact optionalList_congr agrees

end

theorem valueType_congr {members members' : List (Bytes × Json)}
    (named : Content.required.Agrees (.object members) (.object members') "type")
    (given : (Content.part .data).Agrees (.object members) (.object members') "data") :
    valueType (.object members) = valueType (.object members') := by
  have data : ((Json.object members).value? (utf8 "data")).map Part.data.read =
      ((Json.object members').value? (utf8 "data")).map Part.data.read := given
  simp only [valueType, requiredString_congr named]
  refine bind_congr fun name => bind_congr fun type => ?_
  cases here : (Json.object members).value? (utf8 "data") with
  | none =>
    rw [here, Option.map_none, eq_comm, Option.map_eq_none_iff] at data
    rw [data]
  | some value =>
    rw [here, Option.map_some, eq_comm, Option.map_eq_some_iff] at data
    obtain ⟨value', there, same⟩ := data
    obtain ⟨file, choice⟩ := Prod.mk.inj same
    rw [there]
    cases type <;> simp only [file, choice]

theorem Part.read_congr {part : Part} {members members' : List (Bytes × Json)}
    (agrees : ∀ known ∈ part.members, known.2.Agrees (.object members) (.object members') known.1) :
    part.read (.object members) = part.read (.object members') := by
  cases part with
  | command =>
    have command := requiredString_congr (agrees ("command", .required) (by decide))
    have description := optionalString_congr (agrees ("description", .optional) (by decide))
    have options := options_congr (agrees ("global_options", .parts .option) (by decide))
    have subcommands := subcommands_congr (agrees ("subcommands", .parts .subcommand) (by decide)) (Nat.le_refl _)
      (Nat.le_refl _)
    have arguments := arguments_congr (agrees ("arguments", .parts .argument) (by decide))
    change schema _ = schema _
    rw [schema, schema, command, description, options, subcommands, arguments]
  | subcommand =>
    have name := requiredString_congr (agrees ("name", .required) (by decide))
    have description := optionalString_congr (agrees ("description", .optional) (by decide))
    have aliases := optionalStrings_congr (agrees ("aliases", .optional) (by decide))
    have options := options_congr (agrees ("options", .parts .option) (by decide))
    have arguments := arguments_congr (agrees ("arguments", .parts .argument) (by decide))
    have subcommands := subcommands_congr (agrees ("subcommands", .parts .subcommand) (by decide)) (Nat.le_refl _)
      (Nat.le_refl _)
    change SchemaDocument.subcommand (_ + 1) _ = SchemaDocument.subcommand (_ + 1) _
    rw [SchemaDocument.subcommand, SchemaDocument.subcommand, name, description, aliases, options, arguments,
      subcommands]
  | option =>
    have short := optionalString_congr (agrees ("short", .optional) (by decide))
    have long := optionalString_congr (agrees ("long", .optional) (by decide))
    have description := optionalString_congr (agrees ("description", .optional) (by decide))
    have takesValue := optionalBool_congr (agrees ("takes_value", .optional) (by decide))
    have valueType := optionalType_congr (agrees ("value_type", .part .valueType) (by decide))
    change SchemaDocument.option _ = SchemaDocument.option _
    rw [SchemaDocument.option, SchemaDocument.option, short, long, description, takesValue, valueType]
  | argument =>
    have name := requiredString_congr (agrees ("name", .required) (by decide))
    have description := optionalString_congr (agrees ("description", .optional) (by decide))
    have valueType := optionalType_congr (agrees ("arg_type", .part .valueType) (by decide))
    have required := optionalBool_congr (agrees ("required", .optional) (by decide))
    have multiple := optionalBool_congr (agrees ("multiple", .optional) (by decide))
    change SchemaDocument.argument _ = SchemaDocument.argument _
    rw [SchemaDocument.argument, SchemaDocument.argument, name, description, valueType, required, multiple]
  | valueType =>
    exact valueType_congr (agrees ("type", .required) (by decide)) (agrees ("data", .part .data) (by decide))
  | data =>
    have extensions := optionalStrings_congr (agrees ("extensions", .optional) (by decide))
    exact Prod.ext extensions rfl

/-! ## Extensions -/

theorem Extended.objects {part : Part} {a b : Json} (extended : Extended part a b) :
    ∃ members members', a = .object members ∧ b = .object members' := by
  cases extended <;> exact ⟨_, _, rfl, rfl⟩

/-- Objects in which one named member has another value agree in all members if they agree in this one. -/
theorem agrees_replace {part : Part} {key : String} {content : Content} {before after : List (Bytes × Json)}
    {value value' : Json} (named : (key, content) ∈ part.members) (typed : value ≠ .null) (typed' : value' ≠ .null)
    (alike : ∀ a b : Json, a.value? (utf8 key) = some value → b.value? (utf8 key) = some value' →
      content.Agrees a b key) :
    ∀ known ∈ part.members, known.2.Agrees (.object (before ++ (utf8 key, value) :: after))
      (.object (before ++ (utf8 key, value') :: after)) known.1 := by
  intro known member
  rcases Json.member?_replace_cases before after (utf8 key) value value' with same | ⟨here, there, same⟩
  · exact Content.agrees_of_member? (same _) _
  · by_cases this : utf8 known.1 = utf8 key
    · obtain rfl := eq_of_key member named this
      exact alike _ _ (Json.value?_of_member? here typed) (Json.value?_of_member? there typed')
    · exact Content.agrees_of_member? (same _ this) _

/-- A part is read like the part that it extends. -/
theorem Extended.read_eq {part : Part} {a b : Json} (extended : Extended part a b) : part.read a = part.read b := by
  induction extended with
  | unknown undefined =>
    refine Part.read_congr fun known member => Content.agrees_of_member? ?_ _
    exact (Json.member?_insert_of_ne (Ne.symm (undefined known member))).symm
  | @null part before after key content named optional absent =>
    refine Part.read_congr fun known member => ?_
    by_cases this : utf8 known.1 = utf8 key
    · obtain rfl := eq_of_key member named this
      exact Content.agrees_of_value? (absent.trans (Json.value?_insert_null absent).symm) optional
    · exact Content.agrees_of_member? (Json.member?_insert_of_ne this).symm _
  | inPart named extended ih =>
    obtain ⟨members, members', rfl, rfl⟩ := extended.objects
    refine Part.read_congr (agrees_replace named nofun nofun fun a b here there => ?_)
    change (a.value? _).map _ = (b.value? _).map _
    rw [here, there, Option.map_some, Option.map_some, ih]
  | @inParts part inner before after key front back value value' named extended ih =>
    refine Part.read_congr (agrees_replace named nofun nofun fun a b here there => ?_)
    have alike : (front ++ value :: back).map inner.read = (front ++ value' :: back).map inner.read := by
      rw [List.map_append, List.map_append, List.map_cons, List.map_cons, ih]
    change eachRead _ a _ = eachRead _ b _
    simp only [eachRead, here, there, Option.map_some, Json.items?, alike]

/-- Documents that lead to one another by extensions are read as the same schema, or are at the same fault. -/
theorem schema_eq_of_extended {document document' : Json}
    (extended : Relation.EqvGen (Extended .command) document document') : schema document = schema document' := by
  induction extended with
  | rel document document' step => exact step.read_eq
  | refl document => rfl
  | symm document document' _ ih => exact ih.symm
  | trans first second third _ _ ih ih' => exact ih.trans ih'

end SchemaDocument

open SchemaDocument (Extended schema_eq_of_extended)

/-- Two texts that a library reads as documents that lead to one another by extensions, made or taken back, describe
the same schema or are refused with the same words, whatever source is named in them. -/
theorem submission_extended {library : JsonLibrary} {text text' : Bytes} {document document' : Json}
    (parsed : library.parse text = .ok document) (parsed' : library.parse text' = .ok document')
    (extended : Relation.EqvGen (Extended .command) document document') :
    Schema.ofText library text = Schema.ofText library text' ∧
      ∀ source, submission library source text = submission library source text' := by
  have same : Schema.ofText library text = Schema.ofText library text' := by
    rw [Schema.ofText, Schema.ofText, parsed, parsed']
    dsimp only
    rw [Schema.ofDocument, Schema.ofDocument, schema_eq_of_extended extended]
  exact ⟨same, fun source => by rw [submission, submission, same]⟩

set_option maxRecDepth 2048 in
/-- A null description is left out, and the data of an argument says more than the format knows. -/
theorem submission_extended_note :
    let data : Json := .object [(utf8 "extensions", .array [.string (utf8 ".md")])]
    let data' : Json := .object [(utf8 "extensions", .array [.string (utf8 ".md")]), (utf8 "hint", .bool true)]
    let kind (data : Json) : Json := .object [(utf8 "type", .string (utf8 "File")), (utf8 "data", data)]
    let argument (kind : Json) : Json := .object [(utf8 "name", .string (utf8 "note")), (utf8 "arg_type", kind)]
    let command : Bytes × Json := (utf8 "command", .string (utf8 "cat"))
    let arguments (data : Json) : Bytes × Json := (utf8 "arguments", .array [argument (kind data)])
    let document : Json := .object [command, (utf8 "description", .null), arguments data]
    let document' : Json := .object [command, arguments data']
    let library := Json.library
    library.parse (document.print 0) = .ok document ∧ library.parse (document'.print 0) = .ok document' ∧
      Relation.EqvGen (Extended .command) document document' ∧
      Schema.ofText library (document.print 0) = Schema.ofText library (document'.print 0) := by
  intro data data' kind argument command arguments document document' library
  have parsed : library.parse (document.print 0) = .ok document := by cbv
  have parsed' : library.parse (document'.print 0) = .ok document' := by cbv
  have left : Extended .command (.object [command, arguments data]) document :=
    @Extended.null .command [command] [arguments data] "description" .optional (by decide) (by decide) rfl
  have more : Extended .data data data' :=
    @Extended.unknown .data [(utf8 "extensions", .array [.string (utf8 ".md")])] [] (utf8 "hint") (.bool true) (by decide)
  have inKind : Extended .valueType (kind data) (kind data') :=
    @Extended.inPart .valueType .data [(utf8 "type", .string (utf8 "File"))] [] "data" data data' (by decide) more
  have inArgument : Extended .argument (argument (kind data)) (argument (kind data')) :=
    @Extended.inPart .argument .valueType [(utf8 "name", .string (utf8 "note"))] [] "arg_type" _ _ (by decide) inKind
  have inCommand : Extended .command (.object [command, arguments data]) document' :=
    @Extended.inParts .command .argument [command] [] "arguments" [] [] _ _ (by decide) inArgument
  have extended : Relation.EqvGen (Extended .command) document document' :=
    .trans _ _ _ (.symm _ _ (.rel _ _ left)) (.rel _ _ inCommand)
  exact ⟨parsed, parsed', extended, (submission_extended parsed parsed' extended).1⟩

end ShellCompletion
