import Mathlib.Tactic.SplitIfs
import ShellCompletion.Schema.Document

namespace ShellCompletion

section
variable {ε ε' α β : Type} {b : β}

theorem bind_eq_ok_iff {first : Except ε α} {next : α → Except ε β} :
    first >>= next = .ok b ↔ ∃ a, first = .ok a ∧ next a = .ok b := by
  cases first <;> simp [bind, Except.bind]

theorem then_eq_ok_iff {first : Except ε Unit} {next : Unit → Except ε β} :
    first >>= next = .ok b ↔ first = .ok () ∧ next () = .ok b := by
  rw [bind_eq_ok_iff]
  exact ⟨fun ⟨_, holds⟩ => holds, fun holds => ⟨(), holds⟩⟩

theorem throw_bind_ne_ok (e : ε) {next : Unit → Except ε β} : throw e >>= next ≠ .ok b := nofun

theorem mapError_eq_ok_iff {result : Except ε α} {label : ε → ε'} {a : α} :
    result.mapError label = .ok a ↔ result = .ok a := by
  cases result <;> simp [Except.mapError]

end

theorem Subcommand.check_eq_ok_iff (owner : Bytes) (sub : Subcommand) :
    let path := owner ++ ' '.toUInt8 :: sub.name
    sub.check owner = .ok () ↔
      isValidName sub.name ∧ (∀ name ∈ sub.aliases, isValidName name) ∧ checkOptions path sub.options = .ok () ∧
        checkArguments path sub.arguments = .ok () ∧ checkSubcommands path sub.subcommands = .ok () := by
  obtain ⟨name, description, aliases, options, arguments, subcommands⟩ := sub
  dsimp only
  rw [Subcommand.check]
  split_ifs with invalid
  · exact iff_of_false (throw_bind_ne_ok _) fun holds => by simp [holds.1] at invalid
  · have valid : isValidName name := by simpa using invalid
    split
    next alias_ wrong =>
      have member := List.mem_of_find?_eq_some wrong
      have fails := List.find?_some wrong
      refine iff_of_false (throw_bind_ne_ok _) fun holds => ?_
      simp [holds.2.1 alias_ member] at fails
    next found =>
      have all : ∀ name ∈ aliases, isValidName name := by
        cases wrong : aliases.find? (!isValidName ·) with
        | some alias_ => exact absurd wrong (found alias_)
        | none => simpa using wrong
      simp only [then_eq_ok_iff]
      exact ⟨fun rest => ⟨valid, all, rest⟩, fun holds => holds.2.2⟩

theorem checkSubcommands_eq_ok_iff (owner : Bytes) (subcommands : List Subcommand) :
    checkSubcommands owner subcommands = .ok () ↔ ∀ sub ∈ subcommands, sub.check owner = .ok () := by
  induction subcommands with
  | nil => simp [checkSubcommands]
  | cons sub rest ih => rw [checkSubcommands, then_eq_ok_iff, ih, List.forall_mem_cons]

theorem Schema.check_eq_ok_iff (schema : Schema) :
    schema.check = .ok () ↔
      isValidName schema.command ∧ checkOptions schema.command schema.globalOptions = .ok () ∧
        checkArguments schema.command schema.arguments = .ok () ∧
        checkSubcommands schema.command schema.subcommands = .ok () := by
  rw [Schema.check]
  split_ifs with invalid
  · exact iff_of_false (throw_bind_ne_ok _) fun holds => by simp [holds.1] at invalid
  · have valid : isValidName schema.command := by simpa using invalid
    simp only [then_eq_ok_iff]
    exact ⟨fun rest => ⟨valid, rest⟩, fun holds => holds.2⟩

namespace Schema

variable {library : JsonLibrary} {text : Bytes} {schema : Schema}

theorem ofDocument_eq_ok_iff {document : Json} :
    ofDocument document = .ok schema ↔ SchemaDocument.schema document = .ok schema ∧ schema.check = .ok () := by
  unfold ofDocument
  rw [bind_eq_ok_iff]
  constructor
  · rintro ⟨described, read, rest⟩
    obtain ⟨checked, same⟩ := then_eq_ok_iff.mp rest
    obtain rfl : described = schema := Except.ok.inj same
    exact ⟨read, mapError_eq_ok_iff.mp checked⟩
  · rintro ⟨read, checked⟩
    exact ⟨schema, read, then_eq_ok_iff.mpr ⟨mapError_eq_ok_iff.mpr checked, rfl⟩⟩

/-- A text is accepted if it is read as a schema that passes the check. -/
theorem ofText_eq_ok_iff : ofText library text = .ok schema ↔
    ∃ document, library.parse text = .ok document ∧ SchemaDocument.schema document = .ok schema ∧
      schema.check = .ok () := by
  unfold ofText
  cases library.parse text with
  | error failure => simp
  | ok document => simp [ofDocument_eq_ok_iff]

theorem check_of_ofText (accepted : ofText library text = .ok schema) : schema.check = .ok () := by
  obtain ⟨_, _, _, checked⟩ := ofText_eq_ok_iff.mp accepted
  exact checked

end Schema

end ShellCompletion
