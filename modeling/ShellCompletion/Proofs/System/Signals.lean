import Mathlib.Data.List.Infix
import Mathlib.Tactic.SplitIfs
import ShellCompletion.System.Signals

/-!
# Signals while their names are typed

A signal is offered for a token if the form that is chosen for the token begins with it (`offered_iff`). The form stays
the same while the token grows, unless the token is empty or the byte that is typed completes `SIG`
(`form_eq_of_begun_concat`). So what is offered narrows byte by byte but at one place: a token that `SIG` only begins
with is held against the short names alone, and all signals come back once `SIG` is complete (`candidates_narrow`).
-/
namespace ShellCompletion

namespace Bytes

variable {c : UInt8} {s : Bytes}

theorem upperByte_of_digit (digit : isDigit c) : upperByte c = c := by
  have letter : ¬ isLower c := by
    simp only [isDigit, isLower, Bool.and_eq_true, decide_eq_true_eq, UInt8.le_iff_toNat_le] at digit ⊢
    have nine : '9'.toUInt8.toNat = 57 := rfl
    have first : 'a'.toUInt8.toNat = 97 := rfl
    omega
  rw [upperByte, if_neg letter]

theorem allDigits_iff : allDigits s ↔ s ≠ [] ∧ ∀ c ∈ s, isDigit c := by
  simp [allDigits]

theorem upper_of_digits (digits : allDigits s) : upper s = s := by
  have each : ∀ c ∈ s, upperByte c = c := fun c member => upperByte_of_digit ((allDigits_iff.mp digits).2 c member)
  rw [upper, List.map_congr_left each, List.map_id']

/-- Digits have no other capitals, so a letter among the capitals was one before. -/
theorem not_allDigits_of_mem_upper (member : c ∈ upper s) (letter : isDigit c = false) : allDigits s = false := by
  by_contra digits
  have digits : allDigits s := eq_true_of_ne_false digits
  rw [upper_of_digits digits] at member
  rw [(allDigits_iff.mp digits).2 c member] at letter
  exact nomatch letter

theorem upper_append (s t : Bytes) : upper (s ++ t) = upper s ++ upper t := List.map_append

end Bytes

namespace Signal

variable {signal other : Signal} {token rest text : Bytes} {c : UInt8}

/-- The three letters that full names start with. -/
def stem : Bytes := utf8 "SIG"

/-- The texts that stand for a signal: its name with `SIG` and without, and its number. -/
def spellings (signal : Signal) : List Bytes :=
  [utf8 signal.name, utf8 signal.shortName, Bytes.decimal signal.number]

/-- The signal is among the candidates for the token, in one of its spellings. -/
def Offered (token : Bytes) (signal : Signal) : Prop :=
  ∃ text ∈ signal.spellings, .of .argument text (some signal.label) ∈ candidates token

instance (token : Bytes) (signal : Signal) : Decidable (Offered token signal) :=
  inferInstanceAs (Decidable (∃ text ∈ signal.spellings, _))

/-! ## The table -/

/-- No text stands for two signals. -/
theorem eq_of_spelling (known : signal ∈ all) (known' : other ∈ all) (spelled : text ∈ signal.spellings)
    (spelled' : text ∈ other.spellings) : other = signal := by
  have apart : ∀ signal ∈ all, ∀ other ∈ all, ∀ text ∈ signal.spellings, text ∈ other.spellings → other = signal := by
    decide +kernel
  exact apart signal known other known' text spelled spelled'

theorem name_eq (known : signal ∈ all) : utf8 signal.name = stem ++ utf8 signal.shortName := by
  have each : ∀ signal ∈ all, utf8 signal.name = stem ++ utf8 signal.shortName := by decide +kernel
  exact each signal known

theorem shortName_starts (known : signal ∈ all) :
    (∃ first rest, utf8 signal.shortName = first :: rest ∧ Bytes.isDigit first = false) ∧
      ¬ utf8 "SI" <+: utf8 signal.shortName := by
  have letter : ∀ signal ∈ all, (utf8 signal.shortName).head?.any (!Bytes.isDigit ·) := by decide +kernel
  have other : ∀ signal ∈ all, ¬ utf8 "SI" <+: utf8 signal.shortName := by decide +kernel
  obtain ⟨first, starts, letter⟩ := (Option.any_eq_true _ _).mp (letter signal known)
  obtain ⟨rest, short⟩ := List.head?_eq_some_iff.mp starts
  exact ⟨⟨first, rest, short, by simpa using letter⟩, other signal known⟩

theorem allDigits_number (known : signal ∈ all) : Bytes.allDigits (Bytes.decimal signal.number) := by
  have each : ∀ signal ∈ all, Bytes.allDigits (Bytes.decimal signal.number) := by decide +kernel
  exact each signal known

/-! ## The form for a token -/

theorem not_digit_of_begun (known : signal ∈ all)
    (begun : Bytes.upper (c :: rest) <+: utf8 signal.name ∨ Bytes.upper (c :: rest) <+: utf8 signal.shortName) :
    Bytes.isDigit c = false := by
  by_contra digit
  have digit : Bytes.isDigit c := eq_true_of_ne_false digit
  have unchanged : Bytes.upper (c :: rest) = c :: Bytes.upper rest := by
    rw [Bytes.upper, List.map_cons, Bytes.upperByte_of_digit digit, Bytes.upper]
  rw [unchanged] at begun
  rcases begun with full | short
  · rw [name_eq known] at full
    obtain rfl : c = 'S'.toUInt8 := (List.cons_prefix_cons.mp full).1
    exact absurd digit (by decide)
  · obtain ⟨⟨first, more, starts, letter⟩, _⟩ := shortName_starts known
    rw [starts] at short
    obtain rfl : c = first := (List.cons_prefix_cons.mp short).1
    rw [letter] at digit
    exact absurd digit (by decide)

theorem not_allDigits_of_begun (known : signal ∈ all)
    (begun : Bytes.upper token <+: utf8 signal.name ∨ Bytes.upper token <+: utf8 signal.shortName) :
    Bytes.allDigits token = false := by
  cases token with
  | nil => rfl
  | cons c rest => simp [Bytes.allDigits, not_digit_of_begun known begun]

theorem not_allDigits_of_stem (full : stem <+: Bytes.upper token) : Bytes.allDigits token = false := by
  have letter : 'S'.toUInt8 ∈ stem := by decide
  exact Bytes.not_allDigits_of_mem_upper (full.subset letter) (by decide)

theorem form_of_digits (digits : Bytes.allDigits token) (signal : Signal) :
    form token signal = Bytes.decimal signal.number := by
  rw [form, if_pos digits]

theorem form_of_stem (full : stem <+: Bytes.upper token) (signal : Signal) :
    form token signal = utf8 signal.name := by
  have starts : (utf8 "SIG").isPrefixOf (Bytes.upper token) := List.isPrefixOf_iff_prefix.mpr full
  rw [form, not_allDigits_of_stem full, if_neg Bool.false_ne_true, if_pos starts]

theorem form_of_short (digits : Bytes.allDigits token = false) (short : ¬ stem <+: Bytes.upper token)
    (signal : Signal) : form token signal = utf8 signal.shortName := by
  have other : ¬ (utf8 "SIG").isPrefixOf (Bytes.upper token) := mt List.isPrefixOf_iff_prefix.mp short
  rw [form, digits, if_neg Bool.false_ne_true, if_neg other]

theorem form_mem_spellings (token : Bytes) (signal : Signal) : form token signal ∈ signal.spellings := by
  unfold form spellings
  split_ifs <;> simp

/-- A signal is offered if its form begins with the token, in either letter case. -/
theorem offered_iff (known : signal ∈ all) : Offered token signal ↔ Bytes.upper token <+: form token signal := by
  unfold Offered candidates
  constructor
  · rintro ⟨text, spelled, member⟩
    obtain ⟨other, listed, same⟩ := List.mem_map.mp member
    obtain ⟨known', begun⟩ := List.mem_filter.mp listed
    obtain rfl : form token other = text := congrArg Candidate.text same
    obtain rfl := eq_of_spelling known known' spelled (form_mem_spellings token other)
    exact List.isPrefixOf_iff_prefix.mp begun
  · intro begun
    refine ⟨form token signal, form_mem_spellings token signal, List.mem_map.mpr ⟨signal, ?_, rfl⟩⟩
    exact List.mem_filter.mpr ⟨known, List.isPrefixOf_iff_prefix.mpr begun⟩

/-! ## One byte more -/

/-- The form for a longer token is the one for the token before, unless that is empty or `SIG` has just been
    completed: digits stay digits, since no name starts with one. -/
theorem form_eq_of_begun_concat (known : signal ∈ all) (typed : token ≠ [])
    (apart : Bytes.upper (token ++ [c]) ≠ stem)
    (begun : Bytes.upper (token ++ [c]) <+: form (token ++ [c]) signal) :
    form (token ++ [c]) signal = form token signal := by
  obtain ⟨first, more, rfl⟩ := List.exists_cons_of_ne_nil typed
  cases digits : Bytes.allDigits (first :: more ++ [c]) with
  | true =>
    have before : Bytes.allDigits (first :: more) := by
      refine Bytes.allDigits_iff.mpr ⟨typed, fun d member => ?_⟩
      exact (Bytes.allDigits_iff.mp digits).2 d (List.mem_append_left [c] member)
    rw [form_of_digits digits, form_of_digits before]
  | false =>
    have named : form (first :: more ++ [c]) signal = utf8 signal.name ∨
        form (first :: more ++ [c]) signal = utf8 signal.shortName := by
      by_cases full : stem <+: Bytes.upper (first :: more ++ [c])
      · exact .inl (form_of_stem full signal)
      · exact .inr (form_of_short digits full signal)
    have letter : Bytes.isDigit first = false :=
      not_digit_of_begun known (named.imp (fun same => same ▸ begun) (fun same => same ▸ begun))
    have before : Bytes.allDigits (first :: more) = false := by simp [Bytes.allDigits, letter]
    have stays : stem <+: Bytes.upper (first :: more ++ [c]) ↔ stem <+: Bytes.upper (first :: more) := by
      rw [Bytes.upper_append] at apart ⊢
      rw [show Bytes.upper [c] = [Bytes.upperByte c] from rfl] at apart ⊢
      rw [List.prefix_concat_iff]
      exact or_iff_right (Ne.symm apart)
    by_cases full : stem <+: Bytes.upper (first :: more)
    · rw [form_of_stem full, form_of_stem (stays.mpr full)]
    · rw [form_of_short before full, form_of_short digits (mt stays.mp full)]

/-- What is offered for a longer token was offered before, unless `SIG` has just been completed. -/
theorem offered_of_concat (known : signal ∈ all) (apart : Bytes.upper (token ++ [c]) ≠ stem)
    (offered : Offered (token ++ [c]) signal) : Offered token signal := by
  rw [offered_iff known] at offered ⊢
  by_cases typed : token = []
  · rw [typed]
    exact List.nil_prefix
  · rw [← form_eq_of_begun_concat known typed apart offered]
    refine List.IsPrefix.trans ?_ offered
    rw [Bytes.upper_append]
    exact List.prefix_append _ _

/-- The token that becomes `SIG` by one byte is `SI`, with which no short name starts. -/
theorem offered_of_stem (known : signal ∈ all) (complete : Bytes.upper (token ++ [c]) = stem) :
    Offered (token ++ [c]) signal ∧ ¬ Offered token signal := by
  have before : Bytes.upper token = utf8 "SI" := by
    have divided : stem = utf8 "SI" ++ ['G'.toUInt8] := by decide
    rw [Bytes.upper_append, divided] at complete
    exact (List.append_inj' complete rfl).1
  constructor
  · have full : stem <+: Bytes.upper (token ++ [c]) := complete ▸ List.prefix_rfl
    rw [offered_iff known, form_of_stem full, complete, name_eq known]
    exact List.prefix_append _ _
  · have short : ¬ stem <+: Bytes.upper token := by
      rw [before]
      decide
    have letter : 'S'.toUInt8 ∈ Bytes.upper token := by
      rw [before]
      decide
    have digits : Bytes.allDigits token = false := Bytes.not_allDigits_of_mem_upper letter (by decide)
    rw [offered_iff known, form_of_short digits short, before]
    exact (shortName_starts known).2

/-! ## Towards a name -/

theorem offered_towards_shortName (known : signal ∈ all)
    (towards : Bytes.upper (token ++ rest) = utf8 signal.shortName) : Offered token signal := by
  have begun : Bytes.upper token <+: utf8 signal.shortName := ⟨Bytes.upper rest, by rw [← Bytes.upper_append, towards]⟩
  have short : ¬ stem <+: Bytes.upper token := by
    intro full
    have longer : utf8 "SI" <+: stem := by decide
    exact (shortName_starts known).2 (longer.trans (full.trans begun))
  rw [offered_iff known, form_of_short (not_allDigits_of_begun known (.inr begun)) short]
  exact begun

theorem offered_towards_number (known : signal ∈ all) (towards : token ++ rest = Bytes.decimal signal.number) :
    Offered token signal := by
  have digits : Bytes.allDigits (token ++ rest) := towards ▸ allDigits_number known
  rw [offered_iff known]
  by_cases typed : token = []
  · rw [typed]
    exact List.nil_prefix
  · have before : Bytes.allDigits token := by
      refine Bytes.allDigits_iff.mpr ⟨typed, fun c member => ?_⟩
      exact (Bytes.allDigits_iff.mp digits).2 c (List.mem_append_left rest member)
    rw [Bytes.upper_of_digits before, form_of_digits before, ← towards]
    exact List.prefix_append _ _

/-- Towards the full name the signal is offered from its third letter on, and before as far as the short name goes
    along. -/
theorem offered_towards_name (known : signal ∈ all) (towards : Bytes.upper (token ++ rest) = utf8 signal.name) :
    Offered token signal ↔ Bytes.upper token <+: utf8 signal.shortName ∨ 3 ≤ token.length := by
  have begun : Bytes.upper token <+: utf8 signal.name := ⟨Bytes.upper rest, by rw [← Bytes.upper_append, towards]⟩
  have length : (Bytes.upper token).length = token.length := List.length_map _
  rw [offered_iff known]
  by_cases long : 3 ≤ token.length
  · have named : stem <+: utf8 signal.name := name_eq known ▸ List.prefix_append _ _
    have full : stem <+: Bytes.upper token := List.prefix_of_prefix_length_le named begun (length ▸ long)
    rw [form_of_stem full]
    exact iff_of_true begun (.inr long)
  · have short : ¬ stem <+: Bytes.upper token := fun full => long (length ▸ full.length_le)
    rw [form_of_short (not_allDigits_of_begun known (.inl begun)) short]
    exact (or_iff_left long).symm

/-- A signal that is offered for a token was offered for the token before its last byte, unless that byte completes
`SIG`; all signals are offered for that, and none before. While a short name or a number is typed, its signal stays
offered, and while a full name is typed it is from the third letter on, but before only as long as the short name
goes along. -/
theorem candidates_narrow (known : signal ∈ all) (token : Bytes) :
    (∀ c, Bytes.upper (token ++ [c]) ≠ utf8 "SIG" → Offered (token ++ [c]) signal → Offered token signal) ∧
    (∀ c, Bytes.upper (token ++ [c]) = utf8 "SIG" → Offered (token ++ [c]) signal ∧ ¬ Offered token signal) ∧
    (∀ rest, Bytes.upper (token ++ rest) = utf8 signal.shortName → Offered token signal) ∧
    (∀ rest, token ++ rest = Bytes.decimal signal.number → Offered token signal) ∧
    ∀ rest, Bytes.upper (token ++ rest) = utf8 signal.name →
      (Offered token signal ↔ Bytes.upper token <+: utf8 signal.shortName ∨ 3 ≤ token.length) :=
  ⟨fun _ => offered_of_concat known, fun _ => offered_of_stem known, fun _ => offered_towards_shortName known,
    fun _ => offered_towards_number known, fun _ => offered_towards_name known⟩

/-- The end of a short name in small letters, `SIG` completed, and numbers and full names on their way. -/
theorem candidates_narrow_stop :
    let stop : Signal := ⟨19, "STOP", "Stopped (signal)"⟩
    stop ∈ all ∧ Offered (utf8 "st" ++ ['o'.toUInt8]) stop ∧ Offered (utf8 "st") stop ∧
      Offered (utf8 "Si" ++ ['g'.toUInt8]) stop ∧ ¬ Offered (utf8 "Si") stop ∧
      Offered (utf8 "1") stop ∧ Offered (utf8 "s") stop ∧ Offered (utf8 "sigS") stop := by
  intro stop
  have known : stop ∈ all := by decide
  obtain ⟨narrows, _, short, _, _⟩ := candidates_narrow known (utf8 "st")
  obtain ⟨_, completes, _, _, _⟩ := candidates_narrow known (utf8 "Si")
  obtain ⟨_, _, _, number, _⟩ := candidates_narrow known (utf8 "1")
  obtain ⟨_, _, _, _, first⟩ := candidates_narrow known (utf8 "s")
  obtain ⟨_, _, _, _, fourth⟩ := candidates_narrow known (utf8 "sigS")
  have longer : Offered (utf8 "st" ++ ['o'.toUInt8]) stop := by decide +kernel
  obtain ⟨after, before⟩ := completes 'g'.toUInt8 (by decide)
  exact ⟨known, longer, narrows _ (by decide) longer, after, before, number (utf8 "9") (by decide),
    (first (utf8 "igstop") (by decide)).mpr (.inl (by decide)), (fourth (utf8 "top") (by decide)).mpr (.inr (by decide))⟩

/-- On the way to `SIGTERM` the signal is lost before `SIG` is complete. -/
theorem candidates_widen_at_stem :
    ¬ ∀ (token : Bytes) (c : UInt8), ∀ signal ∈ all, Offered (token ++ [c]) signal → Offered token signal := by
  intro narrows
  have term : (⟨15, "TERM", "Terminated"⟩ : Signal) ∈ all := by decide
  have lost : ¬ Offered (utf8 "SI") ⟨15, "TERM", "Terminated"⟩ := by decide +kernel
  exact lost (narrows (utf8 "SI") 'G'.toUInt8 _ term (by decide +kernel))

end Signal

end ShellCompletion
