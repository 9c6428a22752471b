import Mathlib.Data.List.Basic
import Mathlib.Data.List.TakeWhile
import Mathlib.Tactic.SplitIfs
import ShellCompletion.Bytes

/-!
# Texts cut into parts

Cutting a text at a delimiter loses nothing of it: the parts hold no delimiter, and go back together
(`Bytes.join_fields`). The lines of a text lose one carriage return each and the text a final line feed, and
nothing else (`Bytes.join_lines`); they are what is found by reading on from one line feed to the next
(`Bytes.linesFrom_eq`).
-/
namespace ShellCompletion

namespace Bytes

variable {delimiter : UInt8} {s t : Bytes}

/-! ## Fields -/

theorem fields_ne_nil (delimiter : UInt8) (s : Bytes) : fields delimiter s ≠ [] := by
  cases s with
  | nil => simp [fields]
  | cons c rest =>
    rw [fields]
    split_ifs
    · simp
    · split <;> simp

theorem fields_append (delimiter : UInt8) (s t : Bytes) :
    fields delimiter (s ++ delimiter :: t) = fields delimiter s ++ fields delimiter t := by
  induction s with
  | nil => simp [fields]
  | cons c rest ih =>
    rw [List.cons_append, fields, fields, ih]
    split_ifs
    · rfl
    · cases split : fields delimiter rest with
      | nil => exact absurd split (fields_ne_nil delimiter rest)
      | cons field more => rfl

theorem fields_of_not_mem (free : delimiter ∉ s) : fields delimiter s = [s] := by
  induction s with
  | nil => rfl
  | cons c rest ih =>
    obtain ⟨other, free⟩ := not_or.mp (mt List.mem_cons.mpr free)
    rw [fields, if_neg (Ne.symm other), ih free]

theorem not_mem_of_mem_fields {field : Bytes} (member : field ∈ fields delimiter s) : delimiter ∉ field := by
  induction s generalizing field with
  | nil => simp_all [fields]
  | cons c rest ih =>
    rw [fields] at member
    split_ifs at member with here
    · rcases List.mem_cons.mp member with rfl | later
      · exact List.not_mem_nil
      · exact ih later
    · cases split : fields delimiter rest with
      | nil => exact absurd split (fields_ne_nil delimiter rest)
      | cons first more =>
        rw [split] at member ih
        rcases List.mem_cons.mp member with rfl | later
        · exact List.not_mem_cons_of_ne_of_not_mem (Ne.symm here) (ih List.mem_cons_self)
        · exact ih (List.mem_cons_of_mem first later)

theorem ne_of_mem_reverse (free : delimiter ∉ t) : ∀ c ∈ t.reverse, (c != delimiter) = true := by
  intro c member
  simpa using fun same : c = delimiter => free (same ▸ List.mem_reverse.mp member)

theorem afterLast_of_not_mem (free : delimiter ∉ t) : afterLast delimiter t = t := by
  rw [afterLast, List.takeWhile_eq_self_iff.mpr (ne_of_mem_reverse free), List.reverse_reverse]

theorem afterLast_append (free : delimiter ∉ t) (s : Bytes) : afterLast delimiter (s ++ delimiter :: t) = t := by
  rw [afterLast, List.reverse_append, List.reverse_cons, List.append_assoc,
    List.takeWhile_append_of_pos (ne_of_mem_reverse free)]
  simp

theorem throughLast_append_afterLast (delimiter : UInt8) (s : Bytes) :
    throughLast delimiter s ++ afterLast delimiter s = s := by
  rw [throughLast, afterLast, ← List.reverse_append, List.takeWhile_append_dropWhile, List.reverse_reverse]

theorem not_mem_afterLast (delimiter : UInt8) (s : Bytes) : delimiter ∉ afterLast delimiter s := by
  intro member
  simpa using List.mem_takeWhile_imp (List.mem_reverse.mp member)

theorem throughLast_concat (delimiter : UInt8) (s : Bytes) :
    throughLast delimiter (s ++ [delimiter]) = s ++ [delimiter] := by
  simp [throughLast]

theorem throughLast_cases (delimiter : UInt8) (s : Bytes) :
    throughLast delimiter s = [] ∨ ∃ front, throughLast delimiter s = front ++ [delimiter] := by
  cases split : s.reverse.dropWhile (· != delimiter) with
  | nil => exact .inl (by simp [throughLast, split])
  | cons c rest =>
    have first := List.head?_dropWhile_not (· != delimiter) s.reverse
    rw [split] at first
    obtain rfl : c = delimiter := by simpa using first
    exact .inr ⟨rest.reverse, by simp [throughLast, split]⟩

/-- Each part but the first stands behind a delimiter. -/
theorem join_cons (delimiter first : Bytes) (rest : List Bytes) :
    join delimiter (first :: rest) = first ++ (rest.map (delimiter ++ ·)).flatten := by
  induction rest generalizing first with
  | nil => simp [join]
  | cons next rest ih =>
    have divided : join delimiter (first :: next :: rest) =
        first ++ (delimiter ++ join delimiter (next :: rest)) := by simp [join]
    rw [divided, ih, List.map_cons, List.flatten_cons, List.append_assoc]

theorem join_concat (delimiter : Bytes) (parts : List Bytes) (last : Bytes) :
    ∃ front, join delimiter (parts ++ [last]) = front ++ last := by
  induction parts with
  | nil => exact ⟨[], by simp [join]⟩
  | cons part rest ih =>
    obtain ⟨front, joined⟩ := ih
    cases rest with
    | nil => exact ⟨part ++ delimiter, by simp [join]⟩
    | cons next rest =>
      refine ⟨part ++ delimiter ++ front, ?_⟩
      rw [List.append_assoc, ← joined]
      simp [join]

theorem join_append_singleton (delimiter : Bytes) {parts : List Bytes} (some_ : parts ≠ []) (last : Bytes) :
    join delimiter (parts ++ [last]) = join delimiter parts ++ delimiter ++ last := by
  obtain ⟨first, rest, rfl⟩ := List.exists_cons_of_ne_nil some_
  simp [join_cons]

theorem join_fields (delimiter : UInt8) (s : Bytes) : join [delimiter] (fields delimiter s) = s := by
  induction s with
  | nil => rfl
  | cons c rest ih =>
    obtain ⟨field, more, split⟩ := List.exists_cons_of_ne_nil (fields_ne_nil delimiter rest)
    rw [split, join_cons] at ih
    rw [fields, split]
    split_ifs with here
    · rw [join_cons, List.map_cons, List.flatten_cons, here, List.nil_append, List.append_assoc, ih,
        List.singleton_append]
    · rw [join_cons, List.cons_append, ih]

/-! ## Lines -/

theorem dropReturn_subset (line : Bytes) : dropReturn line ⊆ line := by
  unfold dropReturn
  split_ifs
  · exact List.dropLast_subset line
  · exact List.Subset.refl line

theorem not_mem_of_mem_lines {line : Bytes} (member : line ∈ lines s) : '\n'.toUInt8 ∉ line := by
  have whole : line ∈ (fields '\n'.toUInt8 s).map dropReturn := by
    unfold lines at member
    dsimp only at member
    split_ifs at member
    · exact List.dropLast_subset _ member
    · exact member
  obtain ⟨field, cut, rfl⟩ := List.mem_map.mp whole
  exact fun feed => not_mem_of_mem_fields cut (dropReturn_subset field feed)

theorem dropReturn_cons {c : UInt8} (kept : c ≠ '\r'.toUInt8 ∨ s ≠ []) : dropReturn (c :: s) = c :: dropReturn s := by
  cases s with
  | nil =>
    have other : c ≠ '\r'.toUInt8 := kept.resolve_right (by simp)
    simp [dropReturn, other]
  | cons next rest =>
    simp only [dropReturn, List.getLast?_cons_cons, List.dropLast_cons_cons]
    split_ifs <;> rfl

/-- The text without the one carriage return directly before each line feed and at the very end. -/
def withoutReturns : Bytes → Bytes
  | [] => []
  | c :: rest =>
    if c = '\r'.toUInt8 ∧ (rest = [] ∨ rest.head? = some '\n'.toUInt8) then withoutReturns rest
    else c :: withoutReturns rest

theorem withoutReturns_of_not_mem (free : '\r'.toUInt8 ∉ s) : withoutReturns s = s := by
  induction s with
  | nil => rfl
  | cons c rest ih =>
    obtain ⟨other, free⟩ := not_or.mp (mt List.mem_cons.mpr free)
    rw [withoutReturns, if_neg (fun both => other both.1.symm), ih free]

/-- It makes no difference whether the carriage returns are dropped before a text is cut or after. -/
theorem fields_withoutReturns (s : Bytes) :
    fields '\n'.toUInt8 (withoutReturns s) = (fields '\n'.toUInt8 s).map dropReturn := by
  induction s with
  | nil => rfl
  | cons c rest ih =>
    rw [withoutReturns]
    split_ifs with drops
    · -- What is behind the return starts with an empty field, which the return alone is put in.
      obtain ⟨rfl, rfl | feed⟩ := drops
      · decide
      · obtain ⟨more, rfl⟩ := List.head?_eq_some_iff.mp feed
        have alone : fields '\n'.toUInt8 ('\r'.toUInt8 :: '\n'.toUInt8 :: more) =
            ['\r'.toUInt8] :: fields '\n'.toUInt8 more := by
          have other : ¬ '\r'.toUInt8 = '\n'.toUInt8 := by decide
          simp [fields, other]
        rw [ih, alone, fields, if_pos rfl, List.map_cons, List.map_cons]
        rfl
    · obtain ⟨field, more, split⟩ := List.exists_cons_of_ne_nil (fields_ne_nil '\n'.toUInt8 rest)
      rw [fields, fields, ih, split]
      split_ifs with feed
      · rfl
      · -- A field is empty just where the text ends or another line feed follows.
        have kept : c ≠ '\r'.toUInt8 ∨ field ≠ [] := by
          refine or_iff_not_imp_left.mpr fun return_ empty => drops ⟨not_not.mp return_, ?_⟩
          have joined := join_fields '\n'.toUInt8 rest
          rw [split, empty, join_cons, List.nil_append] at joined
          cases more with
          | nil => exact .inl joined.symm
          | cons next others => exact .inr (by rw [← joined]; rfl)
        rw [List.map_cons, List.map_cons, dropReturn_cons kept]

/-- The lines of a text make it up, without the returns at their ends and up to a line feed at the end. -/
theorem join_lines (s : Bytes) :
    withoutReturns s = join ['\n'.toUInt8] (lines s) ∨
      withoutReturns s = join ['\n'.toUInt8] (lines s) ++ ['\n'.toUInt8] := by
  have whole := join_fields '\n'.toUInt8 (withoutReturns s)
  rw [fields_withoutReturns] at whole
  unfold lines
  dsimp only
  split_ifs with empty
  · obtain ⟨front, cut⟩ := List.getLast?_eq_some_iff.mp empty
    rw [cut] at whole ⊢
    rw [List.dropLast_concat, ← whole]
    by_cases none_ : front = []
    · exact .inl (by rw [none_]; rfl)
    · exact .inr (by rw [join_append_singleton _ none_, List.append_nil])
  · exact .inl whole.symm

/-! ## Reading on -/

theorem not_mem_before (c : UInt8) (s : Bytes) : c ∉ before c s := fun member => by
  simpa using List.mem_takeWhile_imp member

theorem before_cases (c : UInt8) (s : Bytes) : (c ∉ s ∧ before c s = s) ∨ ∃ rest, s = before c s ++ c :: rest := by
  have cut : before c s ++ s.dropWhile (· != c) = s := List.takeWhile_append_dropWhile
  cases behind : s.dropWhile (· != c) with
  | nil =>
    rw [behind, List.append_nil] at cut
    exact .inl ⟨cut ▸ not_mem_before c s, cut⟩
  | cons first rest =>
    have first_ := List.head?_dropWhile_not (· != c) s
    rw [behind] at first_ cut
    obtain rfl : first = c := by simpa using first_
    exact .inr ⟨rest, cut.symm⟩

theorem lines_of_not_mem (free : '\n'.toUInt8 ∉ s) :
    lines s = if dropReturn s = [] then [] else [dropReturn s] := by
  simp [lines, fields_of_not_mem free]

theorem lines_append (free : '\n'.toUInt8 ∉ s) (t : Bytes) :
    lines (s ++ '\n'.toUInt8 :: t) = dropReturn s :: lines t := by
  obtain ⟨field, more, split⟩ := List.exists_cons_of_ne_nil (fields_ne_nil '\n'.toUInt8 t)
  simp only [lines, fields_append, fields_of_not_mem free, split, List.singleton_append, List.map_cons,
    List.getLast?_cons_cons, List.dropLast_cons_cons]
  split_ifs <;> rfl

/-- The lines from a place on, one after the other: each goes to the next line feed or to the end of the text, and
    the next one starts behind that. An empty line at the end of the text is none. -/
def linesFrom (s : Bytes) (start : Nat) : List Bytes :=
  if start ≤ s.length then
    let line := before '\n'.toUInt8 (s.drop start)
    let stop := start + line.length
    if stop = s.length ∧ dropReturn line = [] then [] else dropReturn line :: linesFrom s (stop + 1)
  else []
termination_by s.length + 1 - start

/-- Reading on ends, and finds the lines of what is left of the text. -/
theorem linesFrom_eq (s : Bytes) (start : Nat) : linesFrom s start = lines (s.drop start) := by
  fun_induction linesFrom s start with
  | case1 start inside line stop last =>
    rcases before_cases '\n'.toUInt8 (s.drop start) with ⟨free, whole⟩ | ⟨rest, split⟩
    · have empty : dropReturn (s.drop start) = [] := whole ▸ last.2
      rw [lines_of_not_mem free, if_pos empty]
    · -- A line that ends at a line feed does not end with the text.
      have lengths := congrArg List.length split
      simp only [List.length_drop, List.length_append, List.length_cons] at lengths
      have ends : start + (before '\n'.toUInt8 (s.drop start)).length = s.length := last.1
      omega
  | case2 start inside line stop goes ih =>
    rw [ih]
    rcases before_cases '\n'.toUInt8 (s.drop start) with ⟨free, whole⟩ | ⟨rest, split⟩
    · have ends : stop = s.length := by
        have length : line.length = s.length - start := by rw [← List.length_drop, ← whole]
        omega
      have full : dropReturn (s.drop start) ≠ [] := whole ▸ fun empty => goes ⟨ends, empty⟩
      rw [lines_of_not_mem free, if_neg full, List.drop_eq_nil_of_le (by omega)]
      exact congrArg (dropReturn · :: []) whole
    · have behind : s.drop (stop + 1) = rest := by
        rw [show stop + 1 = start + (line.length + 1) by omega, ← List.drop_drop, split]
        simp [line]
      rw [behind, ← lines_append (not_mem_before _ _) rest, ← split]
  | case3 start outside => rw [List.drop_eq_nil_of_le (by omega)]; rfl

/-- Cutting loses nothing. The fields of a text hold no delimiter and make it up again. Its lines, which reading
    on from its start finds, hold no line feed and make it up, but for a line feed at its end; what they have lost
    otherwise is one carriage return directly before each line feed and at the very end, where there is one. -/
theorem cut_lossless (s : Bytes) (delimiter : UInt8) :
    join [delimiter] (fields delimiter s) = s ∧ (∀ field ∈ fields delimiter s, delimiter ∉ field) ∧
      linesFrom s 0 = lines s ∧ (∀ line ∈ lines s, '\n'.toUInt8 ∉ line) ∧
      ('\r'.toUInt8 ∉ s →
        s = join ['\n'.toUInt8] (lines s) ∨ s = join ['\n'.toUInt8] (lines s) ++ ['\n'.toUInt8]) ∧
      (withoutReturns s = join ['\n'.toUInt8] (lines s) ∨
        withoutReturns s = join ['\n'.toUInt8] (lines s) ++ ['\n'.toUInt8]) := by
  have joined := join_lines s
  refine ⟨join_fields delimiter s, fun _ => not_mem_of_mem_fields, linesFrom_eq s 0, fun _ => not_mem_of_mem_lines,
    fun free => ?_, joined⟩
  rwa [withoutReturns_of_not_mem free] at joined

/-- An empty line is kept between others, and none is made of a line feed at the end. -/
theorem cut_lossless_empty_line :
    let s := utf8 "ls\n\ncd\n"
    '\r'.toUInt8 ∉ s ∧ lines s = [utf8 "ls", [], utf8 "cd"] ∧
      (s = join ['\n'.toUInt8] (lines s) ∨ s = join ['\n'.toUInt8] (lines s) ++ ['\n'.toUInt8]) := by
  intro s
  have free : '\r'.toUInt8 ∉ s := by decide
  exact ⟨free, by decide, (cut_lossless s 0).2.2.2.2.1 free⟩

/-- A line that is only a return is empty, so it is none at the end of a text. -/
example : lines (utf8 "ls\r\r\n\r") = [utf8 "ls\r"] := by decide

end Bytes

end ShellCompletion
