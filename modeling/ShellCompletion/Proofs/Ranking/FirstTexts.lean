import ShellCompletion.Handler
import ShellCompletion.Proofs.Ranking.Distinct

namespace ShellCompletion.Handler

variable {candidates others : List Candidate} {candidate : Candidate}

theorem distinctTexts_step (candidates : List Candidate) (new : Candidate) :
    distinctTexts (candidates ++ [new]) = distinctTexts candidates ++
      if new.text ∈ (distinctTexts candidates).map Candidate.text then [] else [new] := by
  rw [distinctTexts, List.foldl_append, ← distinctTexts, List.foldl_cons, List.foldl_nil]
  have known : (distinctTexts candidates).any (·.text = new.text) =
      decide (new.text ∈ (distinctTexts candidates).map Candidate.text) := by
    rw [Bool.eq_iff_iff]
    simp
  rw [known]
  by_cases member : new.text ∈ (distinctTexts candidates).map Candidate.text <;> simp [member]

/-- Each text is kept once, in the order of the first occurrences. -/
theorem texts_distinctTexts (candidates : List Candidate) :
    (distinctTexts candidates).map Candidate.text = (candidates.map Candidate.text).eraseDups := by
  induction candidates using List.reverseRecOn with
  | nil => rfl
  | append_singleton candidates new ih =>
    rw [distinctTexts_step, ih, List.map_append, List.map_append, ih, List.map_singleton, eraseDups_concat]
    simp only [List.mem_eraseDups]
    split_ifs <;> rfl

theorem distinctTexts_concat (candidates : List Candidate) (new : Candidate) :
    distinctTexts (candidates ++ [new]) =
      distinctTexts candidates ++ if new.text ∈ candidates.map Candidate.text then [] else [new] := by
  rw [distinctTexts_step, texts_distinctTexts]
  simp only [List.mem_eraseDups]

theorem nodup_distinctTexts (candidates : List Candidate) :
    ((distinctTexts candidates).map Candidate.text).Nodup := by
  rw [texts_distinctTexts]
  exact nodup_eraseDups _

theorem distinctTexts_append (candidates others : List Candidate) :
    distinctTexts (candidates ++ others) = distinctTexts candidates ++
      (distinctTexts others).filter fun other => other.text ∉ candidates.map Candidate.text := by
  induction others using List.reverseRecOn with
  | nil => simp [distinctTexts]
  | append_singleton others new ih =>
    rw [← List.append_assoc, distinctTexts_concat, distinctTexts_concat, ih, List.map_append, List.filter_append,
      List.append_assoc]
    congr 2
    simp only [List.mem_append]
    by_cases known : new.text ∈ others.map Candidate.text
    · rw [if_pos (.inr known), if_pos known, List.filter_nil]
    · rw [if_neg known, List.filter_singleton]
      by_cases before : new.text ∈ candidates.map Candidate.text
      · rw [if_pos (.inl before), decide_eq_false (not_not.mpr before), cond_false]
      · rw [if_neg (not_or.mpr ⟨before, known⟩), decide_eq_true before, cond_true]

theorem filter_distinctTexts (test : Bytes → Bool) (candidates : List Candidate) :
    (distinctTexts candidates).filter (test ·.text) = distinctTexts (candidates.filter (test ·.text)) := by
  induction candidates using List.reverseRecOn with
  | nil => rfl
  | append_singleton candidates new ih =>
    rw [distinctTexts_concat, List.filter_append, List.filter_append, ih]
    by_cases passes : test new.text
    · have same : new.text ∈ (candidates.filter (test ·.text)).map Candidate.text ↔
          new.text ∈ candidates.map Candidate.text := by
        constructor
        · exact fun member => (List.filter_sublist.map _).subset member
        · intro member
          obtain ⟨old, earlier, text⟩ := List.mem_map.mp member
          exact List.mem_map.mpr ⟨old, List.mem_filter.mpr ⟨earlier, by rwa [text]⟩, text⟩
      have alone : [new].filter (test ·.text) = [new] := by simp [passes]
      rw [alone, distinctTexts_concat]
      simp only [same]
      split_ifs <;> simp [passes]
    · have gone : [new].filter (test ·.text) = [] := by simp [passes]
      rw [gone, List.append_nil]
      split_ifs <;> simp [passes]

theorem mem_distinctTexts :
    candidate ∈ distinctTexts candidates ↔ candidates.find? (·.text = candidate.text) = some candidate := by
  induction candidates using List.reverseRecOn with
  | nil => simp [distinctTexts]
  | append_singleton candidates new ih =>
    rw [distinctTexts_concat, List.mem_append, List.find?_append, ih]
    cases found : candidates.find? (·.text = candidate.text) with
    | some first =>
      have text : first.text = candidate.text := by simpa using List.find?_some found
      have known : candidate.text ∈ candidates.map Candidate.text :=
        List.mem_map.mpr ⟨first, List.mem_of_find?_eq_some found, text⟩
      rw [Option.some_or, or_iff_left]
      intro last
      split_ifs at last with other
      · exact List.not_mem_nil last
      · rw [← List.mem_singleton.mp last] at other
        exact other known
    | none =>
      have fresh : candidate.text ∉ candidates.map Candidate.text := by
        simpa [List.find?_eq_none] using found
      rw [Option.none_or, or_iff_right (by simp)]
      by_cases here : new.text = candidate.text
      · rw [here, if_neg fresh]
        simp [here, eq_comm]
      · have other : candidate ≠ new := by
          rintro rfl
          exact here rfl
        split_ifs <;> simp [here, other]

theorem distinctTexts_subset (candidates : List Candidate) : distinctTexts candidates ⊆ candidates :=
  fun _ member => List.mem_of_find?_eq_some (mem_distinctTexts.mp member)

/-- Where candidates with the same text are the same, each of them is the first one. -/
theorem find?_text_of_mem (member : candidate ∈ candidates)
    (same : ∀ other ∈ candidates, other.text = candidate.text → other = candidate) :
    candidates.find? (·.text = candidate.text) = some candidate := by
  cases found : candidates.find? (·.text = candidate.text) with
  | none => exact absurd (decide_eq_true rfl) (List.find?_eq_none.mp found candidate member)
  | some first =>
    have text : first.text = candidate.text := by simpa using List.find?_some found
    rw [same first (List.mem_of_find?_eq_some found) text]

end ShellCompletion.Handler
