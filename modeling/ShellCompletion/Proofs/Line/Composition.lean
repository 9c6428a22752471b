import ShellCompletion.Proofs.Line.Spacing

namespace ShellCompletion

/-- A blank divides the tokens of a line exactly if it is not quoted. Quoted, it belongs to a token itself. -/
theorem tokenize_separated_iff {s t : Bytes} {c : UInt8} (blank : Bytes.isBlank c) :
    tokenize (s ++ c :: t) = tokenize s ++ (tokenize t).map (Token.shift (s.length + 1)) ↔
      Quoting.bare.after s = .bare := by
  constructor
  · intro parts
    have free : ¬ ∃ token ∈ tokenize (s ++ c :: t), token.Covers s.length := by
      rintro ⟨token, member, starts, stops⟩
      rw [parts, List.mem_append] at member
      rcases member with before | behind
      · have := (tokenize_within s token before).inside
        omega
      · obtain ⟨later, _, rfl⟩ := List.mem_map.mp behind
        simp only [Token.shift] at starts
        omega
    have separates : SeparatesAt (s ++ c :: t) s.length := by
      by_contra word
      exact free ((covered_iff (by simp)).mpr word)
    obtain ⟨_, _, plain, _⟩ := separates
    rw [List.take_left] at plain
    exact (Quoting.feed_plain plain).1
  · exact fun bare => tokenize_separated bare blank

theorem tokenize_text {line : Bytes} {token : Token} (member : token ∈ tokenize line) :
    tokenize token.text = [⟨token.text, 0, token.text.length⟩] := by
  obtain ⟨typed, joins⟩ := joins_of_mem_words (List.mem_map_of_mem member)
  exact tokenize_joined joins typed

/-- A blank divides a line into the tokens before it and those behind it, counted from there, exactly if it is not
    quoted. A line cut where one of its tokens starts has the earlier tokens on the one side and that token with the
    later ones on the other. Each token's text is a line of one token. -/
theorem tokenize_parts :
    (∀ (s t : Bytes) (c : UInt8), Bytes.isBlank c →
        (tokenize (s ++ c :: t) = tokenize s ++ (tokenize t).map (Token.shift (s.length + 1)) ↔
          Quoting.bare.after s = .bare)) ∧
      ∀ (line : Bytes) (before after : List Token) (token : Token), tokenize line = before ++ token :: after →
        tokenize (line.take token.start) = before ∧
          (tokenize (line.drop token.start)).map (Token.shift token.start) = token :: after ∧
          tokenize token.text = [⟨token.text, 0, token.text.length⟩] := by
  refine ⟨fun s t c blank => tokenize_separated_iff blank, fun line before after token parts => ?_⟩
  have member : token ∈ tokenize line := by simp [parts]
  exact ⟨(Cut.tokenize_take_start parts).1, tokenize_drop_start parts, tokenize_text member⟩

/-- The first blank of `cat 'a b' c` divides the line, the second one does not. -/
theorem tokenize_parts_quoted :
    tokenize (utf8 "cat" ++ ' '.toUInt8 :: utf8 "'a b' c") =
        tokenize (utf8 "cat") ++ (tokenize (utf8 "'a b' c")).map (Token.shift 4) ∧
      tokenize (utf8 "cat 'a" ++ ' '.toUInt8 :: utf8 "b' c") ≠
        tokenize (utf8 "cat 'a") ++ (tokenize (utf8 "b' c")).map (Token.shift 7) ∧
      (tokenize (utf8 "'a b' c")).map (Token.shift 4) = [⟨utf8 "'a b'", 4, 9⟩, ⟨utf8 "c", 10, 11⟩] ∧
      tokenize (utf8 "'a b'") = [⟨utf8 "'a b'", 0, 5⟩] := by
  obtain ⟨divides, cuts⟩ := tokenize_parts
  have blank : Bytes.isBlank ' '.toUInt8 := by decide
  obtain ⟨_, rest, alone⟩ := cuts (utf8 "cat 'a b' c") [⟨utf8 "cat", 0, 3⟩] [⟨utf8 "c", 10, 11⟩] ⟨utf8 "'a b'", 4, 9⟩
    (by decide)
  refine ⟨(divides _ _ _ blank).mpr (by decide), fun parts => ?_, rest, alone⟩
  exact absurd ((divides _ _ _ blank).mp parts) (by decide)

end ShellCompletion
