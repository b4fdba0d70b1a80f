import ArithTokens.Proofs.Addresses

/-!
# Diagnostics of lines

A diagnostic shows one line of a text and takes nothing else from it but the number of that line.
So the line of a place can be cut out and the error put at its column there: with the lines in front
of it counted as lines before the text, the diagnostic is the same, and where there is none for the
text there is none for the line.

    line ∈ linesOf s → linesOf line = [line]                                (linesOf_of_mem)
    the place of p in s → the diagnostic in s at p is that in its line at its column
                                                                   (diagnostic_of_find?)
-/

namespace ArithTokens

/-! ## A line by itself -/

namespace Place

/-- A line of a text is one line by itself. -/
theorem linesOf_of_mem {s line : Text} (h : line ∈ linesOf s) : linesOf line = [line] := by
  obtain ⟨body, hbody, rfl | rfl⟩ := lineFeed_of_mem_linesOf h
  · exact linesOf_append hbody []
  · exact linesOf_line hbody

/-- So a place keeps its text and its column there. -/
theorem IsAt.find?_text {s : Text} {p : Nat} {place : Place} (h : IsAt s p place) :
    find? place.text place.column = some ⟨1, place.text, place.column⟩ := by
  have hline : IsAt place.text place.column ⟨1, place.text, place.column⟩ := by
    refine ⟨[], [], linesOf_of_mem h.mem_linesOf, rfl, (Nat.zero_add _).symm, ?_⟩
    rcases Nat.lt_or_eq_of_le h.column_le with hlt | heq
    · exact Or.inl hlt
    · exact Or.inr ⟨rfl, heq⟩
  exact hline.find?_eq_some

/-- It also does without its line feed, unless it is behind it. -/
theorem IsAt.find?_body {s : Text} {p : Nat} {place : Place} (h : IsAt s p place) {body : Text}
    (hbody : place.text = body ++ ['\n']) (hlt : place.column < place.text.length) :
    find? body place.column = some ⟨1, body, place.column⟩ := by
  have hfeed : '\n' ∉ body := by
    obtain ⟨body', hbody', htext | htext⟩ := lineFeed_of_mem_linesOf h.mem_linesOf
    · rw [hbody] at htext
      rwa [List.append_cancel_right htext]
    · rw [hbody] at htext
      rw [← htext] at hbody'
      simp at hbody'
  apply find?_line hfeed
  rw [hbody, List.length_append, List.length_singleton] at hlt
  omega

end Place

/-! ## Top theorem -/

/-- **A diagnostic depends only on its line**, on the number of the line and on the column: cutting
out the line changes nothing, and dropping its line feed changes nothing for a column before it. -/
theorem diagnostic_of_find? (cause : Cause) {s : Text} {p : Nat} {place : Place}
    (h : Place.find? s p = some place) (origin : Text) (k : Nat) :
    LexError.diagnostic ⟨cause, p⟩ s origin k =
        LexError.diagnostic ⟨cause, place.column⟩ place.text origin (k + place.line - 1) ∧
      ∀ body, place.text = body ++ ['\n'] → place.column < place.text.length →
        LexError.diagnostic ⟨cause, p⟩ s origin k =
          LexError.diagnostic ⟨cause, place.column⟩ body origin (k + place.line - 1) := by
  have hplace := Place.find?_eq_some_iff.mp h
  have hnumber : place.line + k = 1 + (k + place.line - 1) := by
    obtain ⟨before, after, hlines, hline, hend⟩ := hplace
    omega
  have hcause : (LexError.mk cause p).cause = (LexError.mk cause place.column).cause := rfl
  constructor
  · exact LexError.diagnostic_congr hcause h hplace.find?_text (Or.inl rfl) (Or.inl rfl) hnumber
      origin
  · intro body hbody hlt
    have hbodyPlace := hplace.find?_body hbody hlt
    exact LexError.diagnostic_congr hcause h hbodyPlace (Or.inr hbody) (Or.inl rfl) hnumber origin

/-- An error on the line feed of a line, and one in the spaces at its start. -/
theorem diagnostic_of_find?_indented :
    Place.find? "1\n  4.\n$".toList 6 = some ⟨2, "  4.\n".toList, 4⟩ ∧
      Place.find? "1\n  4.\n$".toList 3 = some ⟨2, "  4.\n".toList, 1⟩ ∧
      LexError.diagnostic ⟨.unterminatedFloat "4.".toList, 6⟩ "1\n  4.\n$".toList "stdin".toList 7 =
        LexError.diagnostic ⟨.unterminatedFloat "4.".toList, 4⟩ "  4.".toList "stdin".toList 8 ∧
      LexError.diagnostic ⟨.inputTooLong 9, 3⟩ "1\n  4.\n$".toList "stdin".toList 7 =
        LexError.diagnostic ⟨.inputTooLong 9, 1⟩ "  4.\n".toList "stdin".toList 8 := by
  have hfeed : Place.find? "1\n  4.\n$".toList 6 = some ⟨2, "  4.\n".toList, 4⟩ := by
    decide +kernel
  have hspace : Place.find? "1\n  4.\n$".toList 3 = some ⟨2, "  4.\n".toList, 1⟩ := by
    decide +kernel
  refine ⟨hfeed, hspace, ?_, ?_⟩
  · exact (diagnostic_of_find? _ hfeed "stdin".toList 7).2 "  4.".toList rfl (by decide)
  · exact (diagnostic_of_find? _ hspace "stdin".toList 7).1

end ArithTokens
