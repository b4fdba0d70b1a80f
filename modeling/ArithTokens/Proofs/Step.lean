import ArithTokens.Proofs.Scan

/-!
# Steps of a cursor

All that a step can come to, without saying how it is taken: the blanks under the cursor, then the
end of the text or one lexeme that ends where it does by the next character.  These are the only
two cases, and each determines the answer and the cursor behind it.

    IsStep n s result ↔ next ⟨n, s⟩ = result                                      (isStep_iff)
-/

namespace ArithTokens

/-- From offset `n` on, a step over the front of a text comes to an answer and a cursor. -/
inductive IsStep (n : Nat) : Text → Except LexError Token × Cursor → Prop
  | atEnd {blanks : Text} : (∀ c ∈ blanks, isBlank c = true) →
      IsStep n blanks (.ok (Token.atEnd (n + blanks.length)), ⟨n + blanks.length, []⟩)
  | lexeme {blanks : Text} {l : Lexeme} {rest : Text} : (∀ c ∈ blanks, isBlank c = true) →
      l.WellFormed → l.EndsBefore rest.head? →
      IsStep n (blanks ++ (l.text ++ rest))
        (l.read (n + blanks.length), ⟨n + blanks.length + l.text.length, rest⟩)

namespace Cursor

theorem next_blanks_append (n : Nat) {blanks : Text} (h : ∀ c ∈ blanks, isBlank c = true)
    (s : Text) : next ⟨n, blanks ++ s⟩ = next ⟨n + blanks.length, s⟩ := by
  induction blanks generalizing n with
  | nil => rfl
  | cons c blanks ih =>
    obtain ⟨hc, hblanks⟩ := List.forall_mem_cons.mp h
    rw [List.cons_append, next_blank n _ hc, ih (n + 1) hblanks, List.length_cons]
    rw [show n + 1 + blanks.length = n + (blanks.length + 1) by omega]

theorem next_of_isStep {n : Nat} {s : Text} {result : Except LexError Token × Cursor}
    (h : IsStep n s result) : next ⟨n, s⟩ = result := by
  cases h with
  | atEnd hb =>
    have h := next_blanks_append n hb []
    rwa [List.append_nil] at h
  | lexeme hb hl hr => rw [next_blanks_append n hb, next_text_append _ hl hr]

theorem isStep_next (n : Nat) (s : Text) : IsStep n s (next ⟨n, s⟩) := by
  have hb : ∀ c ∈ s.takeWhile isBlank, isBlank c = true := List.all_eq_true.mp List.all_takeWhile
  have hs : s.takeWhile isBlank ++ s.dropWhile isBlank = s := List.takeWhile_append_dropWhile
  have hstep : ∃ result, IsStep n s result := by
    cases hd : s.dropWhile isBlank with
    | nil =>
      rw [hd, List.append_nil] at hs
      rw [hs] at hb
      exact ⟨_, .atEnd hb⟩
    | cons c r =>
      have hc : isBlank c = false := by
        have h := List.head?_dropWhile_not isBlank s
        rw [hd] at h
        simpa using h
      obtain ⟨l, rest, he, hl, hr⟩ := Lexeme.exists_wellFormed (s := r) hc
      rw [← hs, hd, he]
      exact ⟨_, .lexeme hb hl hr⟩
  obtain ⟨result, h⟩ := hstep
  rwa [next_of_isStep h]

end Cursor

theorem isStep_iff {n : Nat} {s : Text} {result : Except LexError Token × Cursor} :
    IsStep n s result ↔ Cursor.next ⟨n, s⟩ = result := by
  constructor
  · exact Cursor.next_of_isStep
  · rintro rfl
    exact Cursor.isStep_next n s

end ArithTokens
