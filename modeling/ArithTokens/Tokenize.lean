import ArithTokens.Cursor

/-!
# The tokens of a text

The steps of a cursor from the start of a text, up to the end token.  The first error is the
answer for the whole text.
-/

namespace ArithTokens

/-! ## Algorithm -/

/-- The tokens from a cursor on, behind those already found (last one first). -/
def Cursor.tokens (c : Cursor) (found : List Token) : Except LexError (List Token) :=
  match _ : c.next with
  | (.error e, _) => .error e
  | (.ok t, after) => if _ : t.isEnd then .ok (t :: found).reverse else after.tokens (t :: found)
termination_by c.rest.length
decreasing_by exact next_rest_lt ‹_› ‹_›

/-- The tokens of a text, the end token last. -/
def tokenize (s : Text) : Except LexError (List Token) :=
  match Cursor.ofText s with
  | .error e => .error e
  | .ok c => c.tokens []

/-! ## Lemmas -/

theorem tokenize_of_length_le {s : Text} (h : s.length ≤ Position.greatest) :
    tokenize s = Cursor.tokens ⟨0, s⟩ [] := by
  unfold tokenize
  rw [Cursor.ofText_of_length_le h]

theorem tokenize_of_greatest_lt {s : Text} (h : Position.greatest < s.length) :
    tokenize s = .error ⟨.inputTooLong s.length, 0⟩ := by
  unfold tokenize
  rw [Cursor.ofText_of_greatest_lt h]

theorem Cursor.tokens_of_error {c after : Cursor} {e : LexError} (h : c.next = (.error e, after))
    (found : List Token) : c.tokens found = .error e := by
  rw [Cursor.tokens]
  split
  · next h' =>
    rw [h] at h'
    simp only [Prod.mk.injEq, Except.error.injEq] at h'
    rw [h'.1]
  · next h' =>
    rw [h] at h'
    simp at h'

theorem Cursor.tokens_of_ok {c after : Cursor} {t : Token} (h : c.next = (.ok t, after))
    (found : List Token) :
    c.tokens found = if t.isEnd then .ok (t :: found).reverse else after.tokens (t :: found) := by
  rw [Cursor.tokens]
  split
  · next h' =>
    rw [h] at h'
    simp at h'
  · next h' =>
    rw [h] at h'
    simp only [Prod.mk.injEq, Except.ok.injEq] at h'
    obtain ⟨rfl, rfl⟩ := h'
    split <;> rfl

/-- Tokens already found only stand in front of those still to come. -/
theorem Cursor.tokens_eq_map (c : Cursor) (found : List Token) :
    c.tokens found = (c.tokens []).map (found.reverse ++ ·) := by
  generalize hn : c.rest.length = n
  induction n using Nat.strongRecOn generalizing c found with
  | ind n ih =>
    cases h : c.next with
    | mk answer after =>
      cases answer with
      | error e => rw [tokens_of_error h, tokens_of_error h]; rfl
      | ok t =>
        rw [tokens_of_ok h, tokens_of_ok h]
        by_cases ht : t.isEnd = true
        · simp [ht, Except.map]
        · have hlt := next_rest_lt h ht
          simp only [ht, Bool.false_eq_true, if_false]
          rw [ih _ (by omega) after (t :: found) rfl, ih _ (by omega) after [t] rfl]
          cases after.tokens [] <;> simp [Except.map]

end ArithTokens
