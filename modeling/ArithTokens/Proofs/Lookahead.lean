import ArithTokens.Proofs.Session

/-!
# Looking ahead

A step looks at the characters that it passes and at one more, and at nothing else: not at the text
before the cursor, not at what has been asked before, and not further on.  Where two cursors have
the same characters before them as far as the one passes them, and the same next character or both
none, the other passes as many, and the answers differ by the distance of the cursors only.

    the same characters, one further on included → the same step, shifted      (next_congr_of_take)
-/

namespace ArithTokens

/-! ## Definitions -/

/-- The second answer is the first one with each position `distance` further on. -/
inductive IsShifted (distance : Int) : Except LexError Token → Except LexError Token → Prop
  | token {kind : Kind} {value : Option Binary64} {start stop start' stop' : Nat} :
      (start' : Int) = start + distance → (stop' : Int) = stop + distance →
      IsShifted distance (.ok ⟨kind, value, ⟨start, stop⟩⟩) (.ok ⟨kind, value, ⟨start', stop'⟩⟩)
  | error {cause : Cause} {position position' : Nat} :
      (position' : Int) = position + distance →
      IsShifted distance (.error ⟨cause, position⟩) (.error ⟨cause, position'⟩)

namespace Cursor

/-- The cursor can be reached in a text, by any requests. -/
def IsReachable (s : Text) (c : Cursor) : Prop :=
  ∃ start requests, ofText s = .ok start ∧ c = start.after requests

end Cursor

/-! ## Lemmas -/

/-- A lexeme is read the same way at any offset. -/
theorem Lexeme.isShifted_read (l : Lexeme) (n n' : Nat) :
    IsShifted ((n' : Int) - n) (l.read n) (l.read n') := by
  cases l with
  | symbol kind c =>
    refine .token ?_ ?_
    · omega
    · simp only [text, List.length_singleton]
      omega
  | number literal =>
    cases hx : Binary64.ofLiteral? literal with
    | none =>
      simp only [read, hx]
      exact .error (by omega)
    | some x =>
      simp only [read, hx]
      refine .token ?_ ?_
      · omega
      · simp only [text]
        omega
  | openFraction literal =>
    refine .error ?_
    simp only [text]
    omega
  | stray c => exact .error (show (n' : Int) = n + (n' - n) by omega)

/-- A text that agrees with another one on a front part and on the next character goes on behind
that part with the same character, or ends there too. -/
theorem exists_eq_append_of_take {a rest r' : Text} (h : r'.take a.length = a)
    (hn : r'[a.length]? = (a ++ rest)[a.length]?) :
    ∃ rest', r' = a ++ rest' ∧ rest'.head? = rest.head? := by
  refine ⟨r'.drop a.length, ?_, ?_⟩
  · have hr' := List.take_append_drop a.length r'
    rw [h] at hr'
    exact hr'.symm
  · rw [List.head?_drop, hn, List.getElem?_append_right (Nat.le_refl _), Nat.sub_self,
      List.head?_eq_getElem?]

/-- Where the same characters follow, one further on included, the step is the same. -/
theorem IsStep.congr {n n' m : Nat} {r r' : Text} {result : Except LexError Token × Cursor}
    (h : IsStep n r result) (hm : result.2.offset = n + m) (htake : r.take m = r'.take m)
    (hnext : r[m]? = r'[m]?) :
    ∃ result', IsStep n' r' result' ∧ result'.2.offset = n' + m ∧
      IsShifted ((n' : Int) - n) result.1 result'.1 := by
  cases h with
  | atEnd hb =>
    obtain rfl : m = r.length := by
      simp only at hm
      omega
    rw [List.take_length] at htake
    have hend : r'[r.length]? = (r ++ [])[r.length]? := by
      rw [List.append_nil, hnext]
    obtain ⟨rest', rfl, hhead⟩ := exists_eq_append_of_take htake.symm hend
    obtain rfl := List.head?_eq_none_iff.mp hhead
    rw [List.append_nil]
    refine ⟨_, .atEnd hb, rfl, .token ?_ ?_⟩ <;> omega
  | @lexeme blanks l rest hb hl hr =>
    have hlen : m = (blanks ++ l.text).length := by
      rw [List.length_append]
      simp only at hm
      omega
    subst hlen
    rw [← List.append_assoc] at htake hnext
    rw [List.take_left] at htake
    obtain ⟨rest', rfl, hhead⟩ := exists_eq_append_of_take htake.symm hnext.symm
    rw [List.append_assoc]
    refine ⟨_, .lexeme hb hl (hhead ▸ hr), ?_, ?_⟩
    · simp only [List.length_append]
      omega
    · have h := l.isShifted_read (n + blanks.length) (n' + blanks.length)
      rwa [show ((n' + blanks.length : Nat) : Int) - (n + blanks.length : Nat) = n' - n by omega]
        at h

namespace Cursor

theorem IsReachable.isIn {s : Text} {c : Cursor} (h : c.IsReachable s) : c.IsIn s := by
  obtain ⟨start, requests, hstart, rfl⟩ := h
  obtain ⟨hs, _, hin⟩ := isIn_of_ofText hstart
  exact (hin.session hs requests).1

/-! ## Top theorem -/

/-- **A step looks one character ahead and has no memory.**  Whatever led to two cursors, and
whatever stands before them and further on, a step over `m` characters is the same step at the
other cursor if those characters are the same and the next one is, or both texts end there. -/
theorem next_congr_of_take {s t : Text} {c d : Cursor} (hc : c.IsReachable s)
    (hd : d.IsReachable t) {m : Nat} (hm : c.next.2.offset = c.offset + m)
    (htake : (s.drop c.offset).take m = (t.drop d.offset).take m)
    (hnext : s[c.offset + m]? = t[d.offset + m]?) :
    d.next.2.offset = d.offset + m ∧
      IsShifted ((d.offset : Int) - c.offset) c.next.1 d.next.1 := by
  have hstep : IsStep c.offset (s.drop c.offset) c.next := by
    rw [← hc.isIn.rest_eq]
    exact isStep_next c.offset c.rest
  have hnext' : (s.drop c.offset)[m]? = (t.drop d.offset)[m]? := by
    rw [List.getElem?_drop, List.getElem?_drop, hnext]
  obtain ⟨result, hresult, hoffset, hshifted⟩ := hstep.congr hm htake hnext'
  rw [← hd.isIn.rest_eq] at hresult
  have he : d.next = result := next_of_isStep hresult
  rw [he]
  exact ⟨hoffset, hshifted⟩

/-- Behind an error in one text and at the start of the other, a minus sign before a parenthesis is
the same token. -/
theorem next_congr_minus :
    IsReachable "3.-(1".toList (after ⟨0, "3.-(1".toList⟩ [.next]) ∧
      IsReachable "-($".toList ⟨0, "-($".toList⟩ ∧
      (after ⟨0, "3.-(1".toList⟩ [.next]).next =
        (.ok ⟨.minus, none, ⟨2, 3⟩⟩, ⟨3, "(1".toList⟩) ∧
      (next ⟨0, "-($".toList⟩).2.offset = 1 ∧
      IsShifted (-2) (.ok ⟨.minus, none, ⟨2, 3⟩⟩) (next ⟨0, "-($".toList⟩).1 := by
  have hc : IsReachable "3.-(1".toList (after ⟨0, "3.-(1".toList⟩ [.next]) := ⟨_, _, rfl, rfl⟩
  have hd : IsReachable "-($".toList ⟨0, "-($".toList⟩ := ⟨_, [], rfl, rfl⟩
  have hnext : (after ⟨0, "3.-(1".toList⟩ [.next]).next =
      (.ok ⟨.minus, none, ⟨2, 3⟩⟩, ⟨3, "(1".toList⟩) := by
    decide +kernel
  have h := next_congr_of_take (m := 1) hc hd (by decide +kernel) (by decide +kernel)
    (by decide +kernel)
  rw [hnext] at h
  exact ⟨hc, hd, hnext, h⟩

end Cursor

end ArithTokens
