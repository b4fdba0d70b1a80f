import ArithTokens.Proofs.Grammar
import ArithTokens.Tokenize

/-!
# Scans

A derivation says what a cursor finds in a piece of text, given only the character after the piece:
blanks are skipped, and each lexeme that can be read gives a token.  A second derivation says where
and why a text has no tokens.  Every text has one of the two, and the cursor finds just that.

    c.tokens [] = ok T    ↔ T is what a scan of all of c.rest finds, and the end   (tokens_eq_ok_iff)
    c.tokens [] = error e ↔ Fails c.offset c.rest e                             (tokens_eq_error_iff)
    a scan of a piece → the tokens of the whole text start with those found      (tokens_append)
-/

namespace ArithTokens

/-! ## Derivations -/

/-- From offset `n` on, `s` is blanks and the lexemes of the tokens `found`, where the character
after `s` is `next`. -/
inductive Scans : Nat → Text → Option Char → List Token → Prop
  | nil {n : Nat} {next : Option Char} : Scans n [] next []
  | blank {n : Nat} {c : Char} {s : Text} {next : Option Char} {found : List Token} :
      isBlank c = true → Scans (n + 1) s next found → Scans n (c :: s) next found
  | token {n : Nat} {l : Lexeme} {t : Token} {s : Text} {next : Option Char}
      {found : List Token} :
      l.WellFormed → l.EndsBefore (s.head?.or next) → l.read n = .ok t →
      Scans (n + l.text.length) s next found → Scans n (l.text ++ s) next (t :: found)

/-- From offset `n` on, the text can be scanned up to a lexeme that is an error. -/
inductive Fails (n : Nat) : Text → LexError → Prop
  | stray {a rest : Text} {c : Char} {found : List Token} :
      Scans n a (some c) found → IsStray c →
      Fails n (a ++ c :: rest) ⟨.unexpectedCharacter c, n + a.length⟩
  | openFraction {a literal rest : Text} {found : List Token} :
      Scans n a literal.head? found → IsOpenLiteral literal → rest.head?.any isDigit = false →
      Fails n (a ++ (literal ++ rest)) ⟨.unterminatedFloat literal, n + a.length + literal.length⟩

/-! ## Lexemes that can be read -/

namespace Lexeme

theorem WellFormed.text_ne_nil {l : Lexeme} (h : l.WellFormed) : l.text ≠ [] := by
  have he : l.EndsBefore ([] : Text).head? := by cases l <;> simp [EndsBefore]
  exact text_ne_nil_of_first? (first?_text_append h he)

theorem WellFormed.head?_isBlank {l : Lexeme} (h : l.WellFormed) (rest : Text) :
    (l.text ++ rest).head?.any isBlank = false := by
  have hc : ∀ c, c = '-' ∨ isDigit c = true → isBlank c = false := by
    rintro c (rfl | hc)
    · rfl
    · exact isBlank_of_isDigit hc
  cases l with
  | symbol kind c => exact Kind.isBlank_of_symbol? h
  | number literal =>
    obtain ⟨c, r, rfl, hstart⟩ := IsLiteral.exists_cons h
    exact hc c hstart
  | openFraction literal =>
    obtain ⟨whole, hw, rfl⟩ := h
    obtain ⟨c, r, rfl, hstart, _⟩ := hw.exists_cons
    exact hc c hstart
  | stray c => exact h.1

/-- A lexeme that can be read is a symbol or a number. -/
theorem WellFormed.read_eq_ok {l : Lexeme} (h : l.WellFormed) {n : Nat} {t : Token}
    (ht : l.read n = .ok t) :
    (∃ kind c, l = symbol kind c ∧ t = ⟨kind, none, ⟨n, n + 1⟩⟩) ∨
      ∃ literal x, l = number literal ∧ Binary64.ofLiteral? literal = some x ∧
        t = ⟨.number, some x, ⟨n, n + literal.length⟩⟩ := by
  cases l with
  | symbol kind c =>
    cases ht
    exact Or.inl ⟨kind, c, rfl, rfl⟩
  | number literal =>
    obtain ⟨x, hx⟩ := IsLiteral.exists_ofLiteral? h
    simp only [read, hx, Except.ok.injEq] at ht
    exact Or.inr ⟨literal, x, rfl, hx, ht.symm⟩
  | openFraction literal => cases ht
  | stray c => cases ht

/-- A lexeme that cannot be read is an open fraction or a stray character. -/
theorem WellFormed.read_eq_error {l : Lexeme} (h : l.WellFormed) {n : Nat} {e : LexError}
    (he : l.read n = .error e) :
    (∃ c, l = stray c ∧ e = ⟨.unexpectedCharacter c, n⟩) ∨
      ∃ literal, l = openFraction literal ∧
        e = ⟨.unterminatedFloat literal, n + literal.length⟩ := by
  cases l with
  | symbol kind c => cases he
  | number literal =>
    obtain ⟨x, hx⟩ := IsLiteral.exists_ofLiteral? h
    simp [read, hx] at he
  | openFraction literal =>
    cases he
    exact Or.inr ⟨literal, rfl, rfl⟩
  | stray c =>
    cases he
    exact Or.inl ⟨c, rfl, rfl⟩

theorem exists_read_number {literal : Text} (h : IsLiteral literal) (n : Nat) :
    ∃ t, (number literal).read n = .ok t := by
  obtain ⟨x, hx⟩ := h.exists_ofLiteral?
  simp only [read, hx]
  exact ⟨_, rfl⟩

theorem WellFormed.isEnd_of_read {l : Lexeme} (h : l.WellFormed) {n : Nat} {t : Token}
    (ht : l.read n = .ok t) : t.isEnd = false := by
  rcases h.read_eq_ok ht with ⟨kind, c, rfl, rfl⟩ | ⟨literal, x, rfl, _, rfl⟩
  · cases kind with
    | endOfInput => cases h
    | _ => rfl
  · rfl

end Lexeme

/-! ## Steps of a cursor -/

namespace Cursor

theorem next_nil (n : Nat) : next ⟨n, []⟩ = (.ok (Token.atEnd n), ⟨n, []⟩) := rfl

/-- A blank moves the cursor and nothing else. -/
theorem next_blank (n : Nat) {c : Char} (s : Text) (hc : isBlank c = true) :
    next ⟨n, c :: s⟩ = next ⟨n + 1, s⟩ := by
  have h : skipBlanks ⟨n, c :: s⟩ = skipBlanks ⟨n + 1, s⟩ := by
    unfold skipBlanks forward
    rw [List.takeWhile_cons_of_pos hc, List.length_cons, List.drop_succ_cons]
    congr 1
    show n + ((s.takeWhile isBlank).length + 1) = n + 1 + (s.takeWhile isBlank).length
    omega
  unfold next
  rw [h]

/-- At a well-formed lexeme the cursor reads it and moves behind it. -/
theorem next_text_append (n : Nat) {l : Lexeme} {rest : Text} (hl : l.WellFormed)
    (hr : l.EndsBefore rest.head?) :
    next ⟨n, l.text ++ rest⟩ = (l.read n, ⟨n + l.text.length, rest⟩) := by
  have hb : (l.text ++ rest).takeWhile isBlank = [] := by
    have h := hl.head?_isBlank rest
    cases hs : l.text ++ rest with
    | nil => rfl
    | cons c s =>
      rw [hs] at h
      exact List.takeWhile_cons_of_neg (Bool.eq_false_iff.mp h)
  have hk : skipBlanks ⟨n, l.text ++ rest⟩ = ⟨n, l.text ++ rest⟩ := by
    unfold skipBlanks forward
    rw [hb]
    rfl
  unfold next
  simp only [hk, Lexeme.first?_text_append hl hr]
  simp [forward]

/-- The tokens from a cursor on depend on its next step only. -/
theorem tokens_congr {c d : Cursor} (h : c.next = d.next) (found : List Token) :
    c.tokens found = d.tokens found := by
  cases hd : d.next with
  | mk answer after =>
    cases answer with
    | error e => rw [tokens_of_error hd, tokens_of_error (h.trans hd)]
    | ok t => rw [tokens_of_ok hd, tokens_of_ok (h.trans hd)]

end Cursor

/-- The answer with more tokens in front. -/
abbrev prepend (found : List Token) (answer : Except LexError (List Token)) :
    Except LexError (List Token) :=
  answer.map (found ++ ·)

namespace Cursor

theorem tokens_nil (n : Nat) : tokens ⟨n, []⟩ [] = .ok [Token.atEnd n] := by
  rw [tokens_of_ok (next_nil n)]
  rfl

theorem tokens_blank (n : Nat) {c : Char} (s : Text) (hc : isBlank c = true) :
    tokens ⟨n, c :: s⟩ [] = tokens ⟨n + 1, s⟩ [] :=
  tokens_congr (next_blank n s hc) []

theorem tokens_text_append {n : Nat} {l : Lexeme} {t : Token} {rest : Text} (hl : l.WellFormed)
    (hr : l.EndsBefore rest.head?) (ht : l.read n = .ok t) :
    tokens ⟨n, l.text ++ rest⟩ [] = prepend [t] (tokens ⟨n + l.text.length, rest⟩ []) := by
  have h := next_text_append n hl hr
  rw [ht] at h
  rw [tokens_of_ok h, hl.isEnd_of_read ht, if_neg Bool.false_ne_true, tokens_eq_map]
  rfl

end Cursor

/-! ## What a scan finds -/

theorem head?_append_or (a b : Text) (next : Option Char) :
    (a ++ b).head?.or next = a.head?.or (b.head?.or next) := by
  rw [List.head?_append, Option.or_assoc]

theorem head?_append_of_ne_nil {a : Text} (h : a ≠ []) (b : Text) :
    (a ++ b).head? = a.head? := by
  cases a with
  | nil => exact absurd rfl h
  | cons c a => rfl

theorem Scans.append {n : Nat} {a b : Text} {next : Option Char} {found more : List Token}
    (ha : Scans n a (b.head?.or next) found) (hb : Scans (n + a.length) b next more) :
    Scans n (a ++ b) next (found ++ more) := by
  generalize hq : b.head?.or next = q at ha
  induction ha with
  | nil => exact hb
  | @blank n c s _ found hc _ ih =>
    refine .blank hc (ih ?_ hq)
    rw [List.length_cons] at hb
    rwa [show n + 1 + s.length = n + (s.length + 1) by omega]
  | @token n l t s _ found hl he ht _ ih =>
    rw [List.append_assoc, List.cons_append]
    refine .token hl ?_ ht (ih ?_ hq)
    · rw [head?_append_or, hq]
      exact he
    · rw [List.length_append] at hb
      rwa [show n + l.text.length + s.length = n + (l.text.length + s.length) by omega]

/-- A scan that goes on to a failure fails there. -/
theorem Scans.append_fails {n : Nat} {a b : Text} {found : List Token} {e : LexError}
    (ha : Scans n a b.head? found) (hb : Fails (n + a.length) b e) : Fails n (a ++ b) e := by
  cases hb with
  | @stray b rest c more hb hc =>
    have hh : (b ++ c :: rest).head? = b.head?.or (some c) := List.head?_append
    rw [hh] at ha
    have h : Fails n (a ++ b ++ c :: rest) _ := .stray (ha.append hb) hc
    rw [List.append_assoc, List.length_append, ← Nat.add_assoc] at h
    exact h
  | @openFraction b literal rest more hb hl hr =>
    have hh : (b ++ (literal ++ rest)).head? = b.head?.or literal.head? := by
      rw [List.head?_append, head?_append_of_ne_nil hl.ne_nil]
    rw [hh] at ha
    have h : Fails n (a ++ b ++ (literal ++ rest)) _ := .openFraction (ha.append hb) hl hr
    rw [List.append_assoc, List.length_append, ← Nat.add_assoc] at h
    exact h

/-- From any offset on, a text can be scanned to its end or fails. -/
theorem scans_or_fails (n : Nat) (s : Text) :
    (∃ found, Scans n s none found) ∨ ∃ e, Fails n s e := by
  -- a lexeme can be longer than one character, so the induction is on the length of what is left
  generalize hk : s.length = k
  induction k using Nat.strongRecOn generalizing n s with
  | ind k ih =>
    cases s with
    | nil => exact Or.inl ⟨[], .nil⟩
    | cons c s =>
      cases hc : isBlank c with
      | true =>
        have hs : Scans n [c] s.head? [] := .blank hc .nil
        rcases ih s.length (by simp [← hk]) (n + 1) s rfl with ⟨found, h⟩ | ⟨e, h⟩
        · exact Or.inl ⟨found, .blank hc h⟩
        · exact Or.inr ⟨e, hs.append_fails h⟩
      | false =>
        obtain ⟨l, rest, he, hl, hr⟩ := Lexeme.exists_wellFormed (s := s) hc
        have hlen : rest.length < k := by
          have := congrArg List.length he
          have := List.length_pos_iff.mpr hl.text_ne_nil
          rw [List.length_append] at *
          omega
        rw [he]
        cases ht : l.read n with
        | error e =>
          rcases hl.read_eq_error ht with ⟨c, rfl, rfl⟩ | ⟨literal, rfl, rfl⟩
          · exact Or.inr ⟨_, Fails.stray (a := []) .nil hl⟩
          · exact Or.inr ⟨_, Fails.openFraction (a := []) .nil hl hr⟩
        | ok t =>
          have hs : Scans n l.text rest.head? [t] := by
            have h : Scans n (l.text ++ []) rest.head? [t] := .token hl hr ht .nil
            rwa [List.append_nil] at h
          rcases ih rest.length hlen (n + l.text.length) rest rfl with ⟨found, h⟩ | ⟨e, h⟩
          · refine Or.inl ⟨t :: found, .token hl ?_ ht h⟩
            rwa [Option.or_none]
          · exact Or.inr ⟨e, hs.append_fails h⟩

namespace Cursor

/-- What is found in a piece of text comes first in the answer for the whole text. -/
theorem tokens_append {n : Nat} {a b : Text} {found : List Token} (h : Scans n a b.head? found) :
    tokens ⟨n, a ++ b⟩ [] = prepend found (tokens ⟨n + a.length, b⟩ []) := by
  generalize hq : b.head? = q at h
  induction h with
  | nil =>
    show tokens ⟨_, b⟩ [] = prepend [] (tokens ⟨_, b⟩ [])
    cases tokens ⟨_, b⟩ [] <;> rfl
  | @blank n c s _ found hc _ ih =>
    rw [List.cons_append, tokens_blank n _ hc, ih hq, List.length_cons]
    rw [show n + (s.length + 1) = n + 1 + s.length by omega]
  | @token n l t s _ found hl he ht _ ih =>
    have hr : l.EndsBefore (s ++ b).head? := by
      rw [List.head?_append, hq]
      exact he
    rw [List.append_assoc, tokens_text_append hl hr ht, ih hq, List.length_append, ← Nat.add_assoc]
    cases tokens ⟨n + l.text.length + s.length, b⟩ [] <;> rfl

theorem tokens_of_fails {n : Nat} {s : Text} {e : LexError} (h : Fails n s e) :
    tokens ⟨n, s⟩ [] = .error e := by
  cases h with
  | @stray a rest c found ha hc =>
    have hn : next ⟨n + a.length, c :: rest⟩ = _ :=
      next_text_append _ (l := .stray c) hc trivial
    rw [tokens_append (b := c :: rest) ha]
    exact congrArg (prepend found) (tokens_of_error hn [])
  | @openFraction a literal rest found ha hl hr =>
    have hn := next_text_append (n + a.length) (l := .openFraction literal) hl hr
    rw [tokens_append (by rwa [head?_append_of_ne_nil hl.ne_nil])]
    exact congrArg (prepend found) (tokens_of_error hn [])

theorem tokens_eq_ok_iff {n : Nat} {s : Text} {tokens : List Token} :
    Cursor.tokens ⟨n, s⟩ [] = .ok tokens ↔
      ∃ found, Scans n s none found ∧ tokens = found ++ [Token.atEnd (n + s.length)] := by
  have hok : ∀ found, Scans n s none found →
      Cursor.tokens ⟨n, s⟩ [] = .ok (found ++ [Token.atEnd (n + s.length)]) := by
    intro found h
    have h := tokens_append (b := []) h
    rwa [List.append_nil, tokens_nil] at h
  constructor
  · intro h
    rcases scans_or_fails n s with ⟨found, hs⟩ | ⟨e, hs⟩
    · rw [hok found hs] at h
      exact ⟨found, hs, (Except.ok.inj h).symm⟩
    · rw [tokens_of_fails hs] at h
      cases h
  · rintro ⟨found, h, rfl⟩
    exact hok found h

theorem tokens_eq_error_iff {n : Nat} {s : Text} {e : LexError} :
    tokens ⟨n, s⟩ [] = .error e ↔ Fails n s e := by
  refine ⟨fun h => ?_, tokens_of_fails⟩
  rcases scans_or_fails n s with ⟨found, hs⟩ | ⟨e', hs⟩
  · rw [tokens_eq_ok_iff.mpr ⟨found, hs, rfl⟩] at h
    cases h
  · rw [tokens_of_fails hs] at h
    cases h
    exact hs

end Cursor

end ArithTokens
