import ArithTokens.Proofs.Scan
import Mathlib.Control.Monad.Basic
import Mathlib.Data.List.Basic

/-!
# Texts put together

What is found in a text stays the same when the text moves, positions apart, and when other text is
put behind it, unless a lexeme can reach over the seam: a number goes on with a digit or a point,
and a minus sign becomes the sign of a number.  A blank at the seam rules both out.

    tokens ⟨n, s⟩ [] is tokens ⟨0, s⟩ [], shifted by n                         (tokens_shift)
    a safe seam → tokenize (a ++ b) is tokenize a, then tokenize b shifted    (tokenize_append)
-/

namespace ArithTokens

/-! ## Shifting -/

/-- The span `n` characters further on. -/
def Span.shift (n : Nat) (span : Span) : Span :=
  ⟨span.start + n, span.stop + n⟩

def Token.shift (n : Nat) (t : Token) : Token :=
  ⟨t.kind, t.value, t.span.shift n⟩

def LexError.shift (n : Nat) (e : LexError) : LexError :=
  ⟨e.cause, e.position + n⟩

/-- The answer for a text `n` characters further on. -/
def shiftAnswer (n : Nat) : Except LexError (List Token) → Except LexError (List Token)
  | .ok tokens => .ok (tokens.map (Token.shift n))
  | .error e => .error (e.shift n)

theorem Lexeme.read_shift {l : Lexeme} {n : Nat} {t : Token} (h : l.read n = .ok t) (k : Nat) :
    l.read (n + k) = .ok (t.shift k) := by
  cases l with
  | symbol kind c =>
    cases h
    simp [read, Token.shift, Span.shift, text]
    omega
  | number literal =>
    cases hx : Binary64.ofLiteral? literal with
    | none => simp [read, hx] at h
    | some x =>
      simp only [read, hx, Except.ok.injEq] at h
      subst h
      simp [read, hx, Token.shift, Span.shift, text]
      omega
  | openFraction literal => cases h
  | stray c => cases h

/-- A scan does not depend on where the text starts. -/
theorem Scans.shift {n : Nat} {s : Text} {next : Option Char} {found : List Token}
    (h : Scans n s next found) (k : Nat) : Scans (n + k) s next (found.map (Token.shift k)) := by
  induction h with
  | nil => exact .nil
  | @blank n c s next found hc _ ih =>
    refine .blank hc ?_
    rwa [show n + k + 1 = n + 1 + k by omega]
  | @token n l t s next found hl he ht _ ih =>
    refine .token hl he (Lexeme.read_shift ht k) ?_
    rwa [show n + k + l.text.length = n + l.text.length + k by omega]

theorem Fails.shift {n : Nat} {s : Text} {e : LexError} (h : Fails n s e) (k : Nat) :
    Fails (n + k) s (e.shift k) := by
  cases h with
  | @stray a rest c found ha hc =>
    have h : Fails (n + k) (a ++ c :: rest) _ := .stray (ha.shift k) hc
    rwa [show n + k + a.length = n + a.length + k by omega] at h
  | @openFraction a literal rest found ha hl hr =>
    have h : Fails (n + k) (a ++ (literal ++ rest)) _ := .openFraction (ha.shift k) hl hr
    rwa [show n + k + a.length + literal.length = n + a.length + literal.length + k by omega] at h

theorem Token.shift_atEnd (n k : Nat) : (Token.atEnd n).shift k = Token.atEnd (n + k) := rfl

theorem Cursor.tokens_shift (n : Nat) (s : Text) :
    tokens ⟨n, s⟩ [] = shiftAnswer n (tokens ⟨0, s⟩ []) := by
  rcases scans_or_fails 0 s with ⟨found, h⟩ | ⟨e, h⟩
  · have hn := h.shift n
    rw [Nat.zero_add] at hn
    rw [tokens_eq_ok_iff.mpr ⟨_, hn, rfl⟩, tokens_eq_ok_iff.mpr ⟨_, h, rfl⟩]
    rw [shiftAnswer, List.map_append, List.map_singleton, Token.shift_atEnd]
    rw [show 0 + s.length + n = n + s.length by omega]
  · have hn := h.shift n
    rw [Nat.zero_add] at hn
    rw [tokens_of_fails hn, tokens_of_fails h]
    rfl

/-! ## Seams -/

/-- No lexeme reaches over the seam between a text with the last character `last` and a text with
the first character `next`. -/
def IsSafeSeam (last next : Option Char) : Prop :=
  ¬(last.any isDigit = true ∧ (next.any isDigit = true ∨ next = some '.')) ∧
    ¬(last = some '-' ∧ next.any isDigit = true)

theorem isSafeSeam_none (last : Option Char) : IsSafeSeam last none := by
  simp [IsSafeSeam]

theorem isSafeSeam_before_blank (last : Option Char) {c : Char} (hc : isBlank c = true) :
    IsSafeSeam last (some c) := by
  have hp : c ≠ '.' := by
    rintro rfl
    cases hc
  simp [IsSafeSeam, isDigit_of_isBlank hc, hp]

theorem isSafeSeam_after_blank {c : Char} (hc : isBlank c = true) (next : Option Char) :
    IsSafeSeam (some c) next := by
  have hm : c ≠ '-' := by
    rintro rfl
    cases hc
  simp [IsSafeSeam, isDigit_of_isBlank hc, hm]

/-- Before a safe seam, a lexeme that can be read ends. -/
theorem Lexeme.WellFormed.endsBefore {l : Lexeme} (hl : l.WellFormed) {n : Nat} {t : Token}
    (ht : l.read n = .ok t) {next : Option Char} (h : IsSafeSeam l.text.getLast? next) :
    l.EndsBefore next := by
  rcases hl.read_eq_ok ht with ⟨kind, c, rfl, rfl⟩ | ⟨literal, x, rfl, _, rfl⟩
  · intro hk
    subst hk
    cases hl
    exact Bool.eq_false_iff.mpr fun hd => h.2 ⟨rfl, hd⟩
  · have hlast := IsLiteral.getLast?_any hl
    exact ⟨Bool.eq_false_iff.mpr fun hd => h.1 ⟨hlast, Or.inl hd⟩,
      fun _ hp => h.1 ⟨hlast, Or.inr hp⟩⟩

/-- What is found in a text stays the same before a safe seam. -/
theorem Scans.of_isSafeSeam {n : Nat} {s : Text} {next next' : Option Char} {found : List Token}
    (h : Scans n s next found) (hs : IsSafeSeam s.getLast? next') : Scans n s next' found := by
  induction h with
  | nil => exact .nil
  | @blank n c s next found hc h ih =>
    refine .blank hc ?_
    by_cases hn : s = []
    · subst hn
      exact ih (by simp [IsSafeSeam])
    · rw [← List.singleton_append, List.getLast?_append_of_ne_nil [c] hn] at hs
      exact ih hs
  | @token n l t s next found hl he ht h ih =>
    by_cases hn : s = []
    · subst hn
      rw [List.append_nil] at hs
      exact .token hl (hl.endsBefore ht hs) ht (ih (by simp [IsSafeSeam]))
    · rw [List.getLast?_append_of_ne_nil l.text hn] at hs
      refine .token hl ?_ ht (ih hs)
      rw [List.head?_eq_some_head hn, Option.some_or] at he ⊢
      exact he

/-- A blank behind a text adds nothing, and keeps what follows apart. -/
theorem Scans.append_blank {n : Nat} {s : Text} {found : List Token} (h : Scans n s none found)
    {c : Char} (hc : isBlank c = true) (next : Option Char) : Scans n (s ++ [c]) next found := by
  have hs : Scans n s (some c) found := h.of_isSafeSeam (isSafeSeam_before_blank _ hc)
  have hb : Scans (n + s.length) [c] next [] := .blank hc .nil
  have hsb := hs.append hb
  rwa [List.append_nil] at hsb

/-- A failure stays the same whatever follows, unless the fraction that is open at the end of the
text goes on. -/
theorem Fails.append {n : Nat} {a : Text} {e : LexError} (h : Fails n a e) {b : Text}
    (hb : e.position < n + a.length ∨ b.head?.any isDigit = false) : Fails n (a ++ b) e := by
  cases h with
  | @stray a rest c found ha hc =>
    rw [List.append_assoc]
    exact .stray ha hc
  | @openFraction a literal rest found ha hl hr =>
    rw [List.append_assoc, List.append_assoc]
    refine .openFraction ha hl ?_
    cases rest with
    | nil =>
      rcases hb with hb | hb
      · simp at hb
        omega
      · exact hb
    | cons c rest => exact hr

/-! ## Answers for whole texts -/

theorem tokenize_eq_ok_iff_scans {s : Text} (hs : s.length ≤ Position.greatest)
    {tokens : List Token} :
    tokenize s = .ok tokens ↔
      ∃ found, Scans 0 s none found ∧ tokens = found ++ [Token.atEnd s.length] := by
  rw [tokenize_of_length_le hs, Cursor.tokens_eq_ok_iff, Nat.zero_add]

theorem tokenize_eq_error_iff_fails {s : Text} (hs : s.length ≤ Position.greatest) {e : LexError} :
    tokenize s = .error e ↔ Fails 0 s e := by
  rw [tokenize_of_length_le hs, Cursor.tokens_eq_error_iff]

/-- The text has tokens. -/
def IsAccepted (s : Text) : Prop :=
  ∃ tokens, tokenize s = .ok tokens

theorem IsAccepted.length_le {s : Text} (h : IsAccepted s) : s.length ≤ Position.greatest := by
  obtain ⟨tokens, h⟩ := h
  by_contra hs
  rw [tokenize_of_greatest_lt (Nat.lt_of_not_le hs)] at h
  cases h

/-- What is scanned to its end is accepted. -/
theorem Scans.isAccepted {s : Text} {next : Option Char} {found : List Token}
    (h : Scans 0 s next found) (hs : s.length ≤ Position.greatest) : IsAccepted s :=
  ⟨_, (tokenize_eq_ok_iff_scans hs).mpr ⟨found, h.of_isSafeSeam (isSafeSeam_none _), rfl⟩⟩

theorem not_isAccepted_of_error {s : Text} {e : LexError} (h : tokenize s = .error e) :
    ¬IsAccepted s := by
  rintro ⟨tokens, ht⟩
  rw [h] at ht
  cases ht

section
variable {a b : Text} (hlen : a.length + b.length ≤ Position.greatest)
include hlen

theorem tokenize_append_of_scans {found : List Token} (ha : Scans 0 a none found)
    (hs : IsSafeSeam a.getLast? b.head?) :
    tokenize (a ++ b) = prepend found (shiftAnswer a.length (tokenize b)) := by
  have hab : (a ++ b).length ≤ Position.greatest := by
    rw [List.length_append]
    exact hlen
  rw [tokenize_of_length_le hab, Cursor.tokens_append (ha.of_isSafeSeam hs), Nat.zero_add,
    Cursor.tokens_shift, tokenize_of_length_le (by omega : b.length ≤ Position.greatest)]

theorem tokenize_append_of_fails {e : LexError} (ha : Fails 0 a e)
    (hb : e.position < a.length ∨ b.head?.any isDigit = false) :
    tokenize (a ++ b) = .error e := by
  have hab : (a ++ b).length ≤ Position.greatest := by
    rw [List.length_append]
    exact hlen
  rw [tokenize_eq_error_iff_fails hab]
  refine ha.append ?_
  rwa [Nat.zero_add]

end

/-! ## Texts with separators -/

/-- Texts one after the other, each with its separator behind it, and a last text. -/
def separated : List (Text × Char) → Text → Text
  | [], last => last
  | (s, c) :: more, last => s ++ c :: separated more last

/-- The answer for a text and the answer for the text from offset `n` on put together. -/
def joinAnswers (n : Nat) (first second : Except LexError (List Token)) :
    Except LexError (List Token) :=
  match first with
  | .error e => .error e
  | .ok tokens => prepend tokens.dropLast (shiftAnswer n second)

/-- The answers for separated texts, each by itself, put together. -/
def separateAnswer : List (Text × Char) → Text → Except LexError (List Token)
  | [], last => tokenize last
  | (s, _) :: more, last => joinAnswers (s.length + 1) (tokenize s) (separateAnswer more last)

/-- A blank keeps the texts before and behind it apart. -/
theorem tokenize_append_blank {a b : Text} {c : Char} (hc : isBlank c = true)
    (hlen : a.length + 1 + b.length ≤ Position.greatest) :
    tokenize (a ++ c :: b) = joinAnswers (a.length + 1) (tokenize a) (tokenize b) := by
  have ha' : a.length ≤ Position.greatest := by omega
  rcases scans_or_fails 0 a with ⟨found, ha⟩ | ⟨e, ha⟩
  · have hseam : IsSafeSeam (a ++ [c]).getLast? b.head? := by
      rw [List.getLast?_concat]
      exact isSafeSeam_after_blank hc _
    have hl : (a ++ [c]).length = a.length + 1 := by simp
    rw [← List.singleton_append, ← List.append_assoc,
      tokenize_append_of_scans (by omega) (ha.append_blank hc none) hseam, hl,
      (tokenize_eq_ok_iff_scans ha').mpr ⟨found, ha, rfl⟩, joinAnswers, List.dropLast_concat]
  · have hb : (c :: b).head?.any isDigit = false := isDigit_of_isBlank hc
    rw [tokenize_append_of_fails (by rw [List.length_cons]; omega) ha (Or.inr hb),
      (tokenize_eq_error_iff_fails ha').mpr ha, joinAnswers]

theorem tokenize_separated {pieces : List (Text × Char)} {last : Text}
    (hp : ∀ piece ∈ pieces, isBlank piece.2 = true)
    (hlen : (separated pieces last).length ≤ Position.greatest) :
    tokenize (separated pieces last) = separateAnswer pieces last := by
  induction pieces with
  | nil => rfl
  | cons piece more ih =>
    obtain ⟨hc, hmore⟩ := List.forall_mem_cons.mp hp
    simp only [separated, List.length_append, List.length_cons] at hlen
    rw [separated, tokenize_append_blank hc (by omega), ih hmore (by omega), separateAnswer]

/-! ## Top theorem -/

/-- **The answer for two texts put together.**  Behind a safe seam it is the answer for the second
text, shifted; a failure of the first text stays unless its open fraction goes on; and texts with
blanks between them are answered each by itself. -/
theorem tokenize_append :
    (∀ a b : Text, a.length + b.length ≤ Position.greatest →
      (∀ tokens, tokenize a = .ok tokens → IsSafeSeam a.getLast? b.head? →
        ∃ found, tokens = found ++ [Token.atEnd a.length] ∧
          (∀ more, tokenize b = .ok more →
            tokenize (a ++ b) = .ok (found ++ more.map (Token.shift a.length))) ∧
          ∀ e, tokenize b = .error e → tokenize (a ++ b) = .error (e.shift a.length)) ∧
      ∀ e, tokenize a = .error e → (e.position < a.length ∨ b.head?.any isDigit = false) →
        tokenize (a ++ b) = .error e) ∧
    ∀ (pieces : List (Text × Char)) (last : Text), (∀ piece ∈ pieces, isBlank piece.2 = true) →
      (separated pieces last).length ≤ Position.greatest →
      tokenize (separated pieces last) = separateAnswer pieces last := by
  refine ⟨fun a b hlen => ⟨fun tokens ha hseam => ?_, fun e ha hb => ?_⟩,
    fun pieces last hp hlen => tokenize_separated hp hlen⟩
  · obtain ⟨found, hscan, rfl⟩ := (tokenize_eq_ok_iff_scans (by omega)).mp ha
    have h := tokenize_append_of_scans hlen hscan hseam
    refine ⟨found, rfl, fun more hb => ?_, fun e hb => ?_⟩
    · rw [h, hb]
      rfl
    · rw [h, hb]
      rfl
  · have hfail := (tokenize_eq_error_iff_fails (by omega)).mp ha
    exact tokenize_append_of_fails hlen hfail hb

theorem tokenize_append_minus_minus :
    tokenize ("1-".toList ++ "-2".toList) =
        .ok ([⟨.number, some (.ofBits 0x3ff0000000000000), ⟨0, 1⟩⟩, ⟨.minus, none, ⟨1, 2⟩⟩] ++
          [⟨.number, some (.ofBits 0xc000000000000000), ⟨2, 4⟩⟩, Token.atEnd 4]) ∧
      tokenize ("3.".toList ++ ".5".toList) = .error ⟨.unterminatedFloat "3.".toList, 2⟩ ∧
      tokenize (separated [("1".toList, ' '), ("-".toList, '\n')] "$".toList) =
        .error ⟨.unexpectedCharacter '$', 4⟩ := by
  have h1 : tokenize "1-".toList =
      .ok ([⟨.number, some (.ofBits 0x3ff0000000000000), ⟨0, 1⟩⟩, ⟨.minus, none, ⟨1, 2⟩⟩] ++
        [Token.atEnd 2]) := by
    decide +kernel
  have h2 : tokenize "-2".toList =
      .ok [⟨.number, some (.ofBits 0xc000000000000000), ⟨0, 2⟩⟩, Token.atEnd 2] := by
    decide +kernel
  have h3 : tokenize "3.".toList = .error ⟨.unterminatedFloat "3.".toList, 2⟩ := by
    decide +kernel
  obtain ⟨found, hf, hok, _⟩ := (tokenize_append.1 _ "-2".toList (by decide)).1 _ h1
    ⟨by decide, by decide⟩
  have hfound := List.append_cancel_right hf
  refine ⟨?_, (tokenize_append.1 _ _ (by decide)).2 _ h3 (Or.inr (by decide)), ?_⟩
  · rw [hok _ h2, ← hfound]
    rfl
  · rw [tokenize_append.2 _ _ (by decide) (by decide)]
    decide +kernel

end ArithTokens
