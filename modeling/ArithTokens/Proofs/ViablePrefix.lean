import ArithTokens.Proofs.Concatenation
import Mathlib.Order.Bounds.Defs

/-!
# Viable beginnings

A text is viable if it can be continued to one that has tokens.  An error stands at the end of the
longest viable beginning: nothing before it could have been noticed earlier, and nothing behind it
can mend the text.  A stray character is reported where it stands, and an open fraction where its
first digit is missed, which may be the end of the text.

    tokenize s = error e → e is what the longest viable beginning of s asks for
                                                          (isFirstFault_of_tokenize_eq_error)
-/

namespace ArithTokens

/-! ## Definitions -/

/-- The text is the beginning of one that has tokens. -/
def IsViable (s : Text) : Prop :=
  ∃ t, s <+: t ∧ IsAccepted t

/-- The longest of the texts in `p` at the end of `s` is `u`. -/
structure IsLongestSuffix (p : Text → Prop) (s u : Text) : Prop where
  mem : p u
  suffix : u <:+ s
  length_le : ∀ v, p v → v <:+ s → v.length ≤ u.length

/-- The error is reported at the end of the longest viable beginning, with the cause found there. -/
structure IsFirstFault (s : Text) (e : LexError) : Prop where
  /-- The position is the length of the longest viable beginning. -/
  position : IsGreatest {n | n ≤ s.length ∧ IsViable (s.take n)} e.position
  /-- A fraction is open if that beginning has no tokens, and only then. -/
  open_iff : (∃ literal, e.cause = .unterminatedFloat literal) ↔ ¬IsAccepted (s.take e.position)
  /-- The literal of the open fraction ends there. -/
  literal : ∀ literal, e.cause = .unterminatedFloat literal →
    IsLongestSuffix IsOpenLiteral (s.take e.position) literal
  /-- Otherwise the next character cannot follow. -/
  character : (∀ literal, e.cause ≠ .unterminatedFloat literal) →
    e.position < s.length ∧ ∃ c, s[e.position]? = some c ∧ e.cause = .unexpectedCharacter c
  /-- Every text that goes on with the same character has the same error. -/
  congr : e.position < s.length → ∀ t, t.length ≤ Position.greatest →
    t.take (e.position + 1) = s.take (e.position + 1) → tokenize t = .error e

/-! ## Lemmas -/

/-- A viable beginning that cannot go on with the next character is the longest one. -/
theorem isGreatest_viable {s : Text} {e : LexError} (hle : e.position ≤ s.length)
    (hv : IsViable (s.take e.position))
    (hcongr : e.position < s.length → ∀ t, t.length ≤ Position.greatest →
      t.take (e.position + 1) = s.take (e.position + 1) → tokenize t = .error e) :
    IsGreatest {n | n ≤ s.length ∧ IsViable (s.take n)} e.position := by
  refine ⟨⟨hle, hv⟩, ?_⟩
  rintro n ⟨hn, t, hpre, hacc⟩
  by_contra hlt
  have hlt : e.position < n := by omega
  have htake : t.take (e.position + 1) = s.take (e.position + 1) := by
    obtain ⟨r, rfl⟩ := hpre
    have hlen : (s.take n).length = n := by
      rw [List.length_take]
      omega
    rw [List.take_append_of_le_length (by omega), List.take_take]
    congr 1
    omega
  exact not_isAccepted_of_error (hcongr (by omega) t hacc.length_le htake) hacc

/-- Where a digit follows, a piece of text that can be scanned ends in no digit and no sign. -/
theorem Scans.getLast?_of_digit {n : Nat} {s : Text} {d : Char} {found : List Token}
    (h : Scans n s (some d) found) (hd : isDigit d = true) :
    ∀ c ∈ s.getLast?, isDigit c = false ∧ c ≠ '-' := by
  generalize hq : some d = q at h
  induction h with
  | nil => simp
  | @blank n c s _ found hc h ih =>
    by_cases hn : s = []
    · subst hn
      intro c' hc'
      cases hc'
      refine ⟨isDigit_of_isBlank hc, ?_⟩
      rintro rfl
      cases hc
    · rw [← List.singleton_append, List.getLast?_append_of_ne_nil [c] hn]
      exact ih hq
  | @token n l t s _ found hl he ht h ih =>
    by_cases hn : s = []
    · subst hn hq
      rw [List.append_nil]
      rcases hl.read_eq_ok ht with ⟨kind, c, rfl, rfl⟩ | ⟨literal, x, rfl, _, rfl⟩
      · intro c' hc'
        cases hc'
        refine ⟨Kind.isDigit_of_symbol? hl, ?_⟩
        rintro rfl
        have hk : kind = .minus := by
          cases kind <;> first | rfl | cases hl
        have hf : isDigit d = false := he hk
        rw [hd] at hf
        cases hf
      · have hf : isDigit d = false := he.1
        rw [hd] at hf
        cases hf
    · rw [List.getLast?_append_of_ne_nil l.text hn]
      exact ih hq

/-- The last character of a beginning of an integer is a sign or a digit, and only digits follow
it. -/
theorem IsInteger.of_append {s r : Text} (h : IsInteger (s ++ r)) (hs : s ≠ []) :
    (∃ c, s.getLast? = some c ∧ (c = '-' ∨ isDigit c = true)) ∧ ∀ d ∈ r, isDigit d = true := by
  obtain ⟨c, t, he, hc, ht⟩ := h.exists_cons
  cases s with
  | nil => exact absurd rfl hs
  | cons c' s =>
    obtain ⟨rfl, rfl⟩ := List.cons.inj he
    refine ⟨?_, fun d hd => ht d (List.mem_append_right s hd)⟩
    by_cases hn : s = []
    · subst hn
      exact ⟨c', rfl, hc⟩
    · refine ⟨s.getLast hn, ?_, Or.inr (ht _ (List.mem_append_left r (List.getLast_mem hn)))⟩
      rw [← List.singleton_append, List.getLast?_append_of_ne_nil [c'] hn,
        List.getLast?_eq_some_getLast hn]

/-- A scan that stops before an open literal has cut nothing off it. -/
theorem Scans.isLongestSuffix {n : Nat} {s literal : Text} {found : List Token}
    (h : Scans n s literal.head? found) (hl : IsOpenLiteral literal) :
    IsLongestSuffix IsOpenLiteral (s ++ literal) literal where
  mem := hl
  suffix := List.suffix_append s literal
  length_le := by
    intro v hv hsuffix
    by_contra hlt
    obtain ⟨w, rfl⟩ : literal <:+ v :=
      List.suffix_of_suffix_length_le (List.suffix_append s literal) hsuffix (by omega)
    have hw : w ≠ [] := by
      rintro rfl
      exact hlt (Nat.le_refl _)
    -- so `w` stands before the literal, and the two of them are an integer before the point
    obtain ⟨x, hx⟩ := hsuffix
    rw [← List.append_assoc] at hx
    obtain rfl := List.append_cancel_right hx
    obtain ⟨whole, hwhole, rfl⟩ := hl
    obtain ⟨longer, hlonger, he⟩ := hv
    rw [← List.append_assoc] at he
    obtain rfl := List.append_cancel_right he
    obtain ⟨⟨c, hc, hcd⟩, hdigits⟩ := hlonger.of_append hw
    obtain ⟨d, r, rfl, _⟩ := hwhole.exists_cons
    have hd : isDigit d = true := hdigits d List.mem_cons_self
    have hlast : c ∈ (x ++ w).getLast? := by
      rw [List.getLast?_append_of_ne_nil x hw]
      exact hc
    obtain ⟨hnd, hnm⟩ := h.getLast?_of_digit hd c hlast
    rcases hcd with rfl | hcd
    · exact hnm rfl
    · rw [hnd] at hcd
      cases hcd

theorem IsOpenLiteral.isLiteral {literal : Text} (h : IsOpenLiteral literal) :
    IsLiteral (literal ++ ['0']) := by
  obtain ⟨whole, hw, rfl⟩ := h
  rw [List.append_assoc]
  exact .fraction hw ⟨by simp, by simp [isDigit]⟩

/-- An open fraction at the end of a text can go on. -/
theorem Scans.isViable_append {s literal : Text} {found : List Token}
    (h : Scans 0 s literal.head? found) (hl : IsOpenLiteral literal)
    (hlen : (s ++ literal).length < Position.greatest) : IsViable (s ++ literal) := by
  refine ⟨s ++ literal ++ ['0'], List.prefix_append _ _, ?_⟩
  obtain ⟨t, ht⟩ := Lexeme.exists_read_number hl.isLiteral (0 + s.length)
  have hnum : Scans (0 + s.length) (literal ++ ['0'] ++ []) none [t] :=
    .token (l := .number _) hl.isLiteral (by simp [Lexeme.EndsBefore]) ht .nil
  rw [List.append_nil] at hnum
  have hhead : (literal ++ ['0']).head?.or none = literal.head? := by
    rw [Option.or_none, head?_append_of_ne_nil hl.ne_nil]
  rw [← hhead] at h
  have hall := h.append hnum
  rw [← List.append_assoc] at hall
  refine hall.isAccepted ?_
  rw [List.length_append]
  exact hlen

/-- The texts that go on like `s`, which ends behind `a` with `c`, are `a`, `c` and any rest. -/
theorem exists_eq_append_cons {a rest t : Text} {c : Char}
    (h : t.take (a.length + 1) = (a ++ c :: rest).take (a.length + 1)) :
    ∃ more, t = a ++ c :: more := by
  refine ⟨t.drop (a.length + 1), ?_⟩
  have hs : (a ++ c :: rest).take (a.length + 1) = a ++ [c] := by
    rw [List.take_length_add_append]
    simp
  rw [hs] at h
  rw [← List.singleton_append, ← List.append_assoc, ← h, List.take_append_drop]

/-- A stray character ends the longest viable beginning, which has tokens. -/
theorem Scans.isFirstFault_stray {a rest : Text} {c : Char} {found : List Token}
    (ha : Scans 0 a (some c) found) (hc : IsStray c)
    (hs : (a ++ c :: rest).length < Position.greatest) :
    IsFirstFault (a ++ c :: rest) ⟨.unexpectedCharacter c, a.length⟩ := by
  have hlen : a.length < (a ++ c :: rest).length := by simp
  have htake : (a ++ c :: rest).take a.length = a := List.take_left
  have hacc : IsAccepted a := ha.isAccepted (by omega)
  have hcongr : ∀ t : Text, t.length ≤ Position.greatest →
      t.take (a.length + 1) = (a ++ c :: rest).take (a.length + 1) →
      tokenize t = .error ⟨.unexpectedCharacter c, a.length⟩ := by
    intro t ht htake
    obtain ⟨more, rfl⟩ := exists_eq_append_cons htake
    have h : Fails 0 (a ++ c :: more) _ := .stray ha hc
    rw [Nat.zero_add] at h
    exact (tokenize_eq_error_iff_fails ht).mpr h
  refine ⟨isGreatest_viable (Nat.le_of_lt hlen) ?_ fun _ => hcongr, ?_, ?_, ?_, fun _ => hcongr⟩
  · show IsViable (List.take a.length _)
    rw [htake]
    exact ⟨a, List.prefix_refl a, hacc⟩
  · show _ ↔ ¬IsAccepted (List.take a.length _)
    rw [htake]
    simp [hacc]
  · intro literal hl
    cases hl
  · intro _
    exact ⟨hlen, c, by simp, rfl⟩

/-- An open fraction fails with everything behind it that is no digit. -/
theorem Scans.fails_openFraction {a literal : Text} {found : List Token}
    (ha : Scans 0 a literal.head? found) (hl : IsOpenLiteral literal) {more : Text}
    (hm : more.head?.any isDigit = false) :
    Fails 0 (a ++ literal ++ more) ⟨.unterminatedFloat literal, (a ++ literal).length⟩ := by
  have h : Fails 0 (a ++ (literal ++ more)) _ := .openFraction ha hl hm
  rwa [Nat.zero_add, ← List.append_assoc, ← List.length_append] at h

theorem Scans.not_isAccepted_append {a literal : Text} {found : List Token}
    (ha : Scans 0 a literal.head? found) (hl : IsOpenLiteral literal)
    (hlen : (a ++ literal).length ≤ Position.greatest) : ¬IsAccepted (a ++ literal) := by
  have h : Fails 0 (a ++ literal ++ []) _ := ha.fails_openFraction hl rfl
  rw [List.append_nil] at h
  exact not_isAccepted_of_error ((tokenize_eq_error_iff_fails hlen).mpr h)

/-- An open fraction ends the longest viable beginning, which has no tokens. -/
theorem Scans.isFirstFault_openFraction {a literal rest : Text} {found : List Token}
    (ha : Scans 0 a literal.head? found) (hl : IsOpenLiteral literal)
    (hr : rest.head?.any isDigit = false)
    (hs : (a ++ literal ++ rest).length < Position.greatest) :
    IsFirstFault (a ++ literal ++ rest)
      ⟨.unterminatedFloat literal, (a ++ literal).length⟩ := by
  have hlen : (a ++ literal).length ≤ (a ++ literal ++ rest).length := by simp
  have htake : (a ++ literal ++ rest).take (a ++ literal).length = a ++ literal := List.take_left
  have hrej := ha.not_isAccepted_append hl (by omega)
  have hcongr : (a ++ literal).length < (a ++ literal ++ rest).length →
      ∀ t : Text, t.length ≤ Position.greatest →
      t.take ((a ++ literal).length + 1) =
        (a ++ literal ++ rest).take ((a ++ literal).length + 1) →
      tokenize t = .error ⟨.unterminatedFloat literal, (a ++ literal).length⟩ := by
    intro hlt t ht htake
    cases rest with
    | nil =>
      rw [List.append_nil] at hlt
      omega
    | cons d rest =>
      obtain ⟨more, rfl⟩ := exists_eq_append_cons htake
      exact (tokenize_eq_error_iff_fails ht).mpr (ha.fails_openFraction hl hr)
  refine ⟨isGreatest_viable hlen ?_ hcongr, ?_, ?_, ?_, hcongr⟩
  · show IsViable (List.take (a ++ literal).length _)
    rw [htake]
    exact ha.isViable_append hl (by omega)
  · show _ ↔ ¬IsAccepted (List.take (a ++ literal).length _)
    rw [htake]
    exact ⟨fun _ => hrej, fun _ => ⟨literal, rfl⟩⟩
  · intro literal' h
    cases h
    show IsLongestSuffix _ (List.take (a ++ literal).length _) _
    rw [htake]
    exact ha.isLongestSuffix hl
  · intro h
    exact absurd rfl (h literal)

/-! ## Top theorem -/

/-- **An error is the first fault of its text.** -/
theorem isFirstFault_of_tokenize_eq_error {s : Text} {e : LexError}
    (hs : s.length < Position.greatest) (he : tokenize s = .error e) : IsFirstFault s e := by
  have h := (tokenize_eq_error_iff_fails (Nat.le_of_lt hs)).mp he
  cases h with
  | stray ha hc =>
    rw [Nat.zero_add]
    exact ha.isFirstFault_stray hc hs
  | openFraction ha hl hr =>
    rw [← List.append_assoc] at hs ⊢
    rw [Nat.zero_add, ← List.length_append]
    exact ha.isFirstFault_openFraction hl hr hs

theorem isFirstFault_open_fraction :
    "1.2-3. 4".toList.length < Position.greatest ∧
      tokenize "1.2-3. 4".toList = .error ⟨.unterminatedFloat "-3.".toList, 6⟩ ∧
      IsFirstFault "1.2-3. 4".toList ⟨.unterminatedFloat "-3.".toList, 6⟩ := by
  have hs : "1.2-3. 4".toList.length < Position.greatest := by decide
  have he : tokenize "1.2-3. 4".toList = .error ⟨.unterminatedFloat "-3.".toList, 6⟩ := by
    decide +kernel
  exact ⟨hs, he, isFirstFault_of_tokenize_eq_error hs he⟩

end ArithTokens
