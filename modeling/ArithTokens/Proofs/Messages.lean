import ArithTokens.Proofs.Escapes
import ArithTokens.Proofs.Listing

/-!
# Messages of errors

A message tells everything about its error: the first words tell the kind of the cause, the quoted
characters and the length are read back whatever follows them, and the position is all that is left.
And it is one line, since nothing in it is a control character.

    c.detail ++ a = c'.detail ++ b → c = c' ∧ a = b                    (Cause.detail_append_inj)
    e.message = e'.message ↔ e = e', and HasNoControl e.message              (message_eq_iff)
-/

namespace ArithTokens

/-! ## Causes -/

namespace Cause

open Escape (quoted_append_inj hasNoControl_quoted)

theorem detail_append_inj {c c' : Cause} {a b : Text} (h : c.detail ++ a = c'.detail ++ b) :
    c = c' ∧ a = b := by
  unfold detail at h
  cases c with
  | unexpectedCharacter x =>
    cases c' with
    | unexpectedCharacter y =>
      simp only [List.append_assoc] at h
      obtain ⟨hx, rfl⟩ := quoted_append_inj (Or.inl rfl) (List.append_cancel_left h)
      obtain rfl := List.singleton_inj.mp hx
      exact ⟨rfl, rfl⟩
    | _ => simp at h
  | unterminatedFloat s =>
    cases c' with
    | unterminatedFloat t =>
      simp only [List.append_assoc] at h
      obtain ⟨rfl, rfl⟩ := quoted_append_inj (Or.inr rfl) (List.append_cancel_left h)
      exact ⟨rfl, rfl⟩
    | _ => simp at h
  | unreadableNumber s =>
    cases c' with
    | unreadableNumber t =>
      simp only [List.append_assoc] at h
      obtain ⟨rfl, rfl⟩ := quoted_append_inj (Or.inr rfl) (List.append_cancel_left h)
      exact ⟨rfl, rfl⟩
    | _ => simp at h
  | inputTooLong n =>
    cases c' with
    | inputTooLong k =>
      have hspace : ∀ n, ' ' ∉ Text.ofNat n := fun n => (isDigits_ofNat n).notMem rfl
      simp only [List.append_assoc] at h
      -- the length ends at the space
      obtain ⟨hn, hrest⟩ := Text.append_cons_inj (hspace n) (hspace k) (List.append_cancel_left h)
      obtain rfl := Text.ofNat_inj hn
      have hwords : "characters".toList ++ a = "characters".toList ++ b := hrest
      exact ⟨rfl, List.append_cancel_left hwords⟩
    | _ => simp at h

theorem hasNoControl_detail (c : Cause) : HasNoControl c.detail := by
  cases c with
  | unexpectedCharacter x =>
    have hwords : HasNoControl "unexpected character: ".toList := by decide
    exact hwords.append (hasNoControl_quoted (Or.inl rfl) [x])
  | unterminatedFloat s =>
    have hwords : HasNoControl "unterminated float: ".toList := by decide
    exact hwords.append (hasNoControl_quoted (Or.inr rfl) s)
  | unreadableNumber s =>
    have hwords : HasNoControl "error parsing number: ".toList := by decide
    exact hwords.append (hasNoControl_quoted (Or.inr rfl) s)
  | inputTooLong n =>
    have hwords : HasNoControl "input too long: ".toList := by decide
    have hend : HasNoControl " characters".toList := by decide
    exact (hwords.append (hasNoControl_ofNat n)).append hend

end Cause

/-! ## Top theorem -/

/-- **A message tells its error from all others, and is one line** without control characters. -/
theorem message_eq_iff (e e' : LexError) :
    (e.message = e'.message ↔ e = e') ∧ HasNoControl e.message := by
  constructor
  · constructor
    · intro h
      rw [LexError.message, LexError.message, List.append_assoc, List.append_assoc] at h
      obtain ⟨hcause, hend⟩ := Cause.detail_append_inj h
      have hposition := Text.ofNat_inj (List.append_cancel_left hend)
      obtain ⟨cause, position⟩ := e
      obtain ⟨cause', position'⟩ := e'
      cases hcause
      cases hposition
      rfl
    · rintro rfl
      rfl
  · have hwords : HasNoControl " at position ".toList := by decide
    exact (e.cause.hasNoControl_detail.append hwords).append (hasNoControl_ofNat e.position)

-- a literal that looks like the end of a message, with a line feed
example : (LexError.mk (.unterminatedFloat "1.\" at position 2\n".toList) 2).message =
    "unterminated float: \"1.\\\" at position 2\\n\" at position 2".toList := by
  decide +kernel

end ArithTokens
