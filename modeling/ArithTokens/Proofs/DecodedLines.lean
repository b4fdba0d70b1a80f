import ArithTokens.Command.Input
import ArithTokens.Proofs.MaximalSubparts
import ArithTokens.Proofs.Places

/-!
# Decoded lines

A line feed in a decoded text comes from the octet of a line feed.  The lines of an input are cut at
those octets, so no line has a line feed in it when it is decoded.

    octets ∈ inputLines input → '\n' ∉ Utf8.textOf octets       (lineFeed_notMem_textOf_inputLines)
-/

namespace ArithTokens

/-! ## Lines -/

/-- A line has its terminator at its end or not at all. -/
theorem Lines.eq_concat_or_notMem {α : Type} [DecidableEq α] (t : α) (xs : List α) :
    ∀ line ∈ cut t xs, ∃ body, t ∉ body ∧ (line = body ++ [t] ∨ line = body) := by
  induction xs with
  | nil => simp [cut_nil]
  | cons x xs ih =>
    rw [cut_cons]
    cases h : cut t xs with
    | nil =>
      refine List.forall_mem_singleton.mpr ?_
      by_cases hx : x = t
      · exact ⟨[], by simp, Or.inl (by rw [hx]; rfl)⟩
      · exact ⟨[x], by simpa using Ne.symm hx, Or.inr rfl⟩
    | cons first more =>
      rw [h] at ih
      obtain ⟨⟨body, hbody, hfirst⟩, hmore⟩ := List.forall_mem_cons.mp ih
      rw [attach]
      split
      · next hx =>
        refine List.forall_mem_cons.mpr ⟨⟨[], by simp, Or.inl (by rw [hx]; rfl)⟩, ih⟩
      · next hx =>
        refine List.forall_mem_cons.mpr ⟨⟨x :: body, ?_, ?_⟩, hmore⟩
        · rw [List.mem_cons, not_or]
          exact ⟨Ne.symm hx, hbody⟩
        · rcases hfirst with rfl | rfl
          · exact Or.inl rfl
          · exact Or.inr rfl

namespace Command

theorem lineFeed_notMem_inputLines {octets line : List UInt8} (h : line ∈ inputLines octets) :
    lineFeed ∉ line := by
  obtain ⟨whole, hwhole, rfl⟩ := List.mem_map.mp h
  obtain ⟨body, hbody, rfl | rfl⟩ := Lines.eq_concat_or_notMem lineFeed octets whole hwhole
  · unfold dropTerminator
    rw [Lines.dropTerminator_concat]
    split
    · exact fun hm => hbody (List.dropLast_subset body hm)
    · exact hbody
  · unfold dropTerminator
    rwa [Lines.dropTerminator_of_notMem hbody]

theorem inputLines_append {line : List UInt8} (h : lineFeed ∉ line)
    (hr : line.getLast? ≠ some carriageReturn) (rest : List UInt8) :
    inputLines (line ++ lineFeed :: rest) = line :: inputLines rest := by
  have hd : dropTerminator (line ++ [lineFeed]) = line := by
    unfold dropTerminator
    rw [Lines.dropTerminator_concat, if_neg hr]
  unfold inputLines
  rw [Lines.cut_append_terminator h, List.map_cons, hd]

theorem lineFeed_notMem_textOf {octets : List UInt8} (h : lineFeed ∉ octets) :
    '\n' ∉ Utf8.textOf octets :=
  fun hm => h (Utf8.mem_of_mem_textOf (show lineFeed.toNat < 0x80 by decide) hm)

/-- No line of an input has a line feed in its text. -/
theorem lineFeed_notMem_textOf_inputLines {octets line : List UInt8}
    (h : line ∈ inputLines octets) : '\n' ∉ Utf8.textOf line :=
  lineFeed_notMem_textOf (lineFeed_notMem_inputLines h)

end Command

end ArithTokens
