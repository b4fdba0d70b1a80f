import ArithTokens.Proofs.Concatenation
import ArithTokens.Proofs.ReadBack
import ArithTokens.Proofs.Segmentation

/-!
# Tokens written out and read again

A token can be written as its symbol, or as the text of its number.  The tokens of a text, written
one after the other with a space between any two, are a text with the same tokens: what is written
for a token is a lexeme of it, and a space keeps lexemes apart.  Only the positions change, as the
blanks and the form of the numbers may.

    t.Spells text, its number is finite → t.Spells t.written                      (Spells.written)
    every t is spelled by t.written → reprint tokens is scanned to the same tokens  (scans_joined)
    tokenize s = .ok tokens → tokenize (reprint tokens) has the same kinds and numbers
                                                                                (tokenize_reprint)
-/

namespace ArithTokens

/-! ## Definitions -/

/-- The text of a token by itself: its symbol, or its number. -/
def Token.written (t : Token) : Text :=
  match t.kind.symbol? with
  | some c => [c]
  | none => (t.value.map Binary64.toText).getD []

/-- What a token is, wherever it stands. -/
def Token.content (t : Token) : Kind × Option Binary64 :=
  (t.kind, t.value)

/-- The tokens written with a space between any two, the end token left out. -/
def reprint (tokens : List Token) : Text :=
  [' '].intercalate ((tokens.filter fun t => !t.isEnd).map Token.written)

/-! ## One token -/

namespace Token.Spells

variable {t : Token} {text : Text} (h : t.Spells text)
include h

theorem isEnd : t.isEnd = false := by
  rcases h with ⟨c, hc, -, -⟩ | ⟨hk, -, -⟩
  · apply decide_eq_false
    intro hk
    rw [hk] at hc
    cases hc
  · apply decide_eq_false
    rw [hk]
    decide

/-- What is written for a token is one of its lexemes. -/
theorem written (hf : ∀ x ∈ t.value, x.IsFinite) : t.Spells t.written := by
  rcases h with ⟨c, hc, -, hv⟩ | ⟨hk, -, x, -, hv⟩
  · refine Or.inl ⟨c, hc, ?_, hv⟩
    rw [Token.written, hc]
  · have hx : t.written = x.toText := by
      rw [Token.written, hk, hv]
      rfl
    rw [hx]
    exact Or.inr ⟨hk, Binary64.isLiteral_toText (hf x hv), x,
      Binary64.ofLiteral?_toText (hf x hv), hv⟩

/-- A lexeme of a token by itself is scanned to that token, at its new position. -/
theorem exists_scans (n : Nat) :
    ∃ t', t'.content = t.content ∧ Scans n text none [t'] := by
  have h' : Token.Spells ⟨t.kind, t.value, ⟨n, n + text.length⟩⟩ text := h
  obtain ⟨l, hl, rfl, hread, hends⟩ := h'.exists_lexeme rfl
  have hnone : l.EndsBefore none := hends none (fun _ => rfl) (fun _ => ⟨rfl, nofun⟩)
  have hscan : Scans n (l.text ++ []) none [_] := .token hl hnone hread .nil
  rw [List.append_nil] at hscan
  exact ⟨⟨t.kind, t.value, ⟨n, n + l.text.length⟩⟩, rfl, hscan⟩

end Token.Spells

/-! ## All tokens -/

/-- The texts of tokens, with spaces between them, are scanned to these tokens. -/
theorem scans_joined {found : List Token} (h : ∀ t ∈ found, t.Spells t.written) (n : Nat) :
    ∃ found', found'.map Token.content = found.map Token.content ∧
      Scans n ([' '].intercalate (found.map Token.written)) none found' := by
  induction found generalizing n with
  | nil => exact ⟨[], rfl, .nil⟩
  | cons t found ih =>
    obtain ⟨ht, hfound⟩ := List.forall_mem_cons.mp h
    obtain ⟨t', hcontent, hscan⟩ := ht.exists_scans n
    cases found with
    | nil => exact ⟨[t'], by simp [hcontent], by simpa using hscan⟩
    | cons u found =>
      -- the space ends the first token and goes before the others
      obtain ⟨more, hmore, hrest⟩ := ih hfound (n + (t.written ++ [' ']).length)
      refine ⟨[t'] ++ more, by simp [hcontent, hmore], ?_⟩
      rw [List.map_cons, List.map_cons, List.intercalate_cons_cons]
      exact (hscan.append_blank rfl _).append hrest

/-- What is found in a text is spelled by the lexemes there. -/
theorem Scans.exists_spells {s : Text} {found : List Token} (h : Scans 0 s none found) :
    ∀ t ∈ found, ∃ text, t.Spells text := by
  intro t ht
  exact ⟨_, (h.isSegmentation List.drop_zero).spells t ht⟩

theorem reprint_append_atEnd {found : List Token} (h : ∀ t ∈ found, t.isEnd = false) (n : Nat) :
    reprint (found ++ [Token.atEnd n]) = [' '].intercalate (found.map Token.written) := by
  have hfilter : found.filter (fun t => !t.isEnd) = found := by
    rw [List.filter_eq_self]
    intro t ht
    rw [h t ht]
    rfl
  have hlast : [Token.atEnd n].filter (fun t => !t.isEnd) = [] := rfl
  rw [reprint, List.filter_append, hfilter, hlast, List.append_nil]

/-! ## Top theorem -/

/-- **The tokens of a text can be written out and read again.**  Kinds and numbers are the same, bit
by bit. -/
theorem tokenize_reprint {s : Text} {tokens : List Token} (h : tokenize s = .ok tokens)
    (hfinite : ∀ t ∈ tokens, ∀ x ∈ t.value, x.IsFinite)
    (hlen : (reprint tokens).length ≤ Position.greatest) :
    ∃ tokens', tokenize (reprint tokens) = .ok tokens' ∧
      tokens'.map Token.content = tokens.map Token.content := by
  obtain ⟨found, hscan, rfl⟩ := (tokenize_eq_ok_iff_scans (IsAccepted.length_le ⟨_, h⟩)).mp h
  have hspells := hscan.exists_spells
  have hend : ∀ t ∈ found, t.isEnd = false := by
    intro t ht
    obtain ⟨text, hs⟩ := hspells t ht
    exact hs.isEnd
  have hwritten : ∀ t ∈ found, t.Spells t.written := by
    intro t ht
    obtain ⟨text, hs⟩ := hspells t ht
    exact hs.written (hfinite t (List.mem_append_left _ ht))
  obtain ⟨found', hcontent, hscan'⟩ := scans_joined hwritten 0
  rw [← reprint_append_atEnd hend s.length] at hscan'
  refine ⟨_, (tokenize_eq_ok_iff_scans hlen).mpr ⟨found', hscan', rfl⟩, ?_⟩
  rw [List.map_append, List.map_append, hcontent]
  rfl

/-- A minus sign in front of a negative zero, and a number with needless zeros. -/
theorem tokenize_reprint_negative_zero :
    reprint [⟨.minus, none, ⟨0, 1⟩⟩, ⟨.number, some (.ofBits 0x8000000000000000), ⟨1, 5⟩⟩,
        ⟨.star, none, ⟨6, 7⟩⟩, ⟨.number, some (.ofBits 0x401d000000000000), ⟨7, 14⟩⟩,
        Token.atEnd 14] = "- -0 * 7.25".toList ∧
      ∃ tokens', tokenize "- -0 * 7.25".toList = .ok tokens' ∧
        tokens'.map Token.content = [(.minus, none), (.number, some (.ofBits 0x8000000000000000)),
          (.star, none), (.number, some (.ofBits 0x401d000000000000)), (.endOfInput, none)] := by
  have htokens : tokenize "--0.0\n*007.250".toList = .ok
      [⟨.minus, none, ⟨0, 1⟩⟩, ⟨.number, some (.ofBits 0x8000000000000000), ⟨1, 5⟩⟩,
        ⟨.star, none, ⟨6, 7⟩⟩, ⟨.number, some (.ofBits 0x401d000000000000), ⟨7, 14⟩⟩,
        Token.atEnd 14] := by
    decide +kernel
  have hreprint : reprint [⟨.minus, none, ⟨0, 1⟩⟩,
      ⟨.number, some (.ofBits 0x8000000000000000), ⟨1, 5⟩⟩, ⟨.star, none, ⟨6, 7⟩⟩,
      ⟨.number, some (.ofBits 0x401d000000000000), ⟨7, 14⟩⟩, Token.atEnd 14] =
        "- -0 * 7.25".toList := by
    decide +kernel
  refine ⟨hreprint, ?_⟩
  rw [← hreprint]
  refine tokenize_reprint htokens ?_ ?_
  · decide +kernel
  · decide +kernel

end ArithTokens
