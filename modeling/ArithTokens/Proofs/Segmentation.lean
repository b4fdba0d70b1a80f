import ArithTokens.Proofs.Scan
import Mathlib.Control.Monad.Basic

/-!
# Segmentations

The tokens of a text, described by their positions and not by how they are found: spans one after
the other, blanks between them, a lexeme under each span, and no lexeme that could be longer.  A
scan finds exactly this, so there is never a second way to cut a text.

    s.length ≤ Position.greatest →
      (tokenize s = .ok tokens ↔ IsTokenization s tokens)              (tokenize_eq_ok_iff)
-/

namespace ArithTokens

/-! ## Definitions -/

/-- The text is a lexeme of the token: the symbol of its kind, or a number literal that has its
value. -/
def Token.Spells (t : Token) (text : Text) : Prop :=
  (∃ c, t.kind.symbol? = some c ∧ text = [c] ∧ t.value = none) ∨
    (t.kind = .number ∧ IsLiteral text ∧ ∃ x, Binary64.ofLiteral? text = some x ∧ t.value = some x)

/-- The tokens `found` cover `s` from `start` on, and each is as long as it can be. -/
structure IsSegmentation (s : Text) (start : Nat) (found : List Token) : Prop where
  start_le : ∀ t ∈ found, start ≤ t.span.start
  nonempty : ∀ t ∈ found, t.span.start < t.span.stop
  stop_le : ∀ t ∈ found, t.span.stop ≤ s.length
  ordered : found.Pairwise fun t u => t.span.stop ≤ u.span.start
  blank_outside : ∀ i c, start ≤ i → s[i]? = some c →
    (∀ t ∈ found, ¬(t.span.start ≤ i ∧ i < t.span.stop)) → c = ' ' ∨ c = '\n'
  spells : ∀ t ∈ found, t.Spells (t.span.slice s)
  after_minus : ∀ t ∈ found, t.kind = .minus → s[t.span.stop]?.any isDigit = false
  after_number : ∀ t ∈ found, t.kind = .number →
    s[t.span.stop]?.any isDigit = false ∧ s[t.span.stop]? ≠ some '.'

/-- The tokens of a text: those of a segmentation, none of which is the end token, and then the end
token. -/
def IsTokenization (s : Text) (tokens : List Token) : Prop :=
  ∃ found, tokens = found ++ [Token.atEnd s.length] ∧ (∀ t ∈ found, t.kind ≠ .endOfInput) ∧
    IsSegmentation s 0 found

/-! ## Lexemes and tokens -/

/-- A lexeme that can be read is a lexeme of the token that it is read as. -/
theorem Lexeme.WellFormed.spells {l : Lexeme} (h : l.WellFormed) {n : Nat} {t : Token}
    (ht : l.read n = .ok t) : t.Spells l.text ∧ t.span = ⟨n, n + l.text.length⟩ := by
  rcases h.read_eq_ok ht with ⟨kind, c, rfl, rfl⟩ | ⟨literal, x, rfl, hx, rfl⟩
  · exact ⟨Or.inl ⟨c, h, rfl, rfl⟩, rfl⟩
  · exact ⟨Or.inr ⟨rfl, h, x, hx, rfl⟩, rfl⟩

/-- A token whose text is its lexeme is what that lexeme is read as. -/
theorem Token.Spells.exists_lexeme {t : Token} {text : Text} (h : t.Spells text)
    (hlen : t.span.stop = t.span.start + text.length) :
    ∃ l : Lexeme, l.WellFormed ∧ l.text = text ∧ l.read t.span.start = .ok t ∧
      ∀ next : Option Char, (t.kind = .minus → next.any isDigit = false) →
        (t.kind = .number → next.any isDigit = false ∧ next ≠ some '.') → l.EndsBefore next := by
  obtain ⟨kind, value, start, stop⟩ := t
  simp only at hlen
  subst hlen
  rcases h with ⟨c, hc, rfl, hv⟩ | ⟨hk, hl, x, hx, hv⟩
  · simp only at hc hv
    subst hv
    exact ⟨.symbol kind c, hc, rfl, rfl, fun next hm _ => hm⟩
  · simp only at hk hv
    subst hk hv
    refine ⟨.number text, hl, rfl, ?_, fun next _ hn => ⟨(hn rfl).1, fun _ => (hn rfl).2⟩⟩
    simp only [Lexeme.read, hx, Lexeme.text]

/-- A piece of text that can be scanned does not start with a point. -/
theorem Scans.head?_ne_point {n : Nat} {s : Text} {next : Option Char} {found : List Token}
    (h : Scans n s next found) : s.head? ≠ some '.' := by
  intro hs
  cases h with
  | nil => cases hs
  | blank hc _ =>
    cases hs
    cases hc
  | token hl _ ht _ =>
    rcases hl.read_eq_ok ht with ⟨kind, c, rfl, rfl⟩ | ⟨literal, x, rfl, _, rfl⟩
    · cases hs
      cases kind <;> cases hl
    · obtain ⟨c, r, rfl, hc⟩ := IsLiteral.exists_cons hl
      cases hs
      rcases hc with hc | hc <;> cases hc

/-! ## Pieces of a text -/

section
variable {s a r : Text} {n : Nat} (h : s.drop n = a ++ r)
include h

theorem drop_add_length : s.drop (n + a.length) = r := by
  rw [← List.drop_drop, h, List.drop_left]

theorem slice_add_length : Span.slice s ⟨n, n + a.length⟩ = a := by
  show (s.drop n).take (n + a.length - n) = a
  rw [h, Nat.add_sub_cancel_left, List.take_left]

theorem add_length_le (ha : a ≠ []) : n + a.length ≤ s.length := by
  have hlen := congrArg List.length h
  have hpos := List.length_pos_iff.mpr ha
  rw [List.length_drop, List.length_append] at hlen
  omega

end

/-! ## Building a segmentation -/

section
variable {s : Text} {n : Nat} {found : List Token}

theorem isSegmentation_nil (h : s.length ≤ n) : IsSegmentation s n [] where
  start_le := by simp
  nonempty := by simp
  stop_le := by simp
  ordered := .nil
  blank_outside := by
    intro i c hi hc
    have := (List.getElem?_eq_some_iff.mp hc).1
    omega
  spells := by simp
  after_minus := by simp
  after_number := by simp

theorem IsSegmentation.of_blank {c : Char} (hc : s[n]? = some c) (hb : isBlank c = true)
    (h : IsSegmentation s (n + 1) found) : IsSegmentation s n found where
  start_le t ht := by
    have := h.start_le t ht
    omega
  nonempty := h.nonempty
  stop_le := h.stop_le
  ordered := h.ordered
  blank_outside := by
    intro i d hi hd hout
    rcases Nat.eq_or_lt_of_le hi with rfl | hi
    · rw [hc] at hd
      cases hd
      exact isBlank_iff.mp hb
    · exact h.blank_outside i d hi hd hout
  spells := h.spells
  after_minus := h.after_minus
  after_number := h.after_number

theorem IsSegmentation.cons {t : Token} (hn : t.span.start = n) (hlt : t.span.start < t.span.stop)
    (hle : t.span.stop ≤ s.length) (hs : t.Spells (t.span.slice s))
    (hm : t.kind = .minus → s[t.span.stop]?.any isDigit = false)
    (hd : t.kind = .number → s[t.span.stop]?.any isDigit = false ∧ s[t.span.stop]? ≠ some '.')
    (h : IsSegmentation s t.span.stop found) : IsSegmentation s n (t :: found) where
  start_le := by
    intro u hu
    rcases List.mem_cons.mp hu with rfl | hu
    · omega
    · have := h.start_le u hu
      omega
  nonempty := List.forall_mem_cons.mpr ⟨hlt, h.nonempty⟩
  stop_le := List.forall_mem_cons.mpr ⟨hle, h.stop_le⟩
  ordered := List.pairwise_cons.mpr ⟨h.start_le, h.ordered⟩
  blank_outside := by
    intro i c hi hc hout
    have hi' : t.span.stop ≤ i := by
      have := hout t List.mem_cons_self
      omega
    exact h.blank_outside i c hi' hc fun u hu => hout u (List.mem_cons_of_mem t hu)
  spells := List.forall_mem_cons.mpr ⟨hs, h.spells⟩
  after_minus := List.forall_mem_cons.mpr ⟨hm, h.after_minus⟩
  after_number := List.forall_mem_cons.mpr ⟨hd, h.after_number⟩

/-! ## Taking a segmentation apart -/

/-- Where no token starts there is a blank, and the segmentation goes on behind it. -/
theorem IsSegmentation.blank (h : IsSegmentation s n found) {c : Char} (hc : s[n]? = some c)
    (hn : ∀ t ∈ found, t.span.start ≠ n) :
    isBlank c = true ∧ IsSegmentation s (n + 1) found := by
  have hlt : ∀ t ∈ found, n + 1 ≤ t.span.start := by
    intro t ht
    have := h.start_le t ht
    have := hn t ht
    omega
  constructor
  · refine isBlank_iff.mpr (h.blank_outside n c (Nat.le_refl n) hc fun t ht => ?_)
    have := hlt t ht
    omega
  · exact
      { h with
        start_le := hlt
        blank_outside := fun i d hi => h.blank_outside i d (by omega) }

/-- Where a token starts there is its lexeme. -/
theorem IsSegmentation.exists_lexeme {t : Token} (h : IsSegmentation s n (t :: found))
    (hs : t.span.start = n) :
    ∃ l : Lexeme, l.WellFormed ∧ l.read n = .ok t ∧ t.span.stop = n + l.text.length ∧
      s.drop n = l.text ++ s.drop t.span.stop ∧ l.EndsBefore s[t.span.stop]? := by
  have hlt := h.nonempty t List.mem_cons_self
  have hle := h.stop_le t List.mem_cons_self
  have hlen : t.span.stop = t.span.start + (t.span.slice s).length := by
    unfold Span.slice
    rw [List.length_take, List.length_drop]
    omega
  obtain ⟨l, hl, htext, hread, hends⟩ := (h.spells t List.mem_cons_self).exists_lexeme hlen
  refine ⟨l, hl, hs ▸ hread, ?_, ?_,
    hends _ (h.after_minus t List.mem_cons_self) (h.after_number t List.mem_cons_self)⟩
  · rwa [htext, ← hs]
  · rw [htext]
    unfold Span.slice
    rw [← List.take_append_drop (t.span.stop - t.span.start) (s.drop n), hs, List.drop_drop]
    congr 2
    omega

theorem IsSegmentation.tail {t : Token} (h : IsSegmentation s n (t :: found)) :
    IsSegmentation s t.span.stop found where
  start_le := (List.pairwise_cons.mp h.ordered).1
  nonempty := (List.forall_mem_cons.mp h.nonempty).2
  stop_le := (List.forall_mem_cons.mp h.stop_le).2
  ordered := (List.pairwise_cons.mp h.ordered).2
  blank_outside := by
    intro i c hi hc hout
    have hs := h.start_le t List.mem_cons_self
    have hlt := h.nonempty t List.mem_cons_self
    refine h.blank_outside i c (by omega) hc (List.forall_mem_cons.mpr ⟨?_, hout⟩)
    omega
  spells := (List.forall_mem_cons.mp h.spells).2
  after_minus := (List.forall_mem_cons.mp h.after_minus).2
  after_number := (List.forall_mem_cons.mp h.after_number).2

end

/-! ## Scans and segmentations -/

/-- What a scan of the rest of a text finds is a segmentation of that rest. -/
theorem Scans.isSegmentation {n : Nat} {r : Text} {found : List Token} (h : Scans n r none found)
    {s : Text} (hr : s.drop n = r) : IsSegmentation s n found := by
  generalize hq : (none : Option Char) = q at h
  induction h with
  | nil => exact isSegmentation_nil (List.drop_eq_nil_iff.mp hr)
  | @blank n c r _ found hc _ ih =>
    have hget : s[n]? = some c := by
      rw [← List.head?_drop, hr, List.head?_cons]
    refine .of_blank hget hc (ih ?_ hq)
    rw [← List.drop_drop, hr, List.drop_one, List.tail_cons]
  | @token n l t r _ found hl he ht hscan ih =>
    subst hq
    obtain ⟨hs, hspan⟩ := hl.spells ht
    have hdrop := drop_add_length hr
    have hle := add_length_le hr hl.text_ne_nil
    have hpos := List.length_pos_iff.mpr hl.text_ne_nil
    have hnext : s[n + l.text.length]? = r.head? := by
      rw [← hdrop, List.head?_drop]
    rw [Option.or_none] at he
    have h := ih hdrop rfl
    refine .cons (by rw [hspan]) (by rw [hspan]; simp only; omega) (by rw [hspan]; exact hle)
      (by rw [hspan, slice_add_length hr]; exact hs) ?_ ?_ (by rw [hspan]; exact h)
    · rw [hspan, hnext]
      intro hk
      rcases hl.read_eq_ok ht with ⟨kind, c, rfl, rfl⟩ | ⟨literal, x, rfl, _, rfl⟩
      · exact he hk
      · cases hk
    · rw [hspan, hnext]
      intro hk
      rcases hl.read_eq_ok ht with ⟨kind, c, rfl, rfl⟩ | ⟨literal, x, rfl, _, rfl⟩
      · simp only at hk
        subst hk
        cases hl
      · exact ⟨he.1, hscan.head?_ne_point⟩

/-- A segmentation of the rest of a text is what a scan of it finds. -/
theorem IsSegmentation.scans {s : Text} {n : Nat} {found : List Token}
    (h : IsSegmentation s n found) : Scans n (s.drop n) none found := by
  generalize hk : s.length - n = k
  induction k using Nat.strongRecOn generalizing n found with
  | ind k ih =>
    by_cases hn : n < s.length
    · have hget : s[n]? = some s[n] := List.getElem?_eq_getElem hn
      have hblank : (∀ t ∈ found, t.span.start ≠ n) → Scans n (s.drop n) none found := by
        intro hne
        obtain ⟨hb, h⟩ := h.blank hget hne
        rw [List.drop_eq_getElem_cons hn]
        exact .blank hb (ih (s.length - (n + 1)) (by omega) h rfl)
      -- the tokens are in order, so only the first one can start here
      cases found with
      | nil => exact hblank (by simp)
      | cons t found =>
        by_cases hs : t.span.start = n
        · obtain ⟨l, hl, hread, hstop, hsplit, hends⟩ := h.exists_lexeme hs
          have hlt := h.nonempty t List.mem_cons_self
          have hrest := ih (s.length - t.span.stop) (by omega) h.tail rfl
          rw [hsplit]
          refine .token hl ?_ hread ?_
          · rwa [Option.or_none, List.head?_drop]
          · rwa [← hstop]
        · refine hblank fun u hu => ?_
          rcases List.mem_cons.mp hu with rfl | hu
          · exact hs
          · have := (List.pairwise_cons.mp h.ordered).1 u hu
            have := h.nonempty t List.mem_cons_self
            have := h.start_le t List.mem_cons_self
            omega
    · cases found with
      | nil =>
        rw [List.drop_eq_nil_iff.mpr (by omega)]
        exact .nil
      | cons t found =>
        have := h.start_le t List.mem_cons_self
        have := h.nonempty t List.mem_cons_self
        have := h.stop_le t List.mem_cons_self
        omega

theorem isTokenization_iff {s : Text} {tokens : List Token} :
    IsTokenization s tokens ↔ Cursor.tokens ⟨0, s⟩ [] = .ok tokens := by
  rw [Cursor.tokens_eq_ok_iff, Nat.zero_add]
  constructor
  · rintro ⟨found, rfl, _, h⟩
    exact ⟨found, h.scans, rfl⟩
  · rintro ⟨found, h, rfl⟩
    have hseg := h.isSegmentation (s := s) rfl
    refine ⟨found, rfl, fun t ht hk => ?_, hseg⟩
    rcases hseg.spells t ht with ⟨c, hc, _⟩ | ⟨hn, _⟩
    · rw [hk] at hc
      cases hc
    · rw [hk] at hn
      cases hn

/-! ## Top theorem -/

/-- **A text has the tokens of its segmentation**, and there is at most one. -/
theorem tokenize_eq_ok_iff (s : Text) :
    (s.length ≤ Position.greatest → ∀ tokens, tokenize s = .ok tokens ↔ IsTokenization s tokens) ∧
      ∀ tokens tokens', IsTokenization s tokens → IsTokenization s tokens' → tokens = tokens' := by
  constructor
  · intro hs tokens
    rw [tokenize_of_length_le hs]
    exact isTokenization_iff.symm
  · intro tokens tokens' h h'
    have he := (isTokenization_iff.mp h).symm.trans (isTokenization_iff.mp h')
    exact Except.ok.inj he

theorem isTokenization_signs :
    "--5\n(1.5".toList.length ≤ Position.greatest ∧
      IsTokenization "--5\n(1.5".toList
        [⟨.minus, none, ⟨0, 1⟩⟩, ⟨.number, some (.ofBits 0xc014000000000000), ⟨1, 3⟩⟩,
          ⟨.openParen, none, ⟨4, 5⟩⟩, ⟨.number, some (.ofBits 0x3ff8000000000000), ⟨5, 8⟩⟩,
          Token.atEnd 8] :=
  ⟨by decide, ((tokenize_eq_ok_iff _).1 (by decide) _).mp (by decide +kernel)⟩

end ArithTokens
