import ArithTokens.Proofs.Reprint
import ArithTokens.Proofs.ViablePrefix

/-!
# Inserted blanks

A blank put into a text moves what is behind it and changes nothing else, unless it comes between
two characters of one lexeme.  Only a number has more than one character.  A number that is cut is
an error, if it is cut beside its point, and two tokens otherwise, so the tokens are never the same.

    a scan over two pieces → the seam is between two tokens, or it cuts a number   (Scans.isSeam)
    a number is cut, both pieces have tokens → there is one token more   (IsCutNumber.length_lt)
    a blank at offset k → same kinds and values iff no token has k inside (tokenize_insert_blank)
-/

namespace ArithTokens

/-! ## Definitions -/

/-- Both the character before the offset and the one behind it belong to the token. -/
def Token.HasInside (k : Nat) (t : Token) : Prop :=
  t.span.start < k ∧ k < t.span.stop

instance (k : Nat) (t : Token) : Decidable (t.HasInside k) :=
  inferInstanceAs (Decidable (_ ∧ _))

/-- The token when one more character stands at the offset: moved if it starts there or behind. -/
def Token.makeRoom (k : Nat) (t : Token) : Token :=
  if k ≤ t.span.start then t.shift 1 else t

theorem Token.content_makeRoom (k : Nat) (t : Token) : (t.makeRoom k).content = t.content := by
  unfold makeRoom
  split <;> rfl

/-- In a scan over `a` and `b` the seam cuts a number: `front` of it ends `a`, `back` starts `b`. -/
inductive IsCutNumber (n : Nat) (next : Option Char) : Text → Text → List Token → Prop
  | intro {a front back b : Text} {t : Token} {before after : List Token} :
      front ≠ [] → back ≠ [] → IsLiteral (front ++ back) →
      (b.head?.or next).any isDigit = false →
      t.span = ⟨n + a.length, n + a.length + (front ++ back).length⟩ →
      Scans n a front.head? before →
      Scans (n + a.length + (front ++ back).length) b next after →
      IsCutNumber n next (a ++ front) (back ++ b) (before ++ t :: after)

/-- In a scan over `a` and `b` the seam is between two tokens, or it cuts a number. -/
inductive IsSeam (n : Nat) (next : Option Char) (a b : Text) : List Token → Prop
  | between {before after : List Token} :
      Scans n a (b.head?.or next) before → Scans (n + a.length) b next after →
      IsSeam n next a b (before ++ after)
  | cut {found : List Token} : IsCutNumber n next a b found → IsSeam n next a b found

/-! ## Spans -/

theorem Scans.span_bounds {n : Nat} {s : Text} {next : Option Char} {found : List Token}
    (h : Scans n s next found) :
    ∀ t ∈ found, n ≤ t.span.start ∧ t.span.start < t.span.stop ∧ t.span.stop ≤ n + s.length := by
  induction h with
  | nil => simp
  | blank _ _ ih =>
    intro t ht
    have := ih t ht
    rw [List.length_cons]
    omega
  | @token n l t s next found hl he hread _ ih =>
    obtain ⟨-, hspan⟩ := hl.spells hread
    have hpos := List.length_pos_iff.mpr hl.text_ne_nil
    intro u hu
    rw [List.length_append]
    rcases List.mem_cons.mp hu with rfl | hu
    · rw [hspan]
      simp only
      omega
    · have := ih u hu
      omega

/-! ## Seams in a scan -/

/-- The last tokens of a scan of the whole are those of a scan of the last piece. -/
theorem Scans.exists_append {n : Nat} {a b : Text} {found all : List Token}
    (ha : Scans n a b.head? found) (h : Scans n (a ++ b) none all) :
    ∃ more, all = found ++ more ∧ Scans (n + a.length) b none more := by
  have hall := Cursor.tokens_eq_ok_iff.mpr ⟨all, h, rfl⟩
  rw [Cursor.tokens_append ha] at hall
  rcases scans_or_fails (n + a.length) b with ⟨more, hb⟩ | ⟨e, hb⟩
  · refine ⟨more, ?_, hb⟩
    rw [Cursor.tokens_eq_ok_iff.mpr ⟨more, hb, rfl⟩] at hall
    have he : found ++ (more ++ [Token.atEnd (n + a.length + b.length)]) =
        all ++ [Token.atEnd (n + (a ++ b).length)] := Except.ok.inj hall
    rw [List.length_append, ← Nat.add_assoc, ← List.append_assoc] at he
    exact (List.append_cancel_right he).symm
  · rw [Cursor.tokens_of_fails hb] at hall
    cases hall

/-- A text has as many tokens wherever it starts. -/
theorem Scans.length_eq {n m : Nat} {s : Text} {found found' : List Token}
    (h : Scans n s none found) (h' : Scans m s none found') : found.length = found'.length := by
  have hn := h.shift m
  have hm := h'.shift n
  rw [Nat.add_comm] at hm
  have he := (Cursor.tokens_eq_ok_iff.mpr ⟨_, hn, rfl⟩).symm.trans
    (Cursor.tokens_eq_ok_iff.mpr ⟨_, hm, rfl⟩)
  have hlen := congrArg List.length (Except.ok.inj he)
  simpa using hlen

/-- The first character of a lexeme is no blank, so a scan of its front finds something. -/
theorem Scans.ne_nil_of_isLiteral {n : Nat} {front back : Text} {found : List Token}
    (hf : front ≠ []) (hl : IsLiteral (front ++ back)) (h : Scans n front none found) :
    found ≠ [] := by
  obtain ⟨c, r, he, hc⟩ := hl.exists_cons
  have hblank : isBlank c = false := by
    rcases hc with rfl | hc
    · rfl
    · exact isBlank_of_isDigit hc
  cases h with
  | nil => exact absurd rfl hf
  | blank hb _ =>
    cases he
    rw [hb] at hblank
    cases hblank
  | token => simp

/-- More text in front of a seam, with what is found in it. -/
theorem IsSeam.prepend {n : Nat} {p a b : Text} {next : Option Char} {first found : List Token}
    (hp : Scans n p ((a ++ b).head?.or next) first) (h : IsSeam (n + p.length) next a b found) :
    IsSeam n next (p ++ a) b (first ++ found) := by
  have hlen : ∀ a : Text, n + p.length + a.length = n + (p ++ a).length := by
    intro a
    rw [List.length_append, Nat.add_assoc]
  cases h with
  | @between before after ha hb =>
    rw [head?_append_or] at hp
    rw [hlen] at hb
    rw [← List.append_assoc]
    exact .between (hp.append ha) hb
  | cut hcut =>
    cases hcut with
    | @intro a front back b t before after hf hb hl hd hspan ha hafter =>
      have hhead : (a ++ front ++ (back ++ b)).head?.or next = a.head?.or front.head? := by
        rw [List.append_assoc, List.head?_append, head?_append_of_ne_nil hf,
          List.head?_eq_some_head hf, Option.or_assoc]
        rfl
      rw [hhead] at hp
      rw [hlen] at hspan hafter
      rw [← List.append_assoc, ← List.append_assoc]
      exact .cut (.intro hf hb hl hd hspan (hp.append ha) hafter)

theorem Scans.isSeam {n : Nat} {a b : Text} {next : Option Char} {found : List Token}
    (h : Scans n (a ++ b) next found) : IsSeam n next a b found := by
  generalize hs : a ++ b = s at h
  induction h generalizing a with
  | nil =>
    obtain ⟨rfl, rfl⟩ := List.append_eq_nil_iff.mp hs
    show IsSeam _ _ [] [] ([] ++ [])
    exact .between .nil .nil
  | @blank n c s next found hc h ih =>
    cases a with
    | nil =>
      obtain rfl : b = c :: s := hs
      show IsSeam n next [] (c :: s) ([] ++ found)
      exact .between .nil (.blank hc h)
    | cons c' a =>
      obtain ⟨rfl, rfl⟩ := List.cons.inj hs
      show IsSeam n next ([c'] ++ a) b ([] ++ found)
      exact IsSeam.prepend (.blank hc .nil) (ih rfl)
  | @token n l t s next found hl he hread h ih =>
    have ht : Scans n (l.text ++ []) (s.head?.or next) [t] := .token hl he hread .nil
    rw [List.append_nil] at ht
    rcases List.append_eq_append_iff.mp hs with ⟨back, htext, rfl⟩ | ⟨a', rfl, rfl⟩
    · -- the seam is inside the lexeme or at one of its ends
      by_cases hf : a = []
      · subst hf
        obtain rfl : l.text = back := htext
        show IsSeam n next [] (l.text ++ s) ([] ++ t :: found)
        exact .between .nil (.token hl he hread h)
      by_cases hb : back = []
      · subst hb
        rw [List.append_nil] at htext
        subst htext
        exact .between ht h
      rcases hl.read_eq_ok hread with ⟨kind, c, rfl, rfl⟩ | ⟨literal, x, rfl, -, rfl⟩
      · have hlen := congrArg List.length htext
        have hfpos := List.length_pos_iff.mpr hf
        have hbpos := List.length_pos_iff.mpr hb
        simp only [Lexeme.text, List.length_append, List.length_singleton] at hlen
        omega
      · obtain rfl : literal = a ++ back := htext
        show IsSeam n next ([] ++ a) (back ++ s) ([] ++ _ :: found)
        exact .cut (.intro hf hb hl he.1 rfl .nil h)
    · show IsSeam n next (l.text ++ a') b ([t] ++ found)
      exact IsSeam.prepend ht (ih rfl)

/-! ## Numbers cut in two -/

/-- What is left of a literal is one, unless its point comes first. -/
theorem IsLiteral.of_append {front back : Text} (h : IsLiteral (front ++ back)) (hf : front ≠ [])
    (hb : back ≠ []) (hp : back.head? ≠ some '.') : IsLiteral back := by
  have hdigits : (∀ c ∈ back, isDigit c = true) → IsLiteral back := fun hd =>
    .integer ⟨[], back, Or.inl rfl, ⟨hb, hd⟩, rfl⟩
  generalize hs : front ++ back = s at h
  cases h with
  | integer hw =>
    rw [← hs] at hw
    exact hdigits (hw.of_append hf).2
  | @fraction whole digits hw hd =>
    rcases List.append_eq_append_iff.mp hs with ⟨rest, rfl, rfl⟩ | ⟨rest, rfl, he⟩
    · -- cut in front of the point
      have hrest : rest ≠ [] := by
        rintro rfl
        exact hp rfl
      exact .fraction ⟨[], rest, Or.inl rfl, ⟨hrest, (hw.of_append hf).2⟩, rfl⟩ hd
    · -- cut behind the point
      cases rest with
      | nil =>
        rw [List.nil_append] at he
        rw [← he] at hp
        exact absurd rfl hp
      | cons c rest =>
        obtain ⟨-, rfl⟩ := List.cons.inj he
        exact hdigits fun c hc => hd.2 c (List.mem_append_right rest hc)

namespace IsCutNumber

variable {a b : Text} {found : List Token}

/-- The token that is cut has the seam inside. -/
theorem exists_hasInside {n : Nat} {next : Option Char} (h : IsCutNumber n next a b found) :
    ∃ t ∈ found, t.HasInside (n + a.length) := by
  cases h with
  | @intro a front back b t before after hf hb _ _ hspan _ _ =>
    refine ⟨t, by simp, ?_⟩
    have hfpos := List.length_pos_iff.mpr hf
    have hbpos := List.length_pos_iff.mpr hb
    unfold Token.HasInside
    rw [hspan]
    simp only [List.length_append]
    omega

/-- If both pieces have tokens, the number has become two of them. -/
theorem length_lt (h : IsCutNumber 0 none a b found) {first second : List Token}
    (ha : Scans 0 a none first) (hb : Scans 0 b none second) :
    found.length < first.length + second.length := by
  cases h with
  | @intro a front back b t before after hf hback hl hd _ hbefore hafter =>
    obtain ⟨fronts, rfl, hfronts⟩ := hbefore.exists_append ha
    have hpos := List.length_pos_iff.mpr (hfronts.ne_nil_of_isLiteral hf hl)
    have hpoint : back.head? ≠ some '.' := by
      rw [← head?_append_of_ne_nil hback b]
      exact hb.head?_ne_point
    have hliteral := hl.of_append hf hback hpoint
    obtain ⟨u, hu⟩ := Lexeme.exists_read_number hliteral 0
    have hends : (Lexeme.number back).EndsBefore b.head? := by
      rw [Option.or_none] at hd
      exact ⟨hd, fun _ => hafter.head?_ne_point⟩
    have hnumber : Scans 0 (back ++ []) b.head? [u] := .token (l := .number back) hliteral
      hends hu .nil
    rw [List.append_nil] at hnumber
    obtain ⟨rest, rfl, hrest⟩ := hnumber.exists_append hb
    have hlen := hrest.length_eq hafter
    simp only [List.length_append, List.length_cons, List.length_nil]
    omega

end IsCutNumber

/-! ## A blank at a seam -/

section
variable {a b : Text} {w : Char} (hw : isBlank w = true)
  (hlen : a.length + 1 + b.length ≤ Position.greatest)
include hw hlen

/-- A text with a blank in it has tokens where the pieces before and behind the blank have. -/
theorem exists_scans_of_tokenize_blank {tokens : List Token}
    (h : tokenize (a ++ w :: b) = .ok tokens) :
    ∃ first second, Scans 0 a none first ∧ Scans 0 b none second ∧
      tokens.length = first.length + second.length + 1 := by
  rw [tokenize_append_blank hw hlen] at h
  cases ha : tokenize a with
  | error e =>
    rw [ha] at h
    cases h
  | ok firsts =>
    cases hb : tokenize b with
    | error e =>
      rw [ha, hb] at h
      cases h
    | ok seconds =>
      obtain ⟨first, hfirst, rfl⟩ := (tokenize_eq_ok_iff_scans (by omega)).mp ha
      obtain ⟨second, hsecond, rfl⟩ := (tokenize_eq_ok_iff_scans (by omega)).mp hb
      rw [ha, hb, joinAnswers, List.dropLast_concat] at h
      obtain rfl := Except.ok.inj h
      refine ⟨first, second, hfirst, hsecond, ?_⟩
      simp
      omega

/-- Between two tokens a blank moves those behind it. -/
theorem tokenize_blank_of_scans {before after : List Token} (ha : Scans 0 a b.head? before)
    (hb : Scans a.length b none after) :
    tokenize (a ++ w :: b) = .ok ((before ++ after ++ [Token.atEnd (a.length + b.length)]).map
      (Token.makeRoom a.length)) := by
  have hfirst : before.map (Token.makeRoom a.length) = before := by
    refine (List.map_congr_left fun t ht => ?_).trans (List.map_id before)
    have := ha.span_bounds t ht
    exact if_neg (by omega)
  have hsecond : after.map (Token.makeRoom a.length) = after.map (Token.shift 1) := by
    refine List.map_congr_left fun t ht => ?_
    have := hb.span_bounds t ht
    exact if_pos this.1
  have hlast : (Token.atEnd (a.length + b.length)).makeRoom a.length =
      Token.atEnd (a ++ w :: b).length := by
    have hle : a.length ≤ (Token.atEnd (a.length + b.length)).span.start := Nat.le_add_right _ _
    rw [Token.makeRoom, if_pos hle, Token.shift_atEnd, List.length_append, List.length_cons]
    rfl
  have hblank : Scans 0 (a ++ [w]) b.head? before :=
    (ha.of_isSafeSeam (isSafeSeam_none _)).append_blank hw _
  have hscan : Scans 0 (a ++ [w] ++ b) none (before ++ after.map (Token.shift 1)) := by
    rw [← Option.or_none (o := b.head?)] at hblank
    refine hblank.append ?_
    rw [List.length_append, List.length_singleton, Nat.zero_add]
    exact hb.shift 1
  rw [List.append_assoc, List.singleton_append] at hscan
  refine (tokenize_eq_ok_iff_scans ?_).mpr ⟨_, hscan, ?_⟩
  · rw [List.length_append, List.length_cons]
    omega
  · rw [List.map_append, List.map_append, List.map_singleton, hfirst, hsecond, hlast]

/-- Where a number is cut, a blank does not leave the tokens as they were. -/
theorem map_content_ne_of_isCutNumber {found tokens : List Token}
    (hcut : IsCutNumber 0 none a b found) (h : tokenize (a ++ w :: b) = .ok tokens) :
    tokens.map Token.content ≠
      (found ++ [Token.atEnd (a.length + b.length)]).map Token.content := by
  intro hcontent
  obtain ⟨first, second, hfirst, hsecond, hcount⟩ := exists_scans_of_tokenize_blank hw hlen h
  have hmore := hcut.length_lt hfirst hsecond
  have hsame := congrArg List.length hcontent
  rw [List.length_map, List.length_map, List.length_append, List.length_singleton] at hsame
  omega

end

/-- A seam between two tokens is inside of none. -/
theorem not_hasInside_of_scans {a b : Text} {next : Option Char} {before after : List Token}
    (ha : Scans 0 a next before) (hb : Scans a.length b none after) :
    ∀ t ∈ before ++ after ++ [Token.atEnd (a.length + b.length)], ¬t.HasInside a.length := by
  intro t ht
  unfold Token.HasInside
  simp only [List.mem_append, List.mem_singleton] at ht
  rcases ht with (ht | ht) | rfl
  · have := ha.span_bounds t ht
    omega
  · have := hb.span_bounds t ht
    omega
  · simp only [Token.atEnd]
    omega

/-! ## Top theorem -/

/-- **A blank matters inside of a token and nowhere else.** -/
theorem tokenize_insert_blank {s : Text} (hs : s.length < Position.greatest) {tokens : List Token}
    (h : tokenize s = .ok tokens) {k : Nat} (hk : k ≤ s.length) {w : Char}
    (hw : isBlank w = true) :
    ((∃ tokens', tokenize (s.take k ++ w :: s.drop k) = .ok tokens' ∧
        tokens'.map Token.content = tokens.map Token.content) ↔
      ∀ t ∈ tokens, ¬t.HasInside k) ∧
    ((∀ t ∈ tokens, ¬t.HasInside k) →
      tokenize (s.take k ++ w :: s.drop k) = .ok (tokens.map (Token.makeRoom k))) := by
  obtain ⟨found, hscan, rfl⟩ := (tokenize_eq_ok_iff_scans (Nat.le_of_lt hs)).mp h
  obtain ⟨a, b, rfl, rfl⟩ : ∃ a b, s = a ++ b ∧ k = a.length :=
    ⟨s.take k, s.drop k, (List.take_append_drop k s).symm, by rw [List.length_take]; omega⟩
  rw [List.take_left, List.drop_left]
  rw [List.length_append] at hs ⊢
  have hlen : a.length + 1 + b.length ≤ Position.greatest := by omega
  cases hscan.isSeam with
  | @between before after ha hb =>
    rw [Option.or_none] at ha
    rw [Nat.zero_add] at hb
    have hroom := tokenize_blank_of_scans hw hlen ha hb
    have hnone := not_hasInside_of_scans ha hb
    refine ⟨⟨fun _ => hnone, fun _ => ⟨_, hroom, ?_⟩⟩, fun _ => hroom⟩
    rw [List.map_map]
    exact List.map_congr_left fun t _ => t.content_makeRoom a.length
  | cut hcut =>
    obtain ⟨t, ht, hinside⟩ := hcut.exists_hasInside
    rw [Nat.zero_add] at hinside
    have hsome : ¬∀ t ∈ found ++ [Token.atEnd (a.length + b.length)], ¬t.HasInside a.length :=
      fun hnone => hnone t (List.mem_append_left _ ht) hinside
    refine ⟨iff_of_false ?_ hsome, fun hnone => absurd hnone hsome⟩
    rintro ⟨tokens', htokens', hcontent⟩
    exact map_content_ne_of_isCutNumber hw hlen hcut htokens' hcontent

/-- The signs in front of a number can be taken apart, the number cannot. -/
theorem tokenize_insert_blank_sign :
    tokenize "- -1.5".toList = .ok
        [⟨.minus, none, ⟨0, 1⟩⟩, ⟨.number, some (.ofBits 0xbff8000000000000), ⟨2, 6⟩⟩,
          Token.atEnd 6] ∧
      (¬∃ tokens', tokenize "--\n1.5".toList = .ok tokens' ∧
        tokens'.map Token.content = [(.minus, none), (.number, some (.ofBits 0xbff8000000000000)),
          (.endOfInput, none)]) ∧
      ¬∃ tokens', tokenize "--1. 5".toList = .ok tokens' ∧
        tokens'.map Token.content = [(.minus, none), (.number, some (.ofBits 0xbff8000000000000)),
          (.endOfInput, none)] := by
  have h : tokenize "--1.5".toList = .ok
      [⟨.minus, none, ⟨0, 1⟩⟩, ⟨.number, some (.ofBits 0xbff8000000000000), ⟨1, 5⟩⟩,
        Token.atEnd 5] := by
    decide +kernel
  have hs : "--1.5".toList.length < Position.greatest := by decide
  refine ⟨?_, ?_, ?_⟩
  · exact (tokenize_insert_blank hs h (k := 1) (by decide) (w := ' ') rfl).2 (by decide)
  · intro hsame
    have := (tokenize_insert_blank hs h (k := 2) (by decide) (w := '\n') rfl).1.mp hsame
    exact absurd this (by decide)
  · intro hsame
    have := (tokenize_insert_blank hs h (k := 4) (by decide) (w := ' ') rfl).1.mp hsame
    exact absurd this (by decide)

end ArithTokens
