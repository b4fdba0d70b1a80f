import ArithTokens.Proofs.BegunCharacters
import Mathlib.Data.List.Induction
import Mathlib.Data.Nat.Find

/-!
# Maximal subparts

What decoding comes to, said without a decoder.  Octets are taken apart from the front: where the
octets of a character stand, they are that character; where none stands, the longest beginning of
one, or a single octet if there is no such beginning, is an ill-formed part.  There is one way to do
so, and the decoder finds it.

    IsDecoding octets found ↔ found = decode octets                            (isDecoding_iff)
    isWellFormed octets = true ↔ ∃ s, octets = encode s                      (isWellFormed_iff)

An octet of ASCII is a part by itself, so what stands before it and what stands behind it are
decoded by themselves, and its character comes from nothing else.

    x is ASCII → decode (a ++ x :: b) = decode a ++ some x :: decode b   (decode_append_ascii)
    x is ASCII, its character is in the text → x is an octet             (mem_of_mem_textOf)
-/

namespace ArithTokens.Utf8

/-! ## Definitions -/

def encode (s : Text) : List UInt8 :=
  s.flatMap String.utf8EncodeChar

/-- The part in front of `rest` is ill-formed, and all that one replacement stands for. -/
structure IsIllFormedPart (part rest : List UInt8) : Prop where
  ne_nil : part ≠ []
  /-- No character stands there. -/
  no_character : ∀ c, ¬String.utf8EncodeChar c <+: part ++ rest
  subpart : part.length = 1 ∨ IsBeginning part
  maximal : ∀ longer, longer <+: part ++ rest → part.length < longer.length → ¬IsBeginning longer

/-- The characters and the ill-formed parts of octets, in order; `none` stands for an ill-formed
part. -/
inductive IsDecoding : List UInt8 → List (Option Char) → Prop
  | nil : IsDecoding [] []
  | character {c : Char} {rest : List UInt8} {found : List (Option Char)} :
      IsDecoding rest found → IsDecoding (String.utf8EncodeChar c ++ rest) (some c :: found)
  | illFormed {part rest : List UInt8} {found : List (Option Char)} :
      IsIllFormedPart part rest → IsDecoding rest found →
      IsDecoding (part ++ rest) (none :: found)

/-! ## Runs of the decoder -/

namespace Decoder

theorem feed_concat (d : Decoder) (octets : List UInt8) (x : UInt8) :
    d.feed (octets ++ [x]) = (d.feed octets).push x := by
  rw [feed_append]
  rfl

/-- The beginning of a character is the character, or has begun it. -/
theorem feed_beginning (found : List (Option Char)) {octets : List UInt8} (h : IsBeginning octets)
    (hne : octets ≠ []) :
    (∃ c, String.utf8EncodeChar c = octets ∧
        (Decoder.mk none found).feed octets = ⟨none, some c :: found⟩) ∨
      ∃ b : Begun, b.IsOf octets ∧ (Decoder.mk none found).feed octets = ⟨some b, found⟩ := by
  induction octets using List.reverseRecOn with
  | nil => exact absurd rfl hne
  | append_singleton front x ih =>
    rw [feed_concat]
    by_cases hf : front = []
    · subst hf
      rcases lead_cases found x with hc | hb | ⟨hn, -⟩
      · exact Or.inl hc
      · exact Or.inr hb
      · exact absurd h hn
    · obtain ⟨c, hc⟩ := h
      have hfront : front <+: String.utf8EncodeChar c := (List.prefix_append front [x]).trans hc
      rcases ih ⟨c, hfront⟩ hf with ⟨d, hd, -⟩ | ⟨b, hb, hfeed⟩
      · -- a whole character is no beginning of a longer one
        have hcd : d = c := eq_of_prefix (hd ▸ hfront)
        have hlen := hc.length_le
        rw [← hcd, hd, List.length_append, List.length_singleton] at hlen
        omega
      · rw [hfeed]
        rcases extend_cases found hb x with hc' | hb' | ⟨hn, -⟩
        · exact Or.inl hc'
        · exact Or.inr hb'
        · exact absurd ⟨c, hc⟩ hn

theorem feed_character (found : List (Option Char)) (c : Char) :
    (Decoder.mk none found).feed (String.utf8EncodeChar c) = ⟨none, some c :: found⟩ := by
  have hne := utf8EncodeChar_ne_nil c
  rcases feed_beginning found ⟨c, List.prefix_rfl⟩ hne with ⟨d, hd, hfeed⟩ | ⟨b, hb, -⟩
  · have hdc : d = c := eq_of_prefix (hd ▸ List.prefix_rfl)
    rw [hfeed, hdc]
  · have hlen := congrArg List.length (hb.eq_append c (hb.covers c List.prefix_rfl))
    have hm := hb.missing_pos
    rw [List.length_append, length_further] at hlen
    omega

/-- An ill-formed part is found as one, and what follows is decoded by itself. -/
theorem finish_feed_illFormed (found : List (Option Char)) {part rest : List UInt8}
    (h : IsIllFormedPart part rest) : ((Decoder.mk none found).feed (part ++ rest)).finish =
      ((Decoder.mk none (none :: found)).feed rest).finish := by
  by_cases hb : IsBeginning part
  · rcases feed_beginning found hb h.ne_nil with ⟨c, hc, -⟩ | ⟨b, hb, hfeed⟩
    · exact absurd (hc ▸ List.prefix_append part rest) (h.no_character c)
    · rw [feed_append, hfeed]
      cases rest with
      | nil => rfl
      | cons x rest =>
        have hlonger : ¬IsBeginning (part ++ [x]) := by
          apply h.maximal
          · exact List.prefix_append_right_inj part |>.mpr ⟨rest, rfl⟩
          · simp
        show ((extend found b x.toNat).feed rest).finish =
          ((lead (none :: found) x.toNat).feed rest).finish
        rcases extend_cases found hb x with ⟨c, hc, -⟩ | ⟨b', hb', -⟩ | ⟨-, hlead⟩
        · exact absurd ⟨c, hc ▸ List.prefix_rfl⟩ hlonger
        · exact absurd hb'.isBeginning hlonger
        · rw [hlead]
  · obtain ⟨x, rfl⟩ := List.length_eq_one_iff.mp (h.subpart.resolve_right hb)
    show ((lead found x.toNat).feed rest).finish = _
    rcases lead_cases found x with ⟨c, hc, -⟩ | ⟨b, hb', -⟩ | ⟨-, hlead⟩
    · exact absurd ⟨c, hc ▸ List.prefix_rfl⟩ hb
    · exact absurd hb'.isBeginning hb
    · rw [hlead]

end Decoder

/-! ## Decodings -/

theorem IsDecoding.finish_feed {octets : List UInt8} {pieces : List (Option Char)}
    (h : IsDecoding octets pieces) (found : List (Option Char)) :
    ((Decoder.mk none found).feed octets).finish = found.reverse ++ pieces := by
  induction h generalizing found with
  | nil => exact (List.append_nil _).symm
  | @character c rest pieces _ ih =>
    rw [Decoder.feed_append, Decoder.feed_character, ih, List.reverse_cons, List.append_assoc,
      List.singleton_append]
  | illFormed hpart _ ih =>
    rw [Decoder.finish_feed_illFormed found hpart, ih, List.reverse_cons, List.append_assoc,
      List.singleton_append]

theorem IsDecoding.eq_decode {octets : List UInt8} {found : List (Option Char)}
    (h : IsDecoding octets found) : found = decode octets :=
  (h.finish_feed []).symm

open Classical in
/-- Where no character stands, an ill-formed part does: the longest that can be. -/
theorem exists_isIllFormedPart {octets : List UInt8} (hne : octets ≠ [])
    (h : ∀ c, ¬String.utf8EncodeChar c <+: octets) :
    ∃ part rest, octets = part ++ rest ∧ IsIllFormedPart part rest := by
  have hlen : 1 ≤ octets.length := List.length_pos_iff.mpr hne
  let fits := fun n => n = 1 ∨ IsBeginning (octets.take n)
  let n := Nat.findGreatest fits octets.length
  have hn : fits n := Nat.findGreatest_spec hlen (Or.inl rfl)
  have hpos : 1 ≤ n := Nat.le_findGreatest hlen (Or.inl rfl)
  have hle : n ≤ octets.length := Nat.findGreatest_le octets.length
  have htake : (octets.take n).length = n := List.length_take_of_le hle
  refine ⟨octets.take n, octets.drop n, (List.take_append_drop n octets).symm, ?_⟩
  constructor
  · intro hnil
    rw [hnil, List.length_nil] at htake
    omega
  · rwa [List.take_append_drop]
  · rcases hn with hone | hbeginning
    · exact Or.inl (htake.trans hone)
    · exact Or.inr hbeginning
  · intro longer hlonger hlt hb
    rw [List.take_append_drop] at hlonger
    rw [htake] at hlt
    refine Nat.findGreatest_is_greatest hlt hlonger.length_le (Or.inr ?_)
    rwa [← List.prefix_iff_eq_take.mp hlonger]

theorem exists_isDecoding (octets : List UInt8) : ∃ found, IsDecoding octets found := by
  induction hn : octets.length using Nat.strongRecOn generalizing octets with
  | ind n ih =>
    have hrest : ∀ part rest : List UInt8, octets = part ++ rest → part ≠ [] →
        ∃ found, IsDecoding rest found := by
      intro part rest he hp
      refine ih rest.length ?_ rest rfl
      have hpos := List.length_pos_iff.mpr hp
      rw [← hn, he, List.length_append]
      omega
    by_cases hne : octets = []
    · exact ⟨[], hne ▸ .nil⟩
    by_cases hc : ∃ c, String.utf8EncodeChar c <+: octets
    · obtain ⟨c, rest, rfl⟩ := hc
      obtain ⟨found, hfound⟩ := hrest _ _ rfl (utf8EncodeChar_ne_nil c)
      exact ⟨_, .character hfound⟩
    · obtain ⟨part, rest, rfl, hpart⟩ := exists_isIllFormedPart hne (not_exists.mp hc)
      obtain ⟨found, hfound⟩ := hrest _ _ rfl hpart.ne_nil
      exact ⟨_, .illFormed hpart hfound⟩

/-- There is one way to decode octets, and the decoder finds it. -/
theorem isDecoding_iff {octets : List UInt8} {found : List (Option Char)} :
    IsDecoding octets found ↔ found = decode octets := by
  constructor
  · exact IsDecoding.eq_decode
  · rintro rfl
    obtain ⟨found, h⟩ := exists_isDecoding octets
    exact h.eq_decode ▸ h

theorem isDecoding_decode (octets : List UInt8) : IsDecoding octets (decode octets) :=
  isDecoding_iff.mpr rfl

theorem textOf_ne_nil {octets : List UInt8} (h : octets ≠ []) : textOf octets ≠ [] := by
  intro ht
  have hnil : decode octets = [] := List.map_eq_nil_iff.mp ht
  have hd := isDecoding_decode octets
  rw [hnil] at hd
  cases hd
  exact h rfl

theorem isDecoding_encode (s : Text) : IsDecoding (encode s) (s.map some) := by
  induction s with
  | nil => exact .nil
  | cons c s ih => exact .character ih

theorem IsDecoding.eq_encode {octets : List UInt8} {found : List (Option Char)}
    (h : IsDecoding octets found) (hf : found.all Option.isSome = true) :
    ∃ s, octets = encode s := by
  induction h with
  | nil => exact ⟨[], rfl⟩
  | @character c rest found _ ih =>
    obtain ⟨s, rfl⟩ := ih hf
    exact ⟨c :: s, rfl⟩
  | illFormed _ _ _ => cases hf

/-- Octets have no ill-formed part if they are the octets of a text. -/
theorem isWellFormed_iff {octets : List UInt8} :
    isWellFormed octets = true ↔ ∃ s, octets = encode s := by
  constructor
  · exact (isDecoding_decode octets).eq_encode
  · rintro ⟨s, rfl⟩
    unfold isWellFormed
    rw [← (isDecoding_encode s).eq_decode]
    simp

/-! ## Octets of ASCII -/

theorem le_of_mem_further {n count : Nat} {x : UInt8} (h : x ∈ further n count) :
    0x80 ≤ x.toNat := by
  induction count with
  | zero => cases h
  | succ count ih =>
    rcases List.mem_cons.mp h with rfl | h
    · rw [toNat_further]
      exact Nat.le_add_right _ _
    · exact ih h

/-- An octet of ASCII is no part of a longer character. -/
theorem utf8EncodeChar_of_mem {x : UInt8} {c : Char} (hx : x.toNat < 0x80)
    (h : x ∈ String.utf8EncodeChar c) : String.utf8EncodeChar c = [x] := by
  rw [utf8EncodeChar_eq] at h ⊢
  rcases List.mem_cons.mp h with he | hm
  · have hlead : leadOf c.toNat = x.toNat := by
      rw [he, UInt8.toNat_ofNat_of_lt' (leadOf_lt c)]
    rw [hlead, furtherCount, if_pos hx, UInt8.ofNat_toNat]
    rfl
  · have := le_of_mem_further hm
    omega

section
variable {x : UInt8} (hx : x.toNat < 0x80)
include hx

theorem not_isBeginning_concat {octets : List UInt8} (hne : octets ≠ []) :
    ¬IsBeginning (octets ++ [x]) := by
  rintro ⟨c, hc⟩
  have hmem : x ∈ String.utf8EncodeChar c := hc.subset (by simp)
  have hlen := hc.length_le
  have hpos := List.length_pos_iff.mpr hne
  rw [utf8EncodeChar_of_mem hx hmem, List.length_append, List.length_singleton] at hlen
  omega

/-- A beginning of a character does not reach behind an octet of ASCII. -/
theorem prefix_of_isBeginning {octets front rest : List UInt8} (hne : front ≠ [])
    (hb : IsBeginning octets) (h : octets <+: front ++ x :: rest) : octets <+: front := by
  have hconcat : front ++ [x] <+: front ++ x :: rest :=
    (List.prefix_append_right_inj front).mpr ⟨rest, rfl⟩
  rcases List.prefix_or_prefix_of_prefix h hconcat with hle | hle
  · rcases List.prefix_concat_iff.mp hle with rfl | hle
    · exact absurd hb (not_isBeginning_concat hx hne)
    · exact hle
  · obtain ⟨c, hc⟩ := hb
    exact absurd ⟨c, hle.trans hc⟩ (not_isBeginning_concat hx hne)

theorem IsIllFormedPart.append_ascii {part rest : List UInt8} (h : IsIllFormedPart part rest)
    (more : List UInt8) : IsIllFormedPart part (rest ++ x :: more) := by
  have hne : part ++ rest ≠ [] := List.append_ne_nil_of_left_ne_nil h.ne_nil rest
  refine ⟨h.ne_nil, ?_, h.subpart, ?_⟩
  · intro c hc
    rw [← List.append_assoc] at hc
    exact h.no_character c (prefix_of_isBeginning hx hne ⟨c, List.prefix_rfl⟩ hc)
  · intro longer hlonger hlt hb
    rw [← List.append_assoc] at hlonger
    exact h.maximal longer (prefix_of_isBeginning hx hne hb hlonger) hlt hb

theorem IsDecoding.append_ascii {front rest : List UInt8} {found more : List (Option Char)}
    (h : IsDecoding front found) (hr : IsDecoding rest more) :
    IsDecoding (front ++ x :: rest) (found ++ some (Char.ofNat x.toNat) :: more) := by
  induction h with
  | nil =>
    have hchar : IsDecoding (String.utf8EncodeChar (Char.ofNat x.toNat) ++ rest) _ := .character hr
    rwa [utf8EncodeChar_ascii hx] at hchar
  | character _ ih =>
    rw [List.append_assoc]
    exact ih.character
  | illFormed hpart _ ih =>
    rw [List.append_assoc]
    exact .illFormed (hpart.append_ascii hx rest) ih

/-- What stands before an octet of ASCII and what stands behind it are decoded by themselves. -/
theorem decode_append_ascii (front rest : List UInt8) : decode (front ++ x :: rest) =
    decode front ++ some (Char.ofNat x.toNat) :: decode rest :=
  ((isDecoding_decode front).append_ascii hx (isDecoding_decode rest)).eq_decode.symm

theorem textOf_append_ascii (front rest : List UInt8) :
    textOf (front ++ x :: rest) = textOf front ++ Char.ofNat x.toNat :: textOf rest := by
  unfold textOf
  rw [decode_append_ascii hx, List.map_append, List.map_cons]
  rfl

end

/-- Octets of ASCII are decoded one by one. -/
theorem textOf_ascii {octets : List UInt8} (h : ∀ x ∈ octets, x.toNat < 0x80) :
    textOf octets = octets.map fun x => Char.ofNat x.toNat := by
  induction octets with
  | nil => rfl
  | cons x octets ih =>
    obtain ⟨hx, hoctets⟩ := List.forall_mem_cons.mp h
    rw [List.map_cons, ← ih hoctets]
    exact textOf_append_ascii hx [] octets

/-- The octets of a character that is found are there. -/
theorem IsDecoding.subset {octets : List UInt8} {found : List (Option Char)} {c : Char}
    (h : IsDecoding octets found) (hc : some c ∈ found) : String.utf8EncodeChar c ⊆ octets := by
  induction h with
  | nil => cases hc
  | character _ ih =>
    rcases List.mem_cons.mp hc with heq | hc
    · cases heq
      exact List.subset_append_left _ _
    · exact List.Subset.trans (ih hc) (List.subset_append_right _ _)
  | illFormed _ _ ih =>
    rcases List.mem_cons.mp hc with heq | hc
    · cases heq
    · exact List.Subset.trans (ih hc) (List.subset_append_right _ _)

/-- A last character stands at the end. -/
theorem IsDecoding.exists_eq_append {octets : List UInt8} {found : List (Option Char)} {c : Char}
    (h : IsDecoding octets found) (hc : found.getLast? = some (some c)) :
    ∃ front, octets = front ++ String.utf8EncodeChar c := by
  induction h with
  | nil => cases hc
  | @character d rest found hrest ih =>
    by_cases hf : found = []
    · subst hf
      cases hrest
      cases hc
      exact ⟨[], List.append_nil _⟩
    · rw [List.getLast?_cons_of_ne_nil hf] at hc
      obtain ⟨front, rfl⟩ := ih hc
      exact ⟨_, (List.append_assoc _ front _).symm⟩
  | @illFormed part rest found _ hrest ih =>
    by_cases hf : found = []
    · subst hf
      cases hc
    · rw [List.getLast?_cons_of_ne_nil hf] at hc
      obtain ⟨front, rfl⟩ := ih hc
      exact ⟨_, (List.append_assoc _ front _).symm⟩

section
variable {octets : List UInt8} {x : UInt8} (hx : x.toNat < 0x80)
include hx

/-- No replacement is in ASCII. -/
theorem eq_some_of_getD_eq {piece : Option Char}
    (h : piece.getD replacement = Char.ofNat x.toNat) : piece = some (Char.ofNat x.toNat) := by
  have hcode : (Char.ofNat x.toNat).toNat = x.toNat := toNat_ofNat (Or.inl (by omega))
  cases piece with
  | none =>
    have hfffd : x.toNat = 0xfffd := hcode.symm.trans (congrArg Char.toNat h.symm)
    omega
  | some c => exact congrArg some h

/-- A character of ASCII comes from its octet only. -/
theorem mem_of_mem_textOf (h : Char.ofNat x.toNat ∈ textOf octets) : x ∈ octets := by
  obtain ⟨piece, hpiece, hchar⟩ := List.mem_map.mp h
  rw [eq_some_of_getD_eq hx hchar] at hpiece
  have hsubset := (isDecoding_decode octets).subset hpiece
  rw [utf8EncodeChar_ascii hx] at hsubset
  exact hsubset List.mem_cons_self

/-- An octet of ASCII is the last octet if its character is the last character. -/
theorem getLast?_textOf_iff :
    (textOf octets).getLast? = some (Char.ofNat x.toNat) ↔ octets.getLast? = some x := by
  constructor
  · intro h
    unfold textOf at h
    rw [List.getLast?_map, Option.map_eq_some_iff] at h
    obtain ⟨piece, hlast, hchar⟩ := h
    rw [eq_some_of_getD_eq hx hchar] at hlast
    obtain ⟨front, rfl⟩ := (isDecoding_decode octets).exists_eq_append hlast
    rw [utf8EncodeChar_ascii hx, List.getLast?_concat]
  · intro h
    obtain ⟨front, rfl⟩ := List.getLast?_eq_some_iff.mp h
    rw [textOf_append_ascii hx]
    exact List.getLast?_concat

end

end ArithTokens.Utf8
