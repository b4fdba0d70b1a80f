import ArithTokens.Proofs.ReadBack
import Mathlib.Data.List.Basic

/-!
# Listings of tokens

What is printed for tokens can be taken apart in one way only.  A comma separates the tokens and is
in none of them, a parenthesis separates a kind from its value, the names of kinds are different
words, and the text of a number is read back as that number.  Spans are not printed, and all that is
not a number is printed alike.

    readText? x.toText = some x, or none where x is not a number                (readText?_toText)
    t.toText = u.toText ↔ same kind and values that look alike                 (toText_eq_iff)
    the listings of two lists are equal ↔ the texts of their tokens are      (listText_eq_iff_map)
    the listings of two lists are equal ↔ as long, and kinds and values alike   (listText_eq_iff)
-/

namespace ArithTokens

/-! ## Definitions -/

/-- Two values look alike: both are absent, both are not numbers, or they have the same 64 bits. -/
def Token.LookAlike : Option Binary64 → Option Binary64 → Prop
  | none, none => True
  | some x, some y => (x.isNaN = true ∧ y.isNaN = true) ∨ x.bits = y.bits
  | _, _ => False

/-- Reads the text of a number, which may be infinite. -/
def Binary64.readText? (s : Text) : Option Binary64 :=
  if s = "inf".toList then some ⟨false, infinity, by decide⟩
  else if s = "-inf".toList then some ⟨true, infinity, by decide⟩
  else ofLiteral? s

/-! ## Numbers -/

namespace Binary64

theorem bits_inj {x y : Binary64} : x.bits = y.bits ↔ x = y := by
  constructor
  · obtain ⟨xneg, xmag, hx⟩ := x
    obtain ⟨yneg, ymag, hy⟩ := y
    unfold bits
    intro h
    cases xneg <;> cases yneg <;> simp_all <;> omega
  · rintro rfl
    rfl

theorem readText?_literal {s : Text} (h : IsLiteral s) : readText? s = ofLiteral? s := by
  have hne : ∀ t : Text, t.getLast?.any isDigit = false → s ≠ t := by
    rintro t ht rfl
    rw [h.getLast?_any] at ht
    cases ht
  rw [readText?, if_neg (hne _ rfl), if_neg (hne _ rfl)]

theorem readText?_toText (x : Binary64) :
    readText? x.toText = if x.isNaN then none else some x := by
  obtain ⟨neg, m, hm⟩ := x
  rcases Nat.lt_trichotomy m infinity with hlt | rfl | hgt
  · have hf : (Binary64.mk neg m hm).IsFinite := hlt
    have hnan : (Binary64.mk neg m hm).isNaN = false :=
      decide_eq_false (Nat.not_lt.mpr (Nat.le_of_lt hlt))
    rw [readText?_literal (isLiteral_toText hf), ofLiteral?_toText hf, hnan]
    rfl
  · cases neg <;> rfl
  · have hnan : (Binary64.mk neg m hm).isNaN = true := decide_eq_true hgt
    rw [toText, hnan]
    rfl

theorem toText_eq_iff {x y : Binary64} :
    x.toText = y.toText ↔ (x.isNaN = true ∧ y.isNaN = true) ∨ x.bits = y.bits := by
  constructor
  · intro h
    have hread := congrArg readText? h
    rw [readText?_toText, readText?_toText] at hread
    cases hx : x.isNaN <;> cases hy : y.isNaN <;> simp_all [bits_inj]
  · rintro (⟨hx, hy⟩ | h)
    · simp only [toText, hx, hy, if_true]
    · rw [bits_inj.mp h]

/-- The text of a number has no characters but letters, digits, a minus sign and a point. -/
theorem notMem_toText {c : Char} (hc : c.isAlphanum = false) (hm : c ≠ '-') (hp : c ≠ '.')
    (x : Binary64) : c ∉ x.toText := by
  have hword : ∀ s : Text, s.all (fun d => d = '-' ∨ d.isAlphanum) = true → c ∉ s := by
    intro s hs hmem
    have hd := List.all_eq_true.mp hs c hmem
    simp [hm, hc] at hd
  obtain ⟨neg, m, hlt⟩ := x
  rcases Nat.lt_trichotomy m infinity with hfin | rfl | hgt
  · have hdigit : isDigit c = false := (Bool.or_eq_false_iff.mp hc).2
    have hf : (Binary64.mk neg m hlt).IsFinite := hfin
    exact (isLiteral_toText hf).notMem hm hp hdigit
  · cases neg with
    | false => exact hword "inf".toList rfl
    | true => exact hword "-inf".toList rfl
  · have hnan : (Binary64.mk neg m hlt).isNaN = true := decide_eq_true hgt
    rw [toText, hnan]
    exact hword "NaN".toList rfl

end Binary64

/-! ## Kinds -/

theorem Kind.name_inj {k k' : Kind} (h : k.name = k'.name) : k = k' := by
  have hall : ∀ k ∈ all, ∀ k' ∈ all, k.name = k'.name → k = k' := by decide
  exact hall k k.mem_all k' k'.mem_all h

theorem Kind.name_ne_nil (k : Kind) : k.name ≠ [] := by
  cases k <;> decide

/-- The name of a kind is made of letters. -/
theorem Kind.notMem_name {c : Char} (hc : c.isAlpha = false) (k : Kind) : c ∉ k.name := by
  have hall : k.name.all Char.isAlpha = true := by
    cases k <;> rfl
  intro hmem
  rw [List.all_eq_true.mp hall c hmem] at hc
  cases hc

/-! ## Tokens -/

namespace Token

theorem toText_ne_nil (t : Token) : t.toText ≠ [] := by
  unfold toText
  cases t.value with
  | none => exact t.kind.name_ne_nil
  | some x => simp

/-- There is no comma in the text of a token. -/
theorem comma_notMem_toText (t : Token) : ',' ∉ t.toText := by
  have hname : ',' ∉ t.kind.name := t.kind.notMem_name rfl
  unfold toText
  cases t.value with
  | none => exact hname
  | some x =>
    have hvalue : ',' ∉ x.toText := Binary64.notMem_toText rfl (by decide) (by decide) x
    simp [hname, hvalue]

/-- The texts of two tokens are equal where their kinds are and their values look alike. -/
theorem toText_eq_iff {t u : Token} :
    t.toText = u.toText ↔ t.kind = u.kind ∧ LookAlike t.value u.value := by
  have hparen : ∀ k : Kind, '(' ∉ k.name := fun k => k.notMem_name rfl
  unfold toText
  cases ht : t.value with
  | none =>
    cases hu : u.value with
    | none => exact ⟨fun h => ⟨Kind.name_inj h, trivial⟩, fun h => congrArg Kind.name h.1⟩
    | some y =>
      refine iff_of_false (fun h => ?_) (fun h => h.2)
      apply hparen t.kind
      simp only at h
      rw [h]
      simp
  | some x =>
    cases hu : u.value with
    | none =>
      refine iff_of_false (fun h => ?_) (fun h => h.2)
      apply hparen u.kind
      simp only at h
      rw [← h]
      simp
    | some y =>
      simp only [LookAlike, List.append_assoc, List.cons_append]
      constructor
      · intro h
        obtain ⟨hname, hvalue⟩ := Text.append_cons_inj (hparen t.kind) (hparen u.kind) h
        exact ⟨Kind.name_inj hname, Binary64.toText_eq_iff.mp (List.append_cancel_right hvalue)⟩
      · rintro ⟨hkind, hvalue⟩
        rw [hkind, Binary64.toText_eq_iff.mpr hvalue]

/-! ## Lists of tokens -/

theorem listText_eq_iff_map {tokens tokens' : List Token} :
    listText tokens = listText tokens' ↔ tokens.map toText = tokens'.map toText := by
  have hpieces : ∀ tokens : List Token, ∀ s ∈ tokens.map toText, s ≠ [] ∧ ',' ∉ s := by
    intro tokens
    exact List.forall_mem_map.mpr fun t _ => ⟨t.toText_ne_nil, t.comma_notMem_toText⟩
  constructor
  · intro h
    have hinner := List.append_cancel_right (List.cons.inj h).2
    exact Text.intercalate_inj [' '] (hpieces tokens) (hpieces tokens') hinner
  · intro h
    rw [listText, listText, h]

/-- **The listings of two lists are equal if and only if the lists look alike.** -/
theorem listText_eq_iff (tokens tokens' : List Token) :
    listText tokens = listText tokens' ↔ tokens.length = tokens'.length ∧
      ∀ (i : Nat) (t t' : Token), tokens[i]? = some t → tokens'[i]? = some t' →
        t.kind = t'.kind ∧ LookAlike t.value t'.value := by
  rw [listText_eq_iff_map]
  constructor
  · intro h
    refine ⟨by simpa using congrArg List.length h, fun i t t' ht ht' => ?_⟩
    have hi := congrArg (·[i]?) h
    simp only [List.getElem?_map, ht, ht', Option.map_some, Option.some.injEq] at hi
    exact toText_eq_iff.mp hi
  · rintro ⟨hlen, hall⟩
    apply List.ext_getElem
    · simpa using hlen
    · intro i hi hi'
      rw [List.length_map] at hi hi'
      rw [List.getElem_map, List.getElem_map]
      have ht := List.getElem?_eq_getElem hi
      have ht' := List.getElem?_eq_getElem hi'
      exact toText_eq_iff.mpr (hall i _ _ ht ht')

-- the signs of zeros are told apart, those of patterns that are not numbers are not
example : (Token.mk .plus (some (.ofBits 0x8000000000000000)) ⟨0, 1⟩).toText = "Plus(-0)".toList ∧
    (Token.mk .plus (some (.ofBits 0)) ⟨0, 1⟩).toText = "Plus(0)".toList ∧
    (Token.mk .plus (some (.ofBits 0xfff8000000000000)) ⟨0, 1⟩).toText = "Plus(NaN)".toList := by
  decide +kernel

end Token

end ArithTokens
