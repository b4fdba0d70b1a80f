import ArithTokens.Proofs.DecodedLines

/-!
# Addresses

The place of a position, said by the lines of the text and not by a search: the lines before the
place and the column in its line make up the position, and the column is that of a character, or
the end of the last line.  The lines in turn are said without cutting the text.  Line and column
together are an address: later positions have greater addresses, line first.

    Lines.IsCut t xs lines ↔ lines = Lines.cut t xs                               (isCut_iff)
    Place.find? s p = some place ↔ Place.IsAt s p place                    (find?_eq_some_iff)
    p ≤ s.length → ∃ place, Place.IsAt s p place                           (exists_isAt)
    Place.find? s p = some place → line and column address p           (isAddress_of_find?)
-/

namespace ArithTokens

/-! ## Lines -/

namespace Lines
variable {α : Type}

/-- The lines of a sequence, each with its terminator, said without cutting it. -/
structure IsCut (t : α) (xs : List α) (lines : List (List α)) : Prop where
  flatten_eq : lines.flatten = xs
  ne_nil : ∀ line ∈ lines, line ≠ []
  /-- A terminator ends its line. -/
  notMem_dropLast : ∀ line ∈ lines, t ∉ line.dropLast
  /-- Only the last line can be without one. -/
  ended : ∀ line ∈ lines.dropLast, line.getLast? = some t

theorem IsCut.tail {t : α} {xs line : List α} {more : List (List α)}
    (h : IsCut t xs (line :: more)) (hm : more ≠ []) :
    line.getLast? = some t ∧ IsCut t more.flatten more := by
  have hended := h.ended
  rw [List.dropLast_cons_of_ne_nil hm] at hended
  obtain ⟨hline, hmore⟩ := List.forall_mem_cons.mp hended
  exact ⟨hline, rfl, (List.forall_mem_cons.mp h.ne_nil).2,
    (List.forall_mem_cons.mp h.notMem_dropLast).2, hmore⟩

variable [DecidableEq α]

/-- Only the last line can be without a terminator. -/
theorem getLast?_of_cut_eq {t : α} {xs : List α} {before : List (List α)} {line : List α}
    {after : List (List α)} (h : cut t xs = before ++ line :: after) :
    ∀ l ∈ before, l.getLast? = some t := by
  induction xs generalizing before with
  | nil => simp [cut_nil] at h
  | cons x xs ih =>
    intro l hl
    rw [cut_cons] at h
    cases hc : cut t xs with
    | nil =>
      rw [hc, attach] at h
      cases before with
      | nil => cases hl
      | cons b before => simp at h
    | cons first more =>
      rw [hc, attach] at h
      cases before with
      | nil => cases hl
      | cons b before =>
        split at h
        · next hx =>
          simp only [List.cons_append, List.cons.injEq] at h
          obtain ⟨rfl, h⟩ := h
          rcases List.mem_cons.mp hl with rfl | hl
          · rw [hx, List.getLast?_singleton]
          · exact ih (hc.trans h) l hl
        · simp only [List.cons_append, List.cons.injEq] at h
          obtain ⟨rfl, rfl⟩ := h
          have hfirst := @ih (first :: before) hc
          rcases List.mem_cons.mp hl with rfl | hl
          · have hlast := hfirst first List.mem_cons_self
            rw [List.getLast?_cons, hlast, Option.getD_some]
          · exact hfirst l (List.mem_cons_of_mem first hl)

theorem isCut_cut (t : α) (xs : List α) : IsCut t xs (cut t xs) where
  flatten_eq := flatten_cut t xs
  ne_nil := ne_nil_of_mem_cut t xs
  notMem_dropLast := by
    intro line hline
    obtain ⟨body, hbody, rfl | rfl⟩ := eq_concat_or_notMem t xs line hline
    · rwa [List.dropLast_concat]
    · exact fun hm => hbody (List.dropLast_subset _ hm)
  ended := by
    intro line hline
    rcases List.eq_nil_or_concat (cut t xs) with hnil | ⟨before, last, hlast⟩
    · rw [hnil] at hline
      cases hline
    · rw [List.concat_eq_append] at hlast
      rw [hlast, List.dropLast_concat] at hline
      exact getLast?_of_cut_eq hlast line hline

/-- A sequence has its lines in one way only. -/
theorem IsCut.eq_cut {t : α} {xs : List α} {lines : List (List α)} (h : IsCut t xs lines) :
    lines = cut t xs := by
  induction lines generalizing xs with
  | nil =>
    obtain rfl := h.flatten_eq
    rfl
  | cons line more ih =>
    obtain rfl : line ++ more.flatten = xs := h.flatten_eq
    have hbody := h.notMem_dropLast line List.mem_cons_self
    have hn := h.ne_nil line List.mem_cons_self
    obtain ⟨body, last, rfl⟩ : ∃ body last, line = body ++ [last] :=
      ⟨_, _, (List.dropLast_concat_getLast hn).symm⟩
    rw [List.dropLast_concat] at hbody
    by_cases hm : more = []
    · subst hm
      rw [List.flatten_nil, List.append_nil]
      by_cases hlast : last = t
      · subst hlast
        exact (cut_append_terminator hbody []).symm
      · have hnot : t ∉ body ++ [last] := by
          rw [List.mem_append, List.mem_singleton, not_or]
          exact ⟨hbody, Ne.symm hlast⟩
        exact (cut_of_notMem hnot hn).symm
    · obtain ⟨hlast, hmore⟩ := h.tail hm
      rw [List.getLast?_concat, Option.some.injEq] at hlast
      subst hlast
      rw [List.append_assoc, List.singleton_append, cut_append_terminator hbody, ← ih hmore]

theorem isCut_iff {t : α} {xs : List α} {lines : List (List α)} :
    IsCut t xs lines ↔ lines = cut t xs := by
  constructor
  · exact IsCut.eq_cut
  · rintro rfl
    exact isCut_cut t xs

end Lines

namespace Place

theorem linesOf_ne_nil (s : Text) : linesOf s ≠ [] := by
  unfold linesOf
  split
  · simp
  · next hs =>
    intro h
    rw [Lines.cut_eq_nil_iff] at h
    exact hs (by rw [h]; rfl)

theorem flatten_linesOf (s : Text) : (linesOf s).flatten = s := by
  unfold linesOf
  split
  · next hs =>
    rw [List.isEmpty_iff.mp hs]
    rfl
  · exact Lines.flatten_cut '\n' s

theorem getLast?_of_linesOf_eq {s : Text} {before : List Text} {line : Text} {after : List Text}
    (h : linesOf s = before ++ line :: after) : ∀ l ∈ before, l.getLast? = some '\n' := by
  unfold linesOf at h
  split at h
  · cases before with
    | nil => simp
    | cons b before => simp at h
  · exact Lines.getLast?_of_cut_eq h

/-- The lines of a text; a text without characters has one empty line. -/
def IsLines (s : Text) (lines : List Text) : Prop :=
  (s = [] ∧ lines = [[]]) ∨ (s ≠ [] ∧ Lines.IsCut '\n' s lines)

theorem isLines_iff {s : Text} {lines : List Text} : IsLines s lines ↔ lines = linesOf s := by
  unfold IsLines linesOf
  by_cases hs : s = []
  · subst hs
    simp
  · have hn : ¬s.isEmpty = true := by simpa using hs
    rw [if_neg hn, Lines.isCut_iff]
    simp [hs]

/-- A line feed ends its line. -/
theorem lineFeed_of_mem_linesOf {s line : Text} (h : line ∈ linesOf s) :
    ∃ body, '\n' ∉ body ∧ (line = body ++ ['\n'] ∨ line = body) := by
  unfold linesOf at h
  split at h
  · obtain rfl := List.mem_singleton.mp h
    exact ⟨[], by simp, Or.inr rfl⟩
  · exact Lines.eq_concat_or_notMem '\n' s line h

/-! ## Addresses -/

/-- The position is in the line and the column of the place: that of a character there, or the end
of the last line. -/
def IsAt (s : Text) (position : Nat) (place : Place) : Prop :=
  ∃ before after, linesOf s = before ++ place.text :: after ∧ place.line = before.length + 1 ∧
    position = before.flatten.length + place.column ∧
    (place.column < place.text.length ∨ after = [] ∧ place.column = place.text.length)

/-- The address of a position: the lines before the line of the place and the column make it up, and
the column is that of a character of the line, unless the position is the end of the text, which is
the end of the last line. -/
def IsAddress (s : Text) (position : Nat) (place : Place) : Prop :=
  ∃ before after, IsLines s (before ++ place.text :: after) ∧ place.line = before.length + 1 ∧
    before.flatten.length + place.column = position ∧
    (position ≠ s.length → place.column < place.text.length) ∧
    (position = s.length → after = [] ∧ place.column = place.text.length)

theorem among?_append_cons (n : Nat) (before : List Text) (text : Text) {after : List Text}
    {column : Nat} (h : column < text.length ∨ after = [] ∧ column = text.length) :
    among? n (before.flatten.length + column) (before ++ text :: after) =
      some ⟨n + before.length, text, column⟩ := by
  induction before generalizing n with
  | nil =>
    show among? n (0 + column) (text :: after) = _
    rw [Nat.zero_add, among?]
    rcases h with h | ⟨rfl, h⟩
    · rw [if_pos h]
      rfl
    · rw [if_neg (by omega), if_pos List.isEmpty_nil, if_pos h]
      rfl
  | cons line before ih =>
    have hlen : (line :: before).flatten.length + column =
        line.length + (before.flatten.length + column) := by
      rw [List.flatten_cons, List.length_append, Nat.add_assoc]
    have hmore : ¬(before ++ text :: after).isEmpty = true := by simp
    rw [hlen, List.cons_append, among?, if_neg (by omega), if_neg hmore, Nat.add_sub_cancel_left,
      ih (n + 1), List.length_cons]
    congr 2
    omega

/-- Behind the end there are no places. -/
theorem among?_of_length_lt (n : Nat) {lines : List Text} {p : Nat}
    (hp : lines.flatten.length < p) : among? n p lines = none := by
  induction lines generalizing n p with
  | nil => rfl
  | cons line lines ih =>
    rw [List.flatten_cons, List.length_append] at hp
    rw [among?, if_neg (by omega)]
    split
    · rw [if_neg (by omega)]
    · exact ih (n + 1) (by omega)

/-- A text has lines up to each of its positions. -/
theorem exists_split {lines : List Text} (hn : lines ≠ []) {p : Nat}
    (hp : p ≤ lines.flatten.length) :
    ∃ before text after column, lines = before ++ text :: after ∧
      p = before.flatten.length + column ∧
      (column < text.length ∨ after = [] ∧ column = text.length) := by
  induction lines generalizing p with
  | nil => exact absurd rfl hn
  | cons line lines ih =>
    rw [List.flatten_cons, List.length_append] at hp
    by_cases hlt : p < line.length
    · exact ⟨[], line, lines, p, rfl, by simp, Or.inl hlt⟩
    by_cases hmore : lines = []
    · subst hmore
      have : p = line.length := by
        simp only [List.flatten_nil, List.length_nil] at hp
        omega
      exact ⟨[], line, [], p, rfl, by simp, Or.inr ⟨rfl, this⟩⟩
    · obtain ⟨before, text, after, column, rfl, hcolumn, hend⟩ :=
        ih hmore (p := p - line.length) (by omega)
      refine ⟨line :: before, text, after, column, rfl, ?_, hend⟩
      rw [List.flatten_cons, List.length_append]
      omega

theorem exists_isAt {s : Text} {p : Nat} (hp : p ≤ s.length) : ∃ place, IsAt s p place := by
  rw [← flatten_linesOf s] at hp
  obtain ⟨before, text, after, column, hlines, hcolumn, hend⟩ := exists_split (linesOf_ne_nil s) hp
  exact ⟨⟨before.length + 1, text, column⟩, before, after, hlines, rfl, hcolumn, hend⟩

namespace IsAt
variable {s : Text} {p : Nat} {place : Place} (h : IsAt s p place)
include h

theorem find?_eq_some : find? s p = some place := by
  obtain ⟨before, after, hlines, hline, hp, hend⟩ := h
  unfold find?
  rw [hlines, hp, among?_append_cons 1 before place.text hend, Nat.add_comm, ← hline]

theorem mem_linesOf : place.text ∈ linesOf s := by
  obtain ⟨before, after, hlines, -⟩ := h
  rw [hlines]
  simp

theorem column_le : place.column ≤ place.text.length := by
  obtain ⟨-, -, -, -, -, hlt | ⟨-, he⟩⟩ := h
  · exact Nat.le_of_lt hlt
  · exact Nat.le_of_eq he

theorem position_le : p ≤ s.length := by
  have hle := h.column_le
  obtain ⟨before, after, hlines, -, rfl, -⟩ := h
  rw [← flatten_linesOf s, hlines, List.flatten_append, List.flatten_cons, List.length_append,
    List.length_append]
  omega

/-- The line of a place, in the text. -/
theorem exists_append : ∃ before after, s = before ++ (place.text ++ after) ∧
    p = before.length + place.column ∧ (place.column < place.text.length ∨ after = []) ∧
    ∀ c ∈ before.getLast?, c = '\n' := by
  obtain ⟨before, after, hlines, -, hp, hend⟩ := h
  refine ⟨before.flatten, after.flatten, ?_, hp, ?_, ?_⟩
  · rw [← flatten_linesOf s, hlines, List.flatten_append, List.flatten_cons]
  · rcases hend with hlt | ⟨rfl, -⟩
    · exact Or.inl hlt
    · exact Or.inr rfl
  · -- the last line before the place ends in its line feed
    intro c hc
    have hfeed := getLast?_of_linesOf_eq hlines
    rcases List.eq_nil_or_concat before with rfl | ⟨init, last, rfl⟩
    · cases hc
    · have hlast : last.getLast? = some '\n' := hfeed last (by simp)
      rw [List.concat_eq_append, List.flatten_append, List.flatten_singleton,
        List.getLast?_append, hlast] at hc
      cases hc
      rfl

/-- The character in the column of the line is that at the position. -/
theorem getElem?_column : place.text[place.column]? = s[p]? := by
  obtain ⟨before, after, rfl, rfl, hend, -⟩ := h.exists_append
  rw [List.getElem?_append_right (Nat.le_add_right _ _), Nat.add_sub_cancel_left]
  rcases hend with hlt | rfl
  · rw [List.getElem?_append_left hlt]
  · rw [List.append_nil]

/-- A character of the text that is no line feed is in the line of the position behind it. -/
theorem getElem?_column_sub_one {q : Nat} (hq : p = q + 1) {c : Char} (hc : s[q]? = some c)
    (hn : c ≠ '\n') : 0 < place.column ∧ place.text[place.column - 1]? = some c := by
  have hle := h.column_le
  obtain ⟨before, after, rfl, rfl, -, hfeed⟩ := h.exists_append
  have hpos : 0 < place.column := by
    apply Nat.pos_of_ne_zero
    intro hzero
    have hlast : q = before.length - 1 := by omega
    rw [List.getElem?_append_left (by omega), hlast, ← List.getLast?_eq_getElem?] at hc
    exact hn (hfeed c hc)
  refine ⟨hpos, ?_⟩
  have hindex : q = before.length + (place.column - 1) := by omega
  rwa [hindex, List.getElem?_append_right (Nat.le_add_right _ _), Nat.add_sub_cancel_left,
    List.getElem?_append_left (by omega)] at hc

end IsAt

theorem find?_eq_some_iff {s : Text} {p : Nat} {place : Place} :
    find? s p = some place ↔ IsAt s p place := by
  constructor
  · intro h
    by_cases hp : p ≤ s.length
    · obtain ⟨place', hplace⟩ := exists_isAt hp
      rw [hplace.find?_eq_some] at h
      cases h
      exact hplace
    · unfold find? at h
      rw [among?_of_length_lt 1 (by rw [flatten_linesOf]; omega)] at h
      cases h
  · exact IsAt.find?_eq_some

/-! ## Top theorem -/

theorem IsAt.isAddress {s : Text} {p : Nat} {place : Place} (h : IsAt s p place) :
    IsAddress s p place := by
  obtain ⟨before, after, hlines, hline, hp, hend⟩ := h
  have hlen : s.length = before.flatten.length + (place.text.length + after.flatten.length) := by
    rw [← flatten_linesOf s, hlines, List.flatten_append, List.flatten_cons, List.length_append,
      List.length_append]
  refine ⟨before, after, isLines_iff.mpr hlines.symm, hline, hp.symm, ?_, ?_⟩
  · intro hne
    rcases hend with hlt | ⟨rfl, he⟩
    · exact hlt
    · rw [List.flatten_nil, List.length_nil] at hlen
      omega
  · intro heq
    rcases hend with hlt | hlast
    · omega
    · exact hlast

/-- A later position has a greater line, or the same line and a greater column. -/
theorem IsAt.lt_of_lt {s : Text} {p q : Nat} {place place' : Place} (h : IsAt s p place)
    (h' : IsAt s q place') (hpq : p < q) :
    place.line < place'.line ∨ place.line = place'.line ∧ place.column < place'.column := by
  have hcolumn := h'.column_le
  obtain ⟨before, after, hlines, hline, hp, -⟩ := h
  obtain ⟨before', after', hlines', hline', hq, -⟩ := h'
  rw [hlines'] at hlines
  rcases Nat.lt_trichotomy before.length before'.length with hlt | heq | hgt
  · left
    omega
  · right
    obtain ⟨rfl, -⟩ := List.append_inj hlines heq.symm
    omega
  · -- the line of the later position would end before the earlier position
    exfalso
    obtain ⟨more, hmore⟩ : ∃ more, before = before' ++ place'.text :: more := by
      have hpre : before' ++ [place'.text] <+: before := by
        have hleft : before' ++ [place'.text] <+: linesOf s :=
          ⟨after', by rw [hlines', List.append_assoc]; rfl⟩
        have hright : before <+: linesOf s := ⟨place.text :: after, by rw [hlines', hlines]⟩
        apply List.prefix_of_prefix_length_le hleft hright
        rw [List.length_append]
        exact hgt
      obtain ⟨more, hmore⟩ := hpre
      exact ⟨more, by rw [← hmore, List.append_assoc]; rfl⟩
    rw [hmore, List.flatten_append, List.flatten_cons, List.length_append,
      List.length_append] at hp
    omega

/-- **Line and column address the position.**  Exactly the positions of the text have places, and
later ones have greater addresses. -/
theorem isAddress_of_find? (s : Text) :
    (∀ p, (∃ place, find? s p = some place) ↔ p ≤ s.length) ∧
    (∀ p place, find? s p = some place → IsAddress s p place) ∧
    ∀ p q place place', find? s p = some place → find? s q = some place' → p < q →
      place.line < place'.line ∨ place.line = place'.line ∧ place.column < place'.column := by
  refine ⟨fun p => ⟨?_, ?_⟩, ?_, ?_⟩
  · rintro ⟨place, hplace⟩
    exact (find?_eq_some_iff.mp hplace).position_le
  · intro hp
    obtain ⟨place, hplace⟩ := exists_isAt hp
    exact ⟨place, hplace.find?_eq_some⟩
  · intro p place hplace
    exact (find?_eq_some_iff.mp hplace).isAddress
  · intro p q place place' hplace hplace'
    exact (find?_eq_some_iff.mp hplace).lt_of_lt (find?_eq_some_iff.mp hplace')

/-- An empty line, and the end behind a line feed. -/
theorem isAddress_blank_line :
    find? "é\n\n2\n".toList 2 = some ⟨2, "\n".toList, 0⟩ ∧
      find? "é\n\n2\n".toList 5 = some ⟨3, "2\n".toList, 2⟩ ∧
      IsAddress "é\n\n2\n".toList 2 ⟨2, "\n".toList, 0⟩ ∧
      IsAddress "é\n\n2\n".toList 5 ⟨3, "2\n".toList, 2⟩ ∧
      (2 < 3 ∨ 2 = 3 ∧ 0 < 2) := by
  obtain ⟨-, haddress, horder⟩ := isAddress_of_find? "é\n\n2\n".toList
  have hblank : find? "é\n\n2\n".toList 2 = some ⟨2, "\n".toList, 0⟩ := by decide +kernel
  have hend : find? "é\n\n2\n".toList 5 = some ⟨3, "2\n".toList, 2⟩ := by decide +kernel
  exact ⟨hblank, hend, haddress _ _ hblank, haddress _ _ hend,
    horder _ _ _ _ hblank hend (by decide)⟩

end Place

end ArithTokens
