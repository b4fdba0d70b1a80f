import ArithTokens.Proofs.Addresses
import ArithTokens.Proofs.Escapes
import ArithTokens.Proofs.LineByLine

/-!
# The caret

A diagnostic that shows a place has five lines.  The last three have their bars one below the
other; beside the bar stands the line of the place, without the spaces at its start and the white
space at its end, and below it the caret, as far behind the bar as the column of the place is behind
those spaces.  So the caret stands under the character at the position, if it is shown.  No error of
a scan is reported in those spaces; only a text that is too long to be scanned may be refused there.

    place.IsAt s e.position → the lines of the diagnostic point at it             (pointsAt_excerpt)
    tokenize s = error e, s is scanned → its column is not in the spaces left out
                                                                     (indentation_le_of_tokenize)
-/

namespace ArithTokens

namespace Diagnostic

/-! ## Definitions -/

/-- The first bar of a line is in the column `bar`. -/
def HasBarAt (bar : Nat) (line : Text) : Prop :=
  ∃ before after, line = before ++ '|' :: after ∧ before.length = bar ∧ '|' ∉ before

/-- Three lines of a diagnostic with their bars in the column `bar` point at a place, which is that
of a position in the text `s`. -/
structure PointsAt (s : Text) (position : Nat) (place : Place) (bar : Nat)
    (above beside below : Text) : Prop where
  bar_above : HasBarAt bar above
  bar_beside : HasBarAt bar beside
  bar_below : HasBarAt bar below
  /-- Beside the bar stands the line, without the spaces at its start and a tail of white space. -/
  shown : ∃ tail, place.text.drop (indentation place.text) = beside.drop (bar + 2) ++ tail ∧
    ∀ c ∈ tail, WhiteSpace.isWhiteSpace c = true
  /-- No white space is left at the end. -/
  trimmed : ∀ c ∈ (beside.drop (bar + 2)).getLast?, WhiteSpace.isWhiteSpace c = false
  /-- The caret ends its line. -/
  caret : ∃ before, below = before ++ ['^'] ∧
    before.length = bar + 2 + (place.column - indentation place.text)
  /-- It stands under the character at the position, if the line is shown so far. -/
  under : indentation place.text ≤ place.column →
    (∃ c ∈ place.text.drop place.column, WhiteSpace.isWhiteSpace c = false) →
    ∃ c, s[position]? = some c ∧
      beside[bar + 2 + (place.column - indentation place.text)]? = some c
  /-- Otherwise it stands behind all that is shown. -/
  beyond : indentation place.text ≤ place.column →
    (∀ c ∈ place.text.drop place.column, WhiteSpace.isWhiteSpace c = true) →
    beside[bar + 2 + (place.column - indentation place.text)]? = none

/-! ## What is shown of a line -/

/-- The indentation ends in front of a character that is no space. -/
theorem indentation_le_of_getElem? {s : Text} {i : Nat} {c : Char} (h : s[i]? = some c)
    (hc : c ≠ ' ') : indentation s ≤ i := by
  unfold indentation
  by_contra hlt
  have hi : i < (s.takeWhile (· = ' ')).length := by omega
  obtain ⟨rest, hrest⟩ := List.takeWhile_prefix (p := (· = ' ')) (l := s)
  rw [← hrest, List.getElem?_append_left hi] at h
  have hspace := List.all_eq_true.mp List.all_takeWhile c (List.mem_of_getElem? h)
  exact hc (of_decide_eq_true hspace)

theorem mem_of_mem_shown {s : Text} {c : Char} (h : c ∈ shown s) : c ∈ s := by
  have hs := Text.dropTrailing_append_takeTrailing WhiteSpace.isWhiteSpace (s.drop (indentation s))
  have hc : c ∈ s.drop (indentation s) := by
    rw [← hs]
    exact List.mem_append_left _ h
  exact List.mem_of_mem_drop hc

/-- Behind the indentation, a column is shown if white space is not all that is left there. -/
theorem lt_length_shown_iff {s : Text} {column : Nat} (h : indentation s ≤ column) :
    column - indentation s < (shown s).length ↔
      ∃ c ∈ s.drop column, WhiteSpace.isWhiteSpace c = false := by
  have hd : (s.drop (indentation s)).drop (column - indentation s) = s.drop column := by
    rw [List.drop_drop]
    congr 1
    omega
  rw [← hd]
  exact Text.lt_length_dropTrailing_iff

theorem getElem?_shown {s : Text} {column : Nat} (h : indentation s ≤ column)
    (hlt : column - indentation s < (shown s).length) :
    (shown s)[column - indentation s]? = s[column]? := by
  have hs := Text.dropTrailing_append_takeTrailing WhiteSpace.isWhiteSpace (s.drop (indentation s))
  have hd : (s.drop (indentation s))[column - indentation s]? = s[column]? := by
    rw [List.getElem?_drop]
    congr 1
    omega
  rw [← hd, ← hs]
  exact (List.getElem?_append_left hlt).symm

/-! ## The excerpt -/

/-- The column of the bar beside a line number. -/
def barColumn (line : Nat) : Nat :=
  (Text.ofNat line).length + 1

theorem gutter_eq (line : Nat) : gutter line = List.replicate (barColumn line) ' ' ++ ['|'] := rfl

theorem hasBarAt_gutter (line : Nat) (rest : Text) :
    HasBarAt (barColumn line) (gutter line ++ rest) := by
  refine ⟨List.replicate (barColumn line) ' ', rest, ?_, List.length_replicate, ?_⟩
  · rw [gutter_eq, List.append_assoc, List.singleton_append]
  · intro h
    have := List.eq_of_mem_replicate h
    cases this

theorem numbered_eq (line : Nat) (s : Text) :
    Text.ofNat line ++ " | ".toList ++ s = (Text.ofNat line ++ [' ']) ++ '|' :: ' ' :: s := by
  simp

theorem hasBarAt_numbered (line : Nat) (s : Text) :
    HasBarAt (barColumn line) (Text.ofNat line ++ " | ".toList ++ s) := by
  refine ⟨Text.ofNat line ++ [' '], ' ' :: s, numbered_eq line s, ?_, ?_⟩
  · rw [List.length_append, List.length_singleton]
    rfl
  · rw [List.mem_append, not_or]
    exact ⟨(isDigits_ofNat line).notMem rfl, by decide⟩

/-- The text beside the bar starts two columns behind it. -/
theorem length_numbered (line : Nat) :
    (Text.ofNat line ++ " | ".toList).length = barColumn line + 2 := by
  rw [List.length_append]
  rfl

theorem drop_numbered (line : Nat) (s : Text) :
    (Text.ofNat line ++ " | ".toList ++ s).drop (barColumn line + 2) = s := by
  rw [← length_numbered line, List.drop_left]

theorem getElem?_numbered (line : Nat) (s : Text) (i : Nat) :
    (Text.ofNat line ++ " | ".toList ++ s)[barColumn line + 2 + i]? = s[i]? := by
  rw [← length_numbered line, List.getElem?_append_right (Nat.le_add_right _ _),
    Nat.add_sub_cancel_left]

theorem pointsAt_excerpt {s : Text} {p : Nat} {place : Place} (h : place.IsAt s p) (line : Nat) :
    PointsAt s p place (barColumn line) (gutter line)
      (Text.ofNat line ++ " | ".toList ++ shown place.text)
      (gutter line ++ ' ' :: Text.alignRight '-' (caretColumn place + 1) ['^']) where
  bar_above := by
    have := hasBarAt_gutter line []
    rwa [List.append_nil] at this
  bar_beside := hasBarAt_numbered line _
  bar_below := hasBarAt_gutter line _
  shown := by
    rw [drop_numbered]
    exact ⟨_, (Text.dropTrailing_append_takeTrailing _ _).symm,
      Text.forall_mem_takeTrailing _ _⟩
  trimmed := by
    rw [drop_numbered]
    exact Text.getLast?_dropTrailing _ _
  caret := by
    refine ⟨gutter line ++ ' ' :: List.replicate (caretColumn place) '-', ?_, ?_⟩
    · rw [List.append_assoc]
      rfl
    · rw [gutter_eq]
      simp only [List.length_append, List.length_cons, List.length_replicate, List.length_nil,
        caretColumn]
      omega
  under := by
    intro hle hshown
    have hlt := (lt_length_shown_iff hle).mpr hshown
    obtain ⟨c, hc⟩ : ∃ c, (shown place.text)[place.column - indentation place.text]? = some c :=
      ⟨_, List.getElem?_eq_getElem hlt⟩
    refine ⟨c, ?_, ?_⟩
    · rwa [← h.getElem?_column, ← getElem?_shown hle hlt]
    · rwa [getElem?_numbered]
  beyond := by
    intro hle hall
    rw [getElem?_numbered, List.getElem?_eq_none_iff]
    by_contra hlt
    obtain ⟨c, hc, hn⟩ := (lt_length_shown_iff hle).mp (Nat.lt_of_not_le hlt)
    rw [hall c hc] at hn
    cases hn

/-! ## Lines -/

theorem lineFeed_notMem_heading {cause : Cause} (h : ∀ tip, cause.tip? = some tip → '\n' ∉ tip) :
    '\n' ∉ heading cause := by
  have hname : '\n' ∉ cause.name := by
    cases cause <;> exact of_decide_eq_true rfl
  unfold heading
  cases ht : cause.tip? with
  | none => simp [hname]
  | some tip => simp [hname, h tip ht]

theorem lineFeed_notMem_location {origin : Text} (h : '\n' ∉ origin) (line : Nat) :
    '\n' ∉ location origin line := by
  simp [location, h, Text.lineFeed_notMem_ofNat line]

theorem lineFeed_notMem_shown {s line : Text} (h : line ∈ Place.linesOf s) :
    '\n' ∉ shown line := by
  obtain ⟨body, hbody, rfl | rfl⟩ := Place.lineFeed_of_mem_linesOf h
  · rw [shown_append_lineFeed]
    exact fun hm => hbody (mem_of_mem_shown hm)
  · exact fun hm => hbody (mem_of_mem_shown hm)

theorem lineFeed_notMem_excerpt {s : Text} {p : Nat} {place : Place} (h : place.IsAt s p)
    (line : Nat) : ∀ l ∈ excerpt line place, '\n' ∉ l := by
  have hshown := lineFeed_notMem_shown h.mem_linesOf
  have hnumber := Text.lineFeed_notMem_ofNat line
  have hgutter : '\n' ∉ gutter line := by simp [gutter_eq]
  intro l hl
  simp only [excerpt, List.mem_cons, List.not_mem_nil, or_false] at hl
  rcases hl with rfl | rfl | rfl
  · exact hgutter
  · simp [hnumber, hshown]
  · simp [hgutter, Text.alignRight]

end Diagnostic

/-! ## Errors of texts -/

theorem lineFeed_notMem_tip {s : Text} {e : LexError} (h : tokenize s = .error e) :
    ∀ tip, e.cause.tip? = some tip → '\n' ∉ tip := by
  intro tip ht
  by_cases hs : s.length ≤ Position.greatest
  · cases (tokenize_eq_error_iff_fails hs).mp h with
    | @stray a rest c found ha hc =>
      cases ht
      simp [(Escape.hasNoControl_ascii c).lineFeed_notMem]
    | openFraction _ hl _ =>
      obtain ⟨whole, hw, rfl⟩ := hl
      cases ht
      have hwhole : '\n' ∉ whole := hw.notMem (by decide) rfl
      simp [hwhole]
  · rw [tokenize_of_greatest_lt (Nat.lt_of_not_le hs)] at h
    cases h
    cases ht
    simp [Text.lineFeed_notMem_ofNat s.length]

/-- An error is not reported in the spaces at the start of its line. -/
theorem indentation_le_of_tokenize {s : Text} (hs : s.length ≤ Position.greatest) {e : LexError}
    (h : tokenize s = .error e) {place : Place} (hp : place.IsAt s e.position) :
    Diagnostic.indentation place.text ≤ place.column := by
  cases (tokenize_eq_error_iff_fails hs).mp h with
  | @stray a rest c found ha hc =>
    have hget : (a ++ c :: rest)[0 + a.length]? = some c := by simp
    have hspace : c ≠ ' ' := by
      rintro rfl
      cases hc.1
    exact Diagnostic.indentation_le_of_getElem? (hp.getElem?_column.trans hget) hspace
  | @openFraction a literal rest found ha hl hr =>
    -- the point in front of the position is in the same line, and no space
    obtain ⟨whole, hw, rfl⟩ := hl
    have hget : (a ++ (whole ++ ['.'] ++ rest))[a.length + whole.length]? = some '.' := by
      rw [List.getElem?_append_right (Nat.le_add_right _ _), Nat.add_sub_cancel_left,
        List.append_assoc, List.getElem?_append_right (Nat.le_refl _), Nat.sub_self]
      rfl
    have hq : 0 + a.length + (whole ++ ['.']).length = a.length + whole.length + 1 := by
      rw [List.length_append, List.length_singleton]
      omega
    obtain ⟨-, hpoint⟩ := hp.getElem?_column_sub_one hq hget (by decide)
    have := Diagnostic.indentation_le_of_getElem? hpoint (by decide)
    omega

/-! ## Top theorem -/

/-- **The caret stands under the position**, and the position of an error is not in the spaces left
out, unless the text is too long and refused at its start. -/
theorem diagnostic_pointsAt (s : Text) :
    (∀ p ≤ s.length, ∃ place, Place.IsAt s p place) ∧
    (∀ (e : LexError) (origin : Text) (linesBefore : Nat),
      (∀ tip, e.cause.tip? = some tip → '\n' ∉ tip) → '\n' ∉ origin →
      ∀ place, Place.IsAt s e.position place →
      place.column - Diagnostic.indentation place.text + 1 ≤ Diagnostic.greatestWidth →
      ∃ first second above beside below bar,
        e.diagnostic s origin linesBefore =
          .ok (Text.ofLines [first, second, above, beside, below]) ∧
        (∀ line ∈ [first, second, above, beside, below], '\n' ∉ line) ∧
        Diagnostic.PointsAt s e.position place bar above beside below) ∧
    ∀ e, tokenize s = .error e →
      e.position ≤ s.length ∧ (∀ tip, e.cause.tip? = some tip → '\n' ∉ tip) ∧
      (s.length ≤ Position.greatest → ∀ place, Place.IsAt s e.position place →
        Diagnostic.indentation place.text ≤ place.column) ∧
      (Position.greatest < s.length → e = ⟨.inputTooLong s.length, 0⟩) := by
  refine ⟨fun p hp => Place.exists_isAt hp, ?_, fun e he => ?_⟩
  · intro e origin linesBefore htip horigin place hplace hwidth
    refine ⟨Diagnostic.heading e.cause, Diagnostic.location origin (place.line + linesBefore), _, _,
      _, _, ?_, ?_, Diagnostic.pointsAt_excerpt hplace (place.line + linesBefore)⟩
    · unfold LexError.diagnostic
      rw [hplace.find?_eq_some]
      exact if_neg (Nat.not_lt.mpr hwidth)
    · have hexcerpt := Diagnostic.lineFeed_notMem_excerpt hplace (place.line + linesBefore)
      exact List.forall_mem_cons.mpr ⟨Diagnostic.lineFeed_notMem_heading htip,
        List.forall_mem_cons.mpr ⟨Diagnostic.lineFeed_notMem_location horigin _, hexcerpt⟩⟩
  · refine ⟨position_le_of_tokenize_eq_error he, lineFeed_notMem_tip he, fun hs place hplace => ?_,
      fun hs => ?_⟩
    · exact indentation_le_of_tokenize hs he hplace
    · rw [tokenize_of_greatest_lt hs] at he
      cases he
      rfl

/-- The first digit of a fraction is missed on the line feed of an indented line. -/
theorem diagnostic_pointsAt_open_fraction :
    Place.IsAt "2\n 4.\n".toList 5 ⟨2, " 4.\n".toList, 3⟩ ∧
      tokenize "2\n 4.\n".toList = .error ⟨.unterminatedFloat "4.".toList, 5⟩ ∧
      Diagnostic.indentation " 4.\n".toList ≤ 3 ∧
      ∃ first second above beside below bar,
        LexError.diagnostic ⟨.unterminatedFloat "4.".toList, 5⟩ "2\n 4.\n".toList "stdin".toList
            98 = .ok (Text.ofLines [first, second, above, beside, below]) ∧
        (∀ line ∈ [first, second, above, beside, below], '\n' ∉ line) ∧
        Diagnostic.PointsAt "2\n 4.\n".toList 5 ⟨2, " 4.\n".toList, 3⟩ bar above beside below := by
  have hplace : Place.IsAt "2\n 4.\n".toList 5 ⟨2, " 4.\n".toList, 3⟩ :=
    ⟨["2\n".toList], [], rfl, rfl, rfl, Or.inl (by decide)⟩
  have he : tokenize "2\n 4.\n".toList = .error ⟨.unterminatedFloat "4.".toList, 5⟩ := by
    decide +kernel
  obtain ⟨-, hpoints, herrors⟩ := diagnostic_pointsAt "2\n 4.\n".toList
  obtain ⟨-, htip, hspaces, -⟩ := herrors _ he
  exact ⟨hplace, he, hspaces (by decide) _ hplace,
    hpoints _ _ 98 htip (by decide) _ hplace (by decide)⟩

/-- A text that is too long is refused at its start, also where that is an indentation. -/
theorem indentation_of_inputTooLong :
    tokenize (' ' :: List.replicate Position.greatest '1') =
        .error ⟨.inputTooLong (Position.greatest + 1), 0⟩ ∧
      Place.IsAt (' ' :: List.replicate Position.greatest '1') 0
        ⟨1, ' ' :: List.replicate Position.greatest '1', 0⟩ ∧
      ¬Diagnostic.indentation (' ' :: List.replicate Position.greatest '1') ≤ 0 := by
  have hlength : (' ' :: List.replicate Position.greatest '1').length = Position.greatest + 1 := by
    rw [List.length_cons, List.length_replicate]
  have hline : '\n' ∉ ' ' :: List.replicate Position.greatest '1' := by
    rw [List.mem_cons, not_or]
    exact ⟨by decide, fun h => absurd (List.eq_of_mem_replicate h) (by decide)⟩
  have hpos : 0 < (' ' :: List.replicate Position.greatest '1').length :=
    List.length_pos_of_ne_nil (List.cons_ne_nil _ _)
  refine ⟨?_, ⟨[], [], Place.linesOf_line hline, rfl, rfl, Or.inl hpos⟩, ?_⟩
  · rw [tokenize_of_greatest_lt (hlength ▸ Nat.lt_succ_self _), hlength]
  · unfold Diagnostic.indentation
    rw [List.takeWhile_cons_of_pos (by decide), List.length_cons]
    exact Nat.not_succ_le_zero _

end ArithTokens
