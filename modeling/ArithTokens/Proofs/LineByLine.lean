import ArithTokens.Proofs.Concatenation
import ArithTokens.Proofs.Places

/-!
# Line by line

A text can be cut into tokens as a whole, or its lines one by one: a line feed is a blank, so no
lexeme reaches from one line into the next.  The tokens are the same but for their positions, the
first line without tokens is where the whole text fails, and the diagnostic does not tell the two
ways apart.

    every line is accepted → tokenize (joinLines closed lines) is the tokens of the lines
    line is the first one with an error e → tokenize (joinLines closed lines) is e, shifted, and
      its diagnostic in the whole text is that of e in the line            (tokenize_joinLines)

An open fraction at the end of a line is reported on the line feed in the whole text, and at the
end of the line where the line is taken by itself.
-/

namespace ArithTokens

/-! ## Lines put together -/

/-- The text of lines with line feeds between them, and one at its end if it is closed. -/
def joinLines (closed : Bool) (lines : List Text) : Text :=
  ['\n'].intercalate lines ++ if closed then ['\n'] else []

/-- The tokens of lines, without their end tokens, where the first line starts at `start`. -/
def tokensOfLines (start : Nat) : List (Text × List Token) → List Token
  | [] => []
  | (line, tokens) :: more =>
    tokens.dropLast.map (Token.shift start) ++ tokensOfLines (start + line.length + 1) more

theorem joinLines_cons_of_ne_nil (closed : Bool) (line : Text) {more : List Text} (h : more ≠ []) :
    joinLines closed (line :: more) = line ++ '\n' :: joinLines closed more := by
  cases more with
  | nil => exact absurd rfl h
  | cons l more =>
    unfold joinLines
    rw [List.intercalate_cons_cons, List.append_assoc, List.append_assoc, List.singleton_append]

/-- A first line is all there is, or a line feed and other lines follow. -/
theorem joinLines_cons (closed : Bool) (line : Text) (more : List Text) :
    (more = [] ∧ joinLines closed (line :: more) = line) ∨
      ∃ closed', joinLines closed (line :: more) = line ++ '\n' :: joinLines closed' more := by
  by_cases hm : more = []
  · subst hm
    cases closed with
    | false => exact Or.inl ⟨rfl, by simp [joinLines]⟩
    | true => exact Or.inr ⟨false, by simp [joinLines]⟩
  · exact Or.inr ⟨closed, joinLines_cons_of_ne_nil closed line hm⟩

theorem prefix_joinLines (closed : Bool) (line : Text) (after : List Text) :
    line <+: joinLines closed (line :: after) := by
  rcases joinLines_cons closed line after with ⟨_, h⟩ | ⟨_, h⟩
  · exact ⟨[], by rw [h, List.append_nil]⟩
  · exact ⟨_, h.symm⟩

/-- The lines before a line all end in their line feeds. -/
theorem joinLines_append (closed : Bool) (before : List Text) (line : Text) (after : List Text) :
    joinLines closed (before ++ line :: after) =
      Text.ofLines before ++ joinLines closed (line :: after) := by
  induction before with
  | nil => rfl
  | cons l before ih =>
    rw [List.cons_append, joinLines_cons_of_ne_nil closed l (by simp), ih]
    simp [Text.ofLines]

/-! ## Tokens -/

/-- A line that is accepted is scanned the same way wherever it stands. -/
theorem scans_line {line : Text} {tokens : List Token} (h : tokenize line = .ok tokens) (n : Nat) :
    Scans n line none (tokens.dropLast.map (Token.shift n)) := by
  obtain ⟨found, hs, rfl⟩ := (tokenize_eq_ok_iff_scans (IsAccepted.length_le ⟨_, h⟩)).mp h
  have hn := hs.shift n
  rw [Nat.zero_add] at hn
  rwa [List.dropLast_concat]

/-- So is one with its line feed, whatever follows. -/
theorem scans_line_lineFeed {line : Text} {tokens : List Token} (h : tokenize line = .ok tokens)
    (n : Nat) (next : Option Char) :
    Scans n (line ++ ['\n']) next (tokens.dropLast.map (Token.shift n)) :=
  (scans_line h n).append_blank rfl next

theorem scans_joinLines {lines : List Text} (h : ∀ line ∈ lines, IsAccepted line) :
    ∃ answers, lines.map tokenize = answers.map .ok ∧ ∀ n closed,
      Scans n (joinLines closed lines) none (tokensOfLines n (lines.zip answers)) := by
  induction lines with
  | nil =>
    refine ⟨[], rfl, fun n closed => ?_⟩
    cases closed with
    | false => exact .nil
    | true => exact .blank rfl .nil
  | cons line more ih =>
    obtain ⟨⟨tokens, htokens⟩, hmore⟩ := List.forall_mem_cons.mp h
    obtain ⟨answers, hanswers, hscan⟩ := ih hmore
    refine ⟨tokens :: answers, ?_, fun n closed => ?_⟩
    · rw [List.map_cons, List.map_cons, htokens, hanswers]
    · rw [List.zip_cons_cons, tokensOfLines]
      rcases joinLines_cons closed line more with ⟨rfl, he⟩ | ⟨closed', he⟩
      · rw [he, List.zip_nil_left, tokensOfLines, List.append_nil]
        exact scans_line htokens n
      · have hrest := hscan (n + line.length + 1) closed'
        rw [he, ← List.singleton_append, ← List.append_assoc]
        refine (scans_line_lineFeed htokens n _).append ?_
        rwa [List.length_append, List.length_singleton, ← Nat.add_assoc]

/-! ## Errors -/

theorem Fails.position_le {n : Nat} {s : Text} {e : LexError} (h : Fails n s e) :
    e.position ≤ n + s.length := by
  cases h with
  | stray _ _ =>
    rw [List.length_append]
    show _ + _ ≤ _
    omega
  | openFraction _ _ _ =>
    rw [List.length_append, List.length_append]
    show _ + _ + _ ≤ _
    omega

theorem position_le_of_tokenize_eq_error {s : Text} {e : LexError} (h : tokenize s = .error e) :
    e.position ≤ s.length := by
  by_cases hs : s.length ≤ Position.greatest
  · have hp := ((tokenize_eq_error_iff_fails hs).mp h).position_le
    rwa [Nat.zero_add] at hp
  · rw [tokenize_of_greatest_lt (Nat.lt_of_not_le hs)] at h
    cases h
    exact Nat.zero_le _

theorem Fails.ne_nil {n : Nat} {s : Text} {e : LexError} (h : Fails n s e) : s ≠ [] := by
  cases h with
  | stray _ _ => simp
  | openFraction _ hl _ => simp [hl.ne_nil]

/-- A line that fails does so with other lines behind it. -/
theorem Fails.joinLines_cons {n : Nat} {line : Text} {e : LexError} (h : Fails n line e)
    (closed : Bool) (after : List Text) : Fails n (joinLines closed (line :: after)) e := by
  rcases ArithTokens.joinLines_cons closed line after with ⟨rfl, he⟩ | ⟨closed', he⟩
  · rwa [he]
  · rw [he]
    exact h.append (Or.inr rfl)

/-- The first line that fails makes the whole text fail. -/
theorem Fails.joinLines_append {before : List Text} (hb : ∀ l ∈ before, IsAccepted l) {line : Text}
    {e : LexError} (h : Fails 0 line e) (closed : Bool) (after : List Text) (n : Nat) :
    Fails n (joinLines closed (before ++ line :: after))
      (e.shift (n + (Text.ofLines before).length)) := by
  induction before generalizing n with
  | nil =>
    have hn := h.shift n
    rw [Nat.zero_add] at hn
    exact hn.joinLines_cons closed after
  | cons l before ih =>
    obtain ⟨⟨tokens, htokens⟩, hbefore⟩ := List.forall_mem_cons.mp hb
    have hlen : n + (Text.ofLines (l :: before)).length =
        n + (l ++ ['\n']).length + (Text.ofLines before).length := by
      simp [Text.ofLines]
      omega
    rw [List.cons_append, joinLines_cons_of_ne_nil closed l (by simp), ← List.singleton_append,
      ← List.append_assoc, hlen]
    exact (scans_line_lineFeed htokens n _).append_fails (ih hbefore _)

/-! ## Diagnostics -/

/-- In the whole text the first line may have a line feed; its places are the same. -/
theorem Place.find?_joinLines_cons (closed : Bool) {line : Text} (h : '\n' ∉ line)
    (after : List Text) {p : Nat} (hp : p ≤ line.length) :
    ∃ text, (text = line ∨ text = line ++ ['\n']) ∧
      find? (joinLines closed (line :: after)) p = some ⟨1, text, p⟩ := by
  rcases joinLines_cons closed line after with ⟨rfl, he⟩ | ⟨closed', he⟩
  · rw [he]
    exact ⟨line, Or.inl rfl, find?_line h hp⟩
  · rw [he]
    exact ⟨line ++ ['\n'], Or.inr rfl, find?_first h hp _⟩

/-- The diagnostic of an error in a line is the one in the whole text. -/
theorem LexError.diagnostic_shift {before : List Text} (hb : ∀ l ∈ before, '\n' ∉ l) {line : Text}
    (hl : '\n' ∉ line) (hne : line ≠ []) {e : LexError} (he : e.position ≤ line.length)
    (closed : Bool) (after : List Text) (origin : Text) (k : Nat) :
    (e.shift (Text.ofLines before).length).diagnostic (joinLines closed (before ++ line :: after))
      origin k = e.diagnostic line origin (k + before.length) := by
  obtain ⟨text, htext, hfirst⟩ := Place.find?_joinLines_cons closed hl after he
  have hr : joinLines closed (line :: after) ≠ [] := (prefix_joinLines closed line after).ne_nil hne
  have hplace : Place.find? (joinLines closed (before ++ line :: after))
      (e.shift (Text.ofLines before).length).position =
        some ⟨1 + before.length, text, e.position⟩ := by
    show Place.find? _ (e.position + (Text.ofLines before).length) = _
    rw [joinLines_append, Nat.add_comm e.position, Place.find?_ofLines_append hb hr, hfirst]
    rfl
  have hcause : (e.shift (Text.ofLines before).length).cause = e.cause := rfl
  refine diagnostic_congr hcause hplace (Place.find?_line hl he) htext (Or.inl rfl) ?_ origin
  omega

/-! ## Top theorem -/

/-- **A text and its lines one by one have the same answer.** -/
theorem tokenize_joinLines (closed : Bool) (lines : List Text)
    (hlines : ∀ line ∈ lines, '\n' ∉ line)
    (hlen : (joinLines closed lines).length ≤ Position.greatest) :
    ((∀ line ∈ lines, IsAccepted line) →
      ∃ answers, lines.map tokenize = answers.map .ok ∧
        tokenize (joinLines closed lines) =
          .ok (tokensOfLines 0 (lines.zip answers) ++
            [Token.atEnd (joinLines closed lines).length])) ∧
    ∀ before line after e, lines = before ++ line :: after → (∀ l ∈ before, IsAccepted l) →
      tokenize line = .error e →
      tokenize (joinLines closed lines) = .error (e.shift (Text.ofLines before).length) ∧
        ∀ origin linesBefore,
          (e.shift (Text.ofLines before).length).diagnostic (joinLines closed lines) origin
            linesBefore = e.diagnostic line origin (linesBefore + before.length) := by
  constructor
  · intro haccepted
    obtain ⟨answers, hanswers, hscan⟩ := scans_joinLines haccepted
    exact ⟨answers, hanswers, (tokenize_eq_ok_iff_scans hlen).mpr ⟨_, hscan 0 closed, rfl⟩⟩
  · rintro before line after e rfl haccepted he
    have hshort : line.length ≤ Position.greatest := by
      have := (prefix_joinLines closed line after).length_le
      rw [joinLines_append, List.length_append] at hlen
      omega
    have hfail := (tokenize_eq_error_iff_fails hshort).mp he
    have hwhole := hfail.joinLines_append haccepted closed after 0
    rw [Nat.zero_add] at hwhole
    have hp := hfail.position_le
    rw [Nat.zero_add] at hp
    refine ⟨(tokenize_eq_error_iff_fails hlen).mpr hwhole, fun origin k => ?_⟩
    exact LexError.diagnostic_shift (fun l hl => hlines l (List.mem_append_left _ hl))
      (hlines line (by simp)) hfail.ne_nil hp closed after origin k

theorem tokenize_joinLines_open_fraction :
    tokenize (joinLines true ["1-".toList, "2".toList]) =
        .ok [⟨.number, some (.ofBits 0x3ff0000000000000), ⟨0, 1⟩⟩, ⟨.minus, none, ⟨1, 2⟩⟩,
          ⟨.number, some (.ofBits 0x4000000000000000), ⟨3, 4⟩⟩, Token.atEnd 5] ∧
      tokenize (joinLines false ["1-".toList, " 5.".toList, "$".toList]) =
        .error ⟨.unterminatedFloat "5.".toList, 6⟩ ∧
      ∀ origin linesBefore,
        LexError.diagnostic ⟨.unterminatedFloat "5.".toList, 6⟩ "1-\n 5.\n$".toList origin
            linesBefore =
          LexError.diagnostic ⟨.unterminatedFloat "5.".toList, 3⟩ " 5.".toList origin
            (linesBefore + 1) := by
  have h1 : tokenize "1-".toList = .ok
      [⟨.number, some (.ofBits 0x3ff0000000000000), ⟨0, 1⟩⟩, ⟨.minus, none, ⟨1, 2⟩⟩,
        Token.atEnd 2] := by
    decide +kernel
  have h2 : tokenize "2".toList = .ok
      [⟨.number, some (.ofBits 0x4000000000000000), ⟨0, 1⟩⟩, Token.atEnd 1] := by
    decide +kernel
  have h5 : tokenize " 5.".toList = .error ⟨.unterminatedFloat "5.".toList, 3⟩ := by
    decide +kernel
  constructor
  · have haccepted : ∀ line ∈ ["1-".toList, "2".toList], IsAccepted line :=
      List.forall_mem_cons.mpr ⟨⟨_, h1⟩, List.forall_mem_singleton.mpr ⟨_, h2⟩⟩
    obtain ⟨answers, hanswers, h⟩ :=
      (tokenize_joinLines true _ (by decide) (by decide)).1 haccepted
    have ha : ["1-".toList, "2".toList].map tokenize = [_, _].map .ok :=
      congr (congrArg List.cons h1) (congrArg (· :: []) h2)
    obtain rfl := (List.map_inj_right fun _ _ => Except.ok.inj).mp (hanswers.symm.trans ha)
    exact h
  · exact (tokenize_joinLines false _ (by decide) (by decide)).2 ["1-".toList] _ ["$".toList] _ rfl
      (List.forall_mem_singleton.mpr ⟨_, h1⟩) h5

end ArithTokens
