import ArithTokens.Proofs.GuardedStep
import ArithTokens.Proofs.Segmentation

/-!
# Sessions

A cursor may be asked for characters, tokens and its end in any order, and it goes on behind an
error wherever that left it.  Whatever is asked, each reply tells the truth about the piece of text
that it passes, and the pieces put together are the text up to the cursor: nothing is dropped and
nothing is read twice.  Each step leads on, up to the end token, which stays.

    ofText s = ok start → IsLossless s start requests                   (isLossless_of_ofText)

The invariant is `IsIn`: a cursor of a text stands between a front part of it and the rest.
-/

namespace ArithTokens

/-! ## Definitions -/

/-- Where the lexeme of an answer lies, as the answer has it.  An open fraction ends at its
position, and a stray character starts there. -/
def lexemeSpan : Except LexError Token → Span
  | .ok t => t.span
  | .error e =>
    match e.cause with
    | .unexpectedCharacter _ => ⟨e.position, e.position + 1⟩
    | .unterminatedFloat literal => ⟨e.position - literal.length, e.position⟩
    | _ => ⟨e.position, e.position⟩

/-- The lexeme that an answer is about: what lies under the span of a token, or what an error
names. -/
def lexemeText (s : Text) : Except LexError Token → Text
  | .ok t => t.span.slice s
  | .error e =>
    match e.cause with
    | .unexpectedCharacter c => [c]
    | .unterminatedFloat literal => literal
    | _ => []

def blanksFrom (s : Text) (n : Nat) : Text :=
  (s.drop n).takeWhile isBlank

/-- The character at an offset, unless the text has ended. -/
def characterAt (s : Text) (n : Nat) : Except Limit Char :=
  match s[n]? with
  | none => .error .endOfText
  | some c => .ok c

namespace Cursor

def after (c : Cursor) (requests : List Request) : Cursor :=
  requests.foldl (fun c request => (c.perform request).2) c

/-- A request with its reply, and the cursors before and behind it. -/
structure Turn where
  before : Cursor
  request : Request
  reply : Reply
  behind : Cursor

def turn (c : Cursor) (request : Request) : Turn :=
  ⟨c, request, (c.perform request).1, (c.perform request).2⟩

/-- The turns of requests, each one from the cursor that the one before has left. -/
def session (c : Cursor) : List Request → List Turn
  | [] => []
  | request :: more => c.turn request :: session (c.turn request).behind more

/-- The text that a turn takes: a character, or blanks and a lexeme. -/
def Turn.taken (s : Text) (turn : Turn) : Text :=
  match turn.request, turn.reply with
  | .advance, .character (.ok c) => [c]
  | .next, .token answer => blanksFrom s turn.before.offset ++ lexemeText s answer
  | _, _ => []

/-- An answer is about the lexeme that the step has passed. -/
structure IsFaithfulStep (s : Text) (before : Cursor) (answer : Except LexError Token)
    (behind : Cursor) : Prop where
  /-- The lexeme lies between the blanks and the cursor. -/
  span_eq : lexemeSpan answer =
    ⟨before.offset + (blanksFrom s before.offset).length, behind.offset⟩
  /-- The lexeme is what lies there. -/
  slice_eq : (lexemeSpan answer).slice s = lexemeText s answer
  /-- An error is a stray character or an open fraction. -/
  cause : ∀ e, answer = .error e →
    (∃ c, e.cause = .unexpectedCharacter c) ∨ ∃ literal, e.cause = .unterminatedFloat literal
  /-- The end token stands at the end. -/
  ended : ∀ t, answer = .ok t → t.isEnd = true →
    t = Token.atEnd s.length ∧ behind.offset = s.length
  /-- Any other answer leads on. -/
  leads_on : answer = .ok (Token.atEnd s.length) ∨ before.offset < behind.offset
  /-- No read and no offset is outside of its limit. -/
  guarded : before.guardedNext = .ok (answer, behind)

/-- A turn tells the truth about the text. -/
structure Turn.IsFaithful (s : Text) (turn : Turn) : Prop where
  le_behind : turn.before.offset ≤ turn.behind.offset
  behind_le : turn.behind.offset ≤ s.length
  taken_eq : turn.taken s = Span.slice s ⟨turn.before.offset, turn.behind.offset⟩
  /-- A character is asked for in vain only at the end. -/
  character : turn.request = .current ∨ turn.request = .advance →
    turn.reply = .character (characterAt s turn.before.offset)
  flag : turn.request = .isAtEnd → turn.reply = .flag (turn.before.offset = s.length)
  /-- Only a step and a character that is taken move the cursor. -/
  behind_eq : turn.request ≠ .next →
    (turn.request = .advance → turn.before.offset = s.length) → turn.behind = turn.before
  step : turn.request = .next →
    ∃ answer, turn.reply = .token answer ∧ IsFaithfulStep s turn.before answer turn.behind

/-- Requests to a cursor of a text drop nothing of it, and lead to its end. -/
structure IsLossless (s : Text) (start : Cursor) (requests : List Request) : Prop where
  faithful : ∀ turn ∈ start.session requests, turn.IsFaithful s
  taken_eq : (start.session requests).flatMap (Turn.taken s) =
    s.take (start.after requests).offset
  offset_le : (start.after requests).offset ≤ s.length
  monotone : ∀ earlier later, requests = earlier ++ later →
    (start.after earlier).offset ≤ (start.after requests).offset
  /-- At the end, no request moves the cursor, and the end token is the answer. -/
  ended : (start.after requests).offset = s.length →
    (start.after requests).next = (.ok (Token.atEnd s.length), start.after requests) ∧
      ∀ more, (start.after requests).after more = start.after requests
  /-- After as many steps as there are characters left, each further one is at the end. -/
  leads_to_end : ∀ m, s.length - (start.after requests).offset ≤ m →
    ((start.after requests).after (List.replicate m .next)).next.1 =
      .ok (Token.atEnd s.length)

end Cursor

/-! ## Pieces of a text -/

theorem slice_append {s : Text} {i j k : Nat} (hij : i ≤ j) (hjk : j ≤ k) :
    Span.slice s ⟨i, j⟩ ++ Span.slice s ⟨j, k⟩ = Span.slice s ⟨i, k⟩ := by
  have hj : s.drop j = (s.drop i).drop (j - i) := by
    rw [List.drop_drop, show i + (j - i) = j by omega]
  unfold Span.slice
  simp only
  rw [hj, ← List.take_add, show j - i + (k - j) = k - i by omega]

theorem slice_self (s : Text) (n : Nat) : Span.slice s ⟨n, n⟩ = [] := by
  unfold Span.slice
  rw [Nat.sub_self, List.take_zero]

/-- The blanks from an offset on are those before the first other character. -/
theorem blanksFrom_eq {s blanks rest : Text} {n : Nat} (hs : s.drop n = blanks ++ rest)
    (hb : ∀ c ∈ blanks, isBlank c = true) (hr : rest.head?.any isBlank = false) :
    blanksFrom s n = blanks := by
  unfold blanksFrom
  rw [hs, List.takeWhile_append_of_pos hb]
  cases rest with
  | nil => simp
  | cons c rest => simp [show isBlank c = false from hr]

/-! ## Lexemes and answers -/

theorem lexemeSpan_read {l : Lexeme} (hl : l.WellFormed) (n : Nat) :
    lexemeSpan (l.read n) = ⟨n, n + l.text.length⟩ := by
  cases l with
  | symbol kind c => rfl
  | number literal =>
    obtain ⟨x, hx⟩ := IsLiteral.exists_ofLiteral? hl
    simp only [Lexeme.read, hx]
    rfl
  | openFraction literal =>
    show Span.mk (n + literal.length - literal.length) (n + literal.length) = _
    rw [Nat.add_sub_cancel]
    rfl
  | stray c => rfl

/-- The lexeme of an answer is the one that was read. -/
theorem lexemeText_read {s : Text} {l : Lexeme} (hl : l.WellFormed) {n : Nat}
    (hs : Span.slice s ⟨n, n + l.text.length⟩ = l.text) : lexemeText s (l.read n) = l.text := by
  cases l with
  | symbol kind c => exact hs
  | number literal =>
    obtain ⟨x, hx⟩ := IsLiteral.exists_ofLiteral? hl
    simp only [Lexeme.read, hx]
    exact hs
  | openFraction literal => rfl
  | stray c => rfl

/-- A step passes blanks and a lexeme, which is empty at the end, and its answer is about the
lexeme. -/
theorem IsStep.exists_lexeme {n : Nat} {r : Text} {result : Except LexError Token × Cursor}
    (h : IsStep n r result) :
    ∃ blanks lexeme, r = blanks ++ (lexeme ++ result.2.rest) ∧
      (∀ c ∈ blanks, isBlank c = true) ∧
      (lexeme ++ result.2.rest).head?.any isBlank = false ∧
      result.2.offset = n + blanks.length + lexeme.length ∧
      lexemeSpan result.1 = ⟨n + blanks.length, n + blanks.length + lexeme.length⟩ ∧
      ∀ s, Span.slice s ⟨n + blanks.length, n + blanks.length + lexeme.length⟩ = lexeme →
        lexemeText s result.1 = lexeme := by
  cases h with
  | atEnd hb => exact ⟨r, [], by simp, hb, rfl, rfl, rfl, fun s hs => hs⟩
  | @lexeme blanks l rest hb hl hr =>
    exact ⟨blanks, l.text, rfl, hb, hl.head?_isBlank rest, rfl, lexemeSpan_read hl _,
      fun s hs => lexemeText_read hl hs⟩

/-- A step leads on with a token or an error of the text, or is at the end. -/
theorem IsStep.leads_on_or_atEnd {n : Nat} {r : Text} {result : Except LexError Token × Cursor}
    (h : IsStep n r result) :
    (result.1 = .ok (Token.atEnd (n + r.length)) ∧ result.2.offset = n + r.length) ∨
      (n < result.2.offset ∧ (∀ t, result.1 = .ok t → t.isEnd = false) ∧
        ∀ e, result.1 = .error e →
          (∃ c, e.cause = .unexpectedCharacter c) ∨
            ∃ literal, e.cause = .unterminatedFloat literal) := by
  cases h with
  | atEnd hb => exact Or.inl ⟨rfl, rfl⟩
  | @lexeme blanks l rest hb hl hr =>
    have hpos := List.length_pos_iff.mpr hl.text_ne_nil
    refine Or.inr ⟨?_, fun t ht => hl.isEnd_of_read ht, fun e he => ?_⟩
    · show n < n + blanks.length + l.text.length
      omega
    · rcases hl.read_eq_error he with ⟨c, _, rfl⟩ | ⟨literal, _, rfl⟩
      · exact Or.inl ⟨c, rfl⟩
      · exact Or.inr ⟨literal, rfl⟩

/-! ## Cursors of a text -/

namespace Cursor

/-- The cursor stands in a text: what is left is the text from its offset on. -/
structure IsIn (s : Text) (c : Cursor) : Prop where
  offset_le : c.offset ≤ s.length
  rest_eq : c.rest = s.drop c.offset

theorem isIn_of_ofText {s : Text} {start : Cursor} (h : ofText s = .ok start) :
    s.length ≤ Position.greatest ∧ start.offset = 0 ∧ start.IsIn s := by
  by_cases hs : s.length ≤ Position.greatest
  · rw [ofText_of_length_le hs] at h
    cases h
    exact ⟨hs, rfl, Nat.zero_le _, rfl⟩
  · rw [ofText_of_greatest_lt (Nat.lt_of_not_le hs)] at h
    cases h

namespace IsIn

variable {s : Text} {c : Cursor} (h : c.IsIn s)
include h

theorem length_eq : c.offset + c.rest.length = s.length := by
  have := h.offset_le
  rw [h.rest_eq, List.length_drop]
  omega

theorem rest_eq_nil (hc : c.offset = s.length) : c.rest = [] := by
  rw [h.rest_eq, hc, List.drop_length]

theorem current_eq : c.current = characterAt s c.offset := by
  unfold current characterAt
  rw [← List.head?_drop, ← h.rest_eq]
  cases c.rest <;> rfl

theorem isAtEnd_eq : c.isAtEnd = decide (c.offset = s.length) := by
  have hlen := h.length_eq
  unfold isAtEnd
  rw [Bool.eq_iff_iff, List.isEmpty_iff, ← List.length_eq_zero_iff, decide_eq_true_eq]
  omega

/-- A cursor that passes a piece of what is left still stands in the text. -/
theorem of_append {a : Text} {d : Cursor} (hr : c.rest = a ++ d.rest)
    (hd : d.offset = c.offset + a.length) : d.IsIn s := by
  have hs : s.drop c.offset = a ++ d.rest := h.rest_eq ▸ hr
  constructor
  · have := h.length_eq
    rw [hr, List.length_append] at this
    omega
  · rw [hd]
    exact (drop_add_length hs).symm

/-! ## Turns -/

/-- A step of a cursor in a text passes the blanks and the lexeme that its answer is about. -/
theorem next (hs : s.length ≤ Position.greatest) :
    c.next.2.IsIn s ∧ IsFaithfulStep s c c.next.1 c.next.2 ∧ c.offset ≤ c.next.2.offset ∧
      blanksFrom s c.offset ++ lexemeText s c.next.1 =
        Span.slice s ⟨c.offset, c.next.2.offset⟩ := by
  have hstep : IsStep c.offset c.rest c.next := isStep_next c.offset c.rest
  obtain ⟨blanks, lexeme, hr, hb, hhead, hbehind, hspan, htext⟩ := hstep.exists_lexeme
  have hdrop : s.drop c.offset = blanks ++ (lexeme ++ c.next.2.rest) := h.rest_eq ▸ hr
  have hblanks : blanksFrom s c.offset = blanks := blanksFrom_eq hdrop hb hhead
  have hslice : Span.slice s ⟨c.offset + blanks.length, c.next.2.offset⟩ = lexeme := by
    rw [hbehind]
    exact slice_add_length (drop_add_length hdrop)
  rw [← hbehind] at hspan htext
  have htext : lexemeText s c.next.1 = lexeme := htext s hslice
  have hin : c.next.2.IsIn s := by
    refine h.of_append (a := blanks ++ lexeme) ?_ ?_
    · rw [List.append_assoc]
      exact hr
    · rw [List.length_append]
      omega
  have hlen := h.length_eq
  refine ⟨hin, ⟨?_, ?_, ?_, ?_, ?_, ?_⟩, by omega, ?_⟩
  · rw [hspan, hblanks]
  · rw [hspan, hslice, htext]
  · intro e he
    rcases hstep.leads_on_or_atEnd with ⟨hok, _⟩ | ⟨_, _, hcause⟩
    · rw [hok] at he
      cases he
    · exact hcause e he
  · intro t ht hend
    rcases hstep.leads_on_or_atEnd with ⟨hok, hoffset⟩ | ⟨_, hno, _⟩
    · rw [hok, hlen] at ht
      exact ⟨(Except.ok.inj ht).symm, hoffset.trans hlen⟩
    · rw [hno t ht] at hend
      cases hend
  · rcases hstep.leads_on_or_atEnd with ⟨hok, _⟩ | ⟨hlt, _, _⟩
    · rw [hok, hlen]
      exact Or.inl rfl
    · exact Or.inr hlt
  · exact guardedNext_eq (by rw [hlen]; exact hs)
  · rw [hblanks, htext, ← slice_append (j := c.offset + blanks.length) (by omega) (by omega),
      slice_add_length hdrop, hslice]

/-- Taking a character moves the cursor over just that character, and at the end nowhere. -/
theorem advance : c.advance.2.IsIn s ∧ c.advance.1 = characterAt s c.offset ∧
    ((c.offset = s.length ∧ c.advance = (.error .endOfText, c)) ∨
      ∃ x, c.advance.1 = .ok x ∧ c.advance.2.offset = c.offset + 1 ∧
        Span.slice s ⟨c.offset, c.offset + 1⟩ = [x]) := by
  have hcurrent := h.current_eq
  have hlen := h.length_eq
  obtain ⟨n, r⟩ := c
  cases r with
  | nil => exact ⟨h, hcurrent, Or.inl ⟨hlen, rfl⟩⟩
  | cons x r =>
    exact ⟨h.of_append (a := [x]) rfl rfl, hcurrent,
      Or.inr ⟨x, rfl, rfl, slice_add_length (a := [x]) h.rest_eq.symm⟩⟩

/-- A turn that leaves the cursor where it is and takes nothing is faithful if its reply is. -/
theorem isFaithful_of_unmoved {request : Request} {reply : Reply} (hrequest : request ≠ .next)
    (hcharacter : request = .current ∨ request = .advance →
      reply = .character (characterAt s c.offset))
    (hflag : request = .isAtEnd → reply = .flag (c.offset = s.length))
    (htaken : (Turn.mk c request reply c).taken s = []) :
    (Turn.mk c request reply c).IsFaithful s where
  le_behind := Nat.le_refl _
  behind_le := h.offset_le
  taken_eq := by rw [htaken, slice_self]
  character := hcharacter
  flag := hflag
  behind_eq _ _ := rfl
  step hnext := absurd hnext hrequest

/-- **The step lemma.**  The turn of each request is faithful and leaves a cursor of the text. -/
theorem turn (hs : s.length ≤ Position.greatest) (request : Request) :
    (c.turn request).behind.IsIn s ∧ (c.turn request).IsFaithful s := by
  cases request with
  | current =>
    exact ⟨h, h.isFaithful_of_unmoved (by simp) (fun _ => congrArg Reply.character h.current_eq)
      (by simp) rfl⟩
  | isAtEnd =>
    exact ⟨h, h.isFaithful_of_unmoved (by simp) (by simp)
      (fun _ => congrArg Reply.flag h.isAtEnd_eq) rfl⟩
  | keep token => exact ⟨h, h.isFaithful_of_unmoved (by simp) (by simp) (by simp) rfl⟩
  | advance =>
    obtain ⟨hin, hcharacter, hcases⟩ := h.advance
    refine ⟨hin, ?_⟩
    rcases hcases with ⟨hend, he⟩ | ⟨x, hx, hbehind, hslice⟩
    · have hturn : c.turn .advance = ⟨c, .advance, .character (.error .endOfText), c⟩ := by
        unfold Cursor.turn perform
        rw [he]
      rw [he] at hcharacter
      rw [hturn]
      exact h.isFaithful_of_unmoved (by simp) (fun _ => congrArg Reply.character hcharacter)
        (by simp) rfl
    · refine ⟨?_, hin.offset_le, ?_, fun _ => congrArg Reply.character hcharacter, by rintro ⟨⟩, ?_,
        by rintro ⟨⟩⟩
      · show c.offset ≤ c.advance.2.offset
        omega
      · show Turn.taken s ⟨c, .advance, .character c.advance.1, c.advance.2⟩ =
          Span.slice s ⟨c.offset, c.advance.2.offset⟩
        rw [hx, hbehind, hslice]
        rfl
      · intro _ hend
        have hend : c.offset = s.length := hend rfl
        have hle := hin.offset_le
        omega
  | next =>
    obtain ⟨hin, hstep, hle, htaken⟩ := h.next hs
    refine ⟨hin, hle, hin.offset_le, htaken, ?_, by rintro ⟨⟩, fun hn => absurd rfl hn,
      fun _ => ⟨c.next.1, rfl, hstep⟩⟩
    rintro (hrequest | hrequest) <;> cases hrequest

end IsIn

/-! ## Sessions -/

theorem after_cons (c : Cursor) (request : Request) (more : List Request) :
    c.after (request :: more) = (c.turn request).behind.after more := rfl

theorem after_append (c : Cursor) (requests more : List Request) :
    c.after (requests ++ more) = (c.after requests).after more :=
  List.foldl_append

namespace IsIn

/-- At the end of the text the cursor stays, whatever is asked. -/
theorem atEnd {s : Text} {c : Cursor} (h : c.IsIn s) (hc : c.offset = s.length) :
    c.next = (.ok (Token.atEnd s.length), c) ∧ ∀ requests, c.after requests = c := by
  have hrest := h.rest_eq_nil hc
  obtain ⟨n, r⟩ := c
  simp only at hc hrest
  subst hc hrest
  refine ⟨next_nil _, fun requests => ?_⟩
  induction requests with
  | nil => rfl
  | cons request more ih => cases request <;> exact ih

section
variable {s : Text} (hs : s.length ≤ Position.greatest)
include hs

/-- **The run lemma.**  A session keeps the cursor in the text; its turns are faithful, and together
they take what lies between the two cursors. -/
theorem session {c : Cursor} (h : c.IsIn s) (requests : List Request) :
    (c.after requests).IsIn s ∧ c.offset ≤ (c.after requests).offset ∧
      (∀ turn ∈ c.session requests, turn.IsFaithful s) ∧
      (c.session requests).flatMap (Turn.taken s) =
        Span.slice s ⟨c.offset, (c.after requests).offset⟩ := by
  induction requests generalizing c with
  | nil => exact ⟨h, Nat.le_refl _, by simp [Cursor.session], (slice_self s c.offset).symm⟩
  | cons request more ih =>
    obtain ⟨hin, hturn⟩ := h.turn hs request
    obtain ⟨hlast, hle, hmore, htaken⟩ := ih hin
    have hbehind : c.offset ≤ (c.turn request).behind.offset := hturn.le_behind
    refine ⟨hlast, Nat.le_trans hbehind hle, List.forall_mem_cons.mpr ⟨hturn, hmore⟩, ?_⟩
    rw [Cursor.session, List.flatMap_cons, htaken, hturn.taken_eq, after_cons]
    exact slice_append hbehind hle

/-- As many steps as there are characters left lead to the end. -/
theorem after_steps {c : Cursor} (h : c.IsIn s) {m : Nat} (hm : s.length - c.offset ≤ m) :
    (c.after (List.replicate m .next)).next.1 = .ok (Token.atEnd s.length) := by
  induction m generalizing c with
  | zero =>
    have hend : c.offset = s.length := Nat.le_antisymm h.offset_le (by omega)
    exact congrArg Prod.fst (h.atEnd hend).1
  | succ m ih =>
    obtain ⟨hin, hstep, _, _⟩ := h.next hs
    rw [List.replicate_succ, after_cons]
    refine ih hin ?_
    show s.length - c.next.2.offset ≤ m
    rcases hstep.leads_on with hend | hlt
    · have := (hstep.ended _ hend rfl).2
      omega
    · omega

end

end IsIn

/-! ## Top theorem -/

/-- **A session loses nothing.**  Every request to a cursor of a text is answered faithfully, what
is taken is the text up to the cursor, and steps lead to the end token, which stays. -/
theorem isLossless_of_ofText {s : Text} {start : Cursor} (h : ofText s = .ok start)
    (requests : List Request) : IsLossless s start requests := by
  obtain ⟨hs, hzero, hstart⟩ := isIn_of_ofText h
  obtain ⟨hin, _, hfaithful, htaken⟩ := hstart.session hs requests
  refine ⟨hfaithful, ?_, hin.offset_le, ?_, hin.atEnd, fun m => hin.after_steps hs⟩
  · rw [htaken, hzero]
    rfl
  · rintro earlier later rfl
    obtain ⟨hearlier, _⟩ := hstart.session hs earlier
    rw [after_append]
    exact (hearlier.session hs later).2.1

/-- A session goes on in the middle of a number and behind an open fraction. -/
theorem isLossless_resumed :
    ofText " -12.5\n3.$".toList = .ok ⟨0, " -12.5\n3.$".toList⟩ ∧
      (session ⟨0, " -12.5\n3.$".toList⟩
          [.advance, .advance, .next, .current, .next, .next, .next, .advance]).map
        (Turn.taken " -12.5\n3.$".toList) =
          [" ".toList, "-".toList, "12.5".toList, [], "\n3.".toList, "$".toList, [], []] ∧
      IsLossless " -12.5\n3.$".toList ⟨0, " -12.5\n3.$".toList⟩
        [.advance, .advance, .next, .current, .next, .next, .next, .advance] :=
  ⟨rfl, by decide +kernel, isLossless_of_ofText rfl _⟩

end Cursor

end ArithTokens
