import ArithTokens.Command.Response
import ArithTokens.Proofs.DecodedLines
import ArithTokens.Proofs.LineByLine

/-!
# Report and continue

A run that is not to fail fast writes one entry for each line, the tokens or the diagnostic of the
error, and goes on behind an error.  One thing ends it early: a caret that does not fit its field.
Such an error has no diagnostic, and the run stops in front of its entry.

    every line can be shown → an entry for each line, exit status 0
    line is the first that cannot → an entry for each line before it, exit status 101
                                                                     (isReport_of_not_failFast)
    tokenize line = error e → (e has a diagnostic in line ↔ e fits the line)
-/

namespace ArithTokens

/-! ## Diagnostics of lines -/

/-- The caret of an error in a line, behind the dashes, fits its field. -/
def LexError.Fits (e : LexError) (line : Text) : Prop :=
  e.position - Diagnostic.indentation line < Diagnostic.greatestWidth

/-- The line has tokens, or an error that fits. -/
def IsShowable (line : Text) : Prop :=
  ∀ e, tokenize line = .error e → e.Fits line

section
variable {line : Text} (hl : '\n' ∉ line) {e : LexError} (h : tokenize line = .error e)
  (origin : Text) (linesBefore : Nat)
include hl h

theorem LexError.Fits.exists_diagnostic (hf : e.Fits line) :
    ∃ shown, e.diagnostic line origin linesBefore = .ok shown := by
  unfold diagnostic
  rw [Place.find?_line hl (position_le_of_tokenize_eq_error h)]
  exact ⟨_, if_neg (Nat.not_lt.mpr hf)⟩

theorem LexError.diagnostic_of_not_fits (hf : ¬e.Fits line) :
    e.diagnostic line origin linesBefore = .error .fieldWidth := by
  unfold diagnostic
  rw [Place.find?_line hl (position_le_of_tokenize_eq_error h)]
  exact if_pos (Nat.lt_succ_of_le (Nat.not_lt.mp hf))

theorem LexError.exists_diagnostic_iff :
    (∃ shown, e.diagnostic line origin linesBefore = .ok shown) ↔ e.Fits line := by
  refine ⟨fun ⟨shown, hs⟩ => ?_, fun hf => hf.exists_diagnostic hl h origin linesBefore⟩
  by_contra hf
  rw [diagnostic_of_not_fits hl h origin linesBefore hf] at hs
  cases hs

end

namespace Command

/-! ## Reports -/

/-- What is written for a line that comes after `linesBefore` other lines: the list of its tokens,
or the diagnostic of its error. -/
inductive IsEntry (origin : Text) (linesBefore : Nat) (line : Text) : Text → Prop
  | tokens {tokens : List Token} :
      tokenize line = .ok tokens →
      IsEntry origin linesBefore line (Token.listText tokens ++ ['\n'])
  | diagnostic {e : LexError} {shown : Text} :
      tokenize line = .error e → e.diagnostic line origin linesBefore = .ok shown →
      IsEntry origin linesBefore line shown

/-- What is written for lines that come after `linesBefore` other lines, an entry for each. -/
inductive IsReport (origin : Text) : Nat → List Text → List Text → Prop
  | nil {linesBefore : Nat} : IsReport origin linesBefore [] []
  | cons {linesBefore : Nat} {line entry : Text} {lines entries : List Text} :
      IsEntry origin linesBefore line entry → IsReport origin (linesBefore + 1) lines entries →
      IsReport origin linesBefore (line :: lines) (entry :: entries)

namespace Entry
variable (origin : Text) (linesBefore : Nat) {octets : List UInt8}
  (hl : '\n' ∉ Utf8.textOf octets)
include hl

theorem exists_isEntry (h : IsShowable (Utf8.textOf octets)) :
    ∃ entry, (ofLine origin linesBefore octets).written = .ok entry ∧
      IsEntry origin linesBefore (Utf8.textOf octets) entry := by
  unfold ofLine
  simp only
  cases ha : tokenize (Utf8.textOf octets) with
  | ok tokens => exact ⟨_, rfl, .tokens ha⟩
  | error e =>
    obtain ⟨shown, hs⟩ := (h e ha).exists_diagnostic hl ha origin linesBefore
    exact ⟨shown, hs, .diagnostic ha hs⟩

theorem written_of_not_isShowable (h : ¬IsShowable (Utf8.textOf octets)) :
    (ofLine origin linesBefore octets).written = .error .fieldWidth := by
  obtain ⟨e, hn⟩ := not_forall.mp h
  obtain ⟨ha, hf⟩ := Classical.not_imp.mp hn
  unfold ofLine
  simp only [ha]
  exact LexError.diagnostic_of_not_fits hl ha origin linesBefore hf

end Entry

/-! ## Runs -/

namespace Run

/-- A run that is not to fail fast goes on behind an entry that is written. -/
theorem ofEntries_cons {e : Entry} {entry : Text} (h : e.written = .ok entry) (more : List Entry) :
    (ofEntries false (e :: more)).output = entry :: (ofEntries false more).output ∧
      (ofEntries false (e :: more)).ending = (ofEntries false more).ending := by
  have hgo : (!e.stops false) = true := by
    unfold Entry.stops
    rw [h]
    rfl
  have htext : e.text = entry := by
    unfold Entry.text
    rw [h]
  unfold ofEntries
  rw [List.takeWhile_cons, List.dropWhile_cons, if_pos hgo, if_pos hgo, ← htext]
  -- the entry that ends the run, if there is one, is the same with and without `e`
  cases more.dropWhile (!·.stops false) with
  | nil => exact ⟨rfl, rfl⟩
  | cons last rest =>
    simp only
    cases last.written <;> exact ⟨rfl, rfl⟩

/-- It stops in front of an entry that has no text. -/
theorem ofEntries_cons_of_written_eq_error {e : Entry} {limit : Limit}
    (h : e.written = .error limit) (more : List Entry) :
    (ofEntries false (e :: more)).output = [] ∧
      (ofEntries false (e :: more)).ending = .outOfLimit limit := by
  have hstop : ¬(!e.stops false) = true := by
    unfold Entry.stops
    rw [h]
    simp
  unfold ofEntries
  rw [List.takeWhile_cons, List.dropWhile_cons, if_neg hstop, if_neg hstop]
  simp only [h, List.map_nil, and_self]

/-- The part of a run that is not to fail fast over lines that come after `linesBefore` others. -/
def after (origin : Text) (linesBefore : Nat) (lines : List (List UInt8)) : Run :=
  ofEntries false (Entry.after origin linesBefore lines)

section
variable (origin : Text) (n : Nat) {octets : List UInt8} (hl : '\n' ∉ Utf8.textOf octets)
include hl

theorem after_cons_of_isShowable (h : IsShowable (Utf8.textOf octets))
    (more : List (List UInt8)) :
    ∃ entry, IsEntry origin n (Utf8.textOf octets) entry ∧
      (after origin n (octets :: more)).output = entry :: (after origin (n + 1) more).output ∧
      (after origin n (octets :: more)).ending = (after origin (n + 1) more).ending := by
  obtain ⟨entry, hw, he⟩ := Entry.exists_isEntry origin n hl h
  exact ⟨entry, he, ofEntries_cons hw _⟩

theorem after_cons_of_not_isShowable (h : ¬IsShowable (Utf8.textOf octets))
    (more : List (List UInt8)) :
    (after origin n (octets :: more)).output = [] ∧
      (after origin n (octets :: more)).ending = .outOfLimit .fieldWidth :=
  ofEntries_cons_of_written_eq_error (Entry.written_of_not_isShowable origin n hl h) _

end

/-- A run writes the entries of lines that can be shown, and goes on with the lines behind them. -/
theorem after_append {before : List (List UInt8)}
    (hl : ∀ octets ∈ before, '\n' ∉ Utf8.textOf octets)
    (hs : ∀ octets ∈ before, IsShowable (Utf8.textOf octets)) (origin : Text) (n : Nat)
    (more : List (List UInt8)) :
    ∃ entries, IsReport origin n (before.map Utf8.textOf) entries ∧
      (after origin n (before ++ more)).output =
        entries ++ (after origin (n + before.length) more).output ∧
      (after origin n (before ++ more)).ending =
        (after origin (n + before.length) more).ending := by
  induction before generalizing n with
  | nil => exact ⟨[], .nil, rfl, rfl⟩
  | cons octets before ih =>
    obtain ⟨hoctets, hbefore⟩ := List.forall_mem_cons.mp hl
    obtain ⟨hshow, hshows⟩ := List.forall_mem_cons.mp hs
    obtain ⟨entry, he, hout, hend⟩ :=
      after_cons_of_isShowable origin n hoctets hshow (before ++ more)
    obtain ⟨entries, hr, houts, hends⟩ := ih hbefore hshows (n + 1)
    rw [Nat.add_assoc, Nat.add_comm 1] at houts hends
    refine ⟨entry :: entries, .cons he hr, ?_, ?_⟩
    · rw [List.cons_append, hout, houts]
      rfl
    · rw [List.cons_append, hend, hends]
      rfl

/-- Lines that can all be shown are read to the end. -/
theorem isReport_after {lines : List (List UInt8)}
    (hl : ∀ octets ∈ lines, '\n' ∉ Utf8.textOf octets)
    (hs : ∀ octets ∈ lines, IsShowable (Utf8.textOf octets)) (origin : Text) (n : Nat) :
    IsReport origin n (lines.map Utf8.textOf) (after origin n lines).output ∧
      (after origin n lines).ending = .complete := by
  obtain ⟨entries, hr, hout, hend⟩ := after_append hl hs origin n []
  rw [List.append_nil] at hout hend
  have hout : (after origin n lines).output = entries := hout.trans (List.append_nil entries)
  rw [hout]
  exact ⟨hr, hend⟩

/-- The first line that cannot be shown is where the run stops. -/
theorem isReport_after_append_cons {before : List (List UInt8)} {last : List UInt8}
    {more : List (List UInt8)} (hl : ∀ octets ∈ before ++ last :: more, '\n' ∉ Utf8.textOf octets)
    (hs : ∀ octets ∈ before, IsShowable (Utf8.textOf octets))
    (hlast : ¬IsShowable (Utf8.textOf last)) (origin : Text) (n : Nat) :
    IsReport origin n (before.map Utf8.textOf)
        (after origin n (before ++ last :: more)).output ∧
      (after origin n (before ++ last :: more)).ending = .outOfLimit .fieldWidth := by
  obtain ⟨hbefore, hmore⟩ := List.forall_mem_append.mp hl
  obtain ⟨entries, hr, hout, hend⟩ := after_append hbefore hs origin n (last :: more)
  obtain ⟨hstop, hwhy⟩ :=
    after_cons_of_not_isShowable origin (n + before.length) (hmore last List.mem_cons_self) hlast
      more
  rw [hstop, List.append_nil] at hout
  rw [hout, hend]
  exact ⟨hr, hwhy⟩

end Run

/-! ## Responses -/

namespace Response

section
variable {settings : Settings} (hf : settings.failFast = false) {octets : List UInt8}
include hf

theorem ofOpened_output :
    (ofOpened settings (.octets octets)).output =
      (Run.after settings.origin 0 (inputLines octets)).output.flatten := by
  unfold ofOpened
  rw [hf]
  rfl

theorem ofOpened_of_complete
    (h : (Run.after settings.origin 0 (inputLines octets)).ending = .complete) :
    (ofOpened settings (.octets octets)).exitStatus = 0 ∧
      (ofOpened settings (.octets octets)).failure = none := by
  have hend : (Run.ofInput false settings.origin octets).ending = .complete := h
  rw [ofOpened, hf, ofRun, hend]
  exact ⟨rfl, rfl⟩

theorem ofOpened_of_outOfLimit {limit : Limit}
    (h : (Run.after settings.origin 0 (inputLines octets)).ending = .outOfLimit limit) :
    (ofOpened settings (.octets octets)).exitStatus = 101 ∧
      (ofOpened settings (.octets octets)).failure = some (.outOfLimit limit) := by
  have hend : (Run.ofInput false settings.origin octets).ending = .outOfLimit limit := h
  rw [ofOpened, hf, ofRun, hend]
  exact ⟨rfl, rfl⟩

end

end Response

/-! ## A caret too far on -/

/-- The octets of a one, at least one space and a dollar sign. -/
def farStray (n : Nat) : List UInt8 :=
  0x31 :: 0x20 :: (List.replicate n 0x20 ++ [0x24])

theorem textOf_farStray (n : Nat) :
    Utf8.textOf (farStray n) = '1' :: ' ' :: (List.replicate n ' ' ++ ['$']) := by
  have hascii : ∀ octet ∈ farStray n, octet.toNat < 0x80 := by
    simp [farStray, or_imp, forall_and]
  rw [Utf8.textOf_ascii hascii]
  unfold farStray
  rw [List.map_cons, List.map_cons, List.map_append, List.map_replicate]
  rfl

theorem inputLines_farStray (n : Nat) (rest : List UInt8) :
    inputLines (farStray n ++ lineFeed :: rest) = farStray n :: inputLines rest := by
  refine inputLines_append ?_ ?_ rest
  · simp [farStray, lineFeed]
  · unfold farStray
    rw [← List.cons_append, ← List.cons_append, List.getLast?_concat]
    decide

theorem scans_spaces (n k : Nat) (next : Option Char) : Scans n (List.replicate k ' ') next [] := by
  induction k generalizing n with
  | zero => exact .nil
  | succ k ih => exact .blank rfl (ih (n + 1))

theorem tokenize_farStray {n : Nat} (hn : n + 3 ≤ Position.greatest) :
    tokenize (Utf8.textOf (farStray n)) = .error ⟨.unexpectedCharacter '$', n + 2⟩ := by
  have hone : tokenize ['1'] = .ok
      [⟨.number, some (.ofBits 0x3ff0000000000000), ⟨0, 1⟩⟩, Token.atEnd 1] := by
    decide +kernel
  have hstray : IsStray '$' := ⟨rfl, rfl, fun kind => by cases kind <;> decide⟩
  have hscan := ((scans_line hone 0).append_blank rfl _).append
    (scans_spaces (0 + ['1', ' '].length) n (some '$'))
  have hlen : 0 + (['1'] ++ [' '] ++ List.replicate n ' ').length = n + 2 := by
    simp
  have hfail : Fails 0 (_ ++ '$' :: []) _ := .stray hscan hstray
  rw [hlen] at hfail
  rw [textOf_farStray]
  refine (tokenize_eq_error_iff_fails ?_).mpr hfail
  simp
  omega

theorem not_isShowable_farStray {n : Nat} (hwide : Diagnostic.greatestWidth ≤ n + 2)
    (hn : n + 3 ≤ Position.greatest) : ¬IsShowable (Utf8.textOf (farStray n)) := by
  intro h
  have hfits := h _ (tokenize_farStray hn)
  unfold LexError.Fits at hfits
  rw [textOf_farStray] at hfits
  exact absurd hfits (Nat.not_lt.mpr hwide)

/-- A run stops at once at such a line, whatever lines are behind it. -/
theorem Response.ofOpened_farStray_append {settings : Settings} (hf : settings.failFast = false)
    {n : Nat} (hwide : Diagnostic.greatestWidth ≤ n + 2) (hn : n + 3 ≤ Position.greatest)
    (rest : List UInt8) :
    (ofOpened settings (.octets (farStray n ++ lineFeed :: rest))).output = [] ∧
      (ofOpened settings (.octets (farStray n ++ lineFeed :: rest))).exitStatus = 101 := by
  have hmem : farStray n ∈ inputLines (farStray n ++ lineFeed :: rest) := by
    rw [inputLines_farStray]
    exact List.mem_cons_self
  obtain ⟨hout, hend⟩ := Run.after_cons_of_not_isShowable settings.origin 0
    (lineFeed_notMem_textOf_inputLines hmem) (not_isShowable_farStray hwide hn) (inputLines rest)
  rw [← inputLines_farStray] at hout hend
  rw [ofOpened_output hf, hout]
  exact ⟨rfl, (ofOpened_of_outOfLimit hf hend).1⟩

/-- So the line behind it, which has a token, is not read. -/
theorem Response.ofOpened_farStray :
    (ofOpened ⟨none, false, true, false⟩
        (.octets (farStray 65533 ++ lineFeed :: [0x32, lineFeed]))).output = [] ∧
      (ofOpened ⟨none, false, true, false⟩
        (.octets (farStray 65533 ++ lineFeed :: [0x32, lineFeed]))).exitStatus = 101 :=
  ofOpened_farStray_append rfl (by decide) (by decide) _

/-! ## Top theorem -/

def lineTexts (octets : List UInt8) : List Text :=
  (inputLines octets).map Utf8.textOf

/-- **A run that is not to fail fast goes on behind every error that has a diagnostic**, and stops at
the first one that has none. -/
theorem isReport_of_not_failFast (settings : Settings) (hf : settings.failFast = false)
    (octets : List UInt8) :
    ((∀ line ∈ lineTexts octets, IsShowable line) →
      ∃ entries, IsReport settings.origin 0 (lineTexts octets) entries ∧
        (Response.ofOpened settings (.octets octets)).output = entries.flatten ∧
        (Response.ofOpened settings (.octets octets)).exitStatus = 0 ∧
        (Response.ofOpened settings (.octets octets)).failure = none) ∧
    (∀ before line after, lineTexts octets = before ++ line :: after →
      (∀ l ∈ before, IsShowable l) → ¬IsShowable line →
      ∃ entries, IsReport settings.origin 0 before entries ∧
        (Response.ofOpened settings (.octets octets)).output = entries.flatten ∧
        (Response.ofOpened settings (.octets octets)).exitStatus = 101 ∧
        (Response.ofOpened settings (.octets octets)).failure = some (.outOfLimit .fieldWidth)) ∧
    ∀ line ∈ lineTexts octets, ∀ e, tokenize line = .error e → ∀ origin linesBefore,
      (∃ shown, e.diagnostic line origin linesBefore = .ok shown) ↔ e.Fits line := by
  have hl : ∀ line ∈ inputLines octets, '\n' ∉ Utf8.textOf line := fun _ =>
    lineFeed_notMem_textOf_inputLines
  rw [Response.ofOpened_output hf]
  refine ⟨fun hs => ?_, fun before line after hlines hs hline => ?_, fun line hline e he => ?_⟩
  · obtain ⟨hr, hend⟩ := Run.isReport_after hl (List.forall_mem_map.mp hs) settings.origin 0
    exact ⟨_, hr, rfl, Response.ofOpened_of_complete hf hend⟩
  · obtain ⟨first, rest, hfirst, rfl, hrest⟩ := List.map_eq_append_iff.mp hlines
    obtain ⟨last, more, rfl, rfl, -⟩ := List.map_eq_cons_iff.mp hrest
    rw [hfirst] at hl
    obtain ⟨hr, hend⟩ :=
      Run.isReport_after_append_cons hl (List.forall_mem_map.mp hs) hline settings.origin 0
    rw [← hfirst] at hr hend
    exact ⟨_, hr, rfl, Response.ofOpened_of_outOfLimit hf hend⟩
  · obtain ⟨line, hmem, rfl⟩ := List.mem_map.mp hline
    exact fun origin linesBefore =>
      LexError.exists_diagnostic_iff (hl line hmem) he origin linesBefore

/-- A run goes on behind a dollar sign close to the start of its line, and stops at one far on. -/
theorem isReport_stray :
    (∃ entries, IsReport "stdin".toList 0 ["5 $".toList, "2".toList] entries ∧
      (Response.ofOpened ⟨none, false, true, false⟩
        (.octets [0x35, 0x20, 0x24, 0x0d, 0x0a, 0x32])).output = entries.flatten ∧
      (Response.ofOpened ⟨none, false, true, false⟩
        (.octets [0x35, 0x20, 0x24, 0x0d, 0x0a, 0x32])).exitStatus = 0) ∧
    ∃ entries, IsReport "stdin".toList 0 ["2".toList] entries ∧
      (Response.ofOpened ⟨none, false, true, false⟩
        (.octets ([0x32] ++ lineFeed :: (farStray 65533 ++ lineFeed :: [0x32])))).output =
          entries.flatten ∧
      (Response.ofOpened ⟨none, false, true, false⟩
        (.octets ([0x32] ++ lineFeed :: (farStray 65533 ++ lineFeed :: [0x32])))).exitStatus =
          101 := by
  have h5 : tokenize "5 $".toList = .error ⟨.unexpectedCharacter '$', 2⟩ := by
    decide +kernel
  have h2 : tokenize "2".toList = .ok
      [⟨.number, some (.ofBits 0x4000000000000000), ⟨0, 1⟩⟩, Token.atEnd 1] := by
    decide +kernel
  have hs5 : IsShowable "5 $".toList := fun e he => by
    rw [h5] at he
    cases he
    show 2 - 0 < 65535
    decide
  have hs2 : IsShowable "2".toList := fun e he => by
    rw [h2] at he
    cases he
  constructor
  · have hlines : lineTexts [0x35, 0x20, 0x24, 0x0d, 0x0a, 0x32] = ["5 $".toList, "2".toList] := by
      decide +kernel
    have hs : ∀ line ∈ lineTexts [0x35, 0x20, 0x24, 0x0d, 0x0a, 0x32], IsShowable line := by
      rw [hlines]
      exact List.forall_mem_cons.mpr ⟨hs5, List.forall_mem_singleton.mpr hs2⟩
    obtain ⟨entries, hr, hout, hexit, -⟩ :=
      (isReport_of_not_failFast ⟨none, false, true, false⟩ rfl _).1 hs
    rw [hlines] at hr
    exact ⟨entries, hr, hout, hexit⟩
  · have hlines : lineTexts ([0x32] ++ lineFeed :: (farStray 65533 ++ lineFeed :: [0x32])) =
        ["2".toList] ++ Utf8.textOf (farStray 65533) :: ["2".toList] := by
      unfold lineTexts
      rw [inputLines_append (by decide) (by decide), inputLines_farStray]
      rfl
    obtain ⟨entries, hr, hout, hexit, -⟩ :=
      (isReport_of_not_failFast ⟨none, false, true, false⟩ rfl _).2.1 ["2".toList] _ _ hlines
        (List.forall_mem_singleton.mpr hs2) (not_isShowable_farStray (by decide) (by decide))
    exact ⟨entries, hr, hout, hexit⟩

end Command

end ArithTokens
