import ArithTokens.Proofs.LineIsolation
import Mathlib.Data.List.TakeWhile

/-!
# Failing fast

A run that is to fail fast is a beginning of the run that goes on: it writes the same entries up to
the diagnostic of the first line without tokens, and ends there.  What stands behind that line is
not looked at, so it may be anything, even a line at which the other run would stop.

    every line is accepted → both runs write the same, exit status 0
    line is the first that is not → its diagnostic comes last, exit status 1, and the response is
      the same for every input that starts with these lines                  (failFast_isCut)
-/

namespace ArithTokens.Command

/-! ## Entries -/

namespace Entry

theorem ofLines_append_cons (origin : Text) (first : List (List UInt8)) (last : List UInt8)
    (more : List (List UInt8)) :
    ofLines origin (first ++ last :: more) =
      ofLines origin first ++ ofLine origin first.length last ::
        after origin (first.length + 1) more := by
  unfold ofLines
  rw [after_append, after_cons, Nat.zero_add]

/-- The entry of a line that has tokens stops no run. -/
theorem stops_ofLine {octets : List UInt8} (h : IsAccepted (Utf8.textOf octets)) (origin : Text)
    (linesBefore : Nat) (failFast : Bool) :
    (ofLine origin linesBefore octets).stops failFast = false := by
  obtain ⟨tokens, ht⟩ := h
  unfold stops isFailure ofLine
  simp only [ht, Bool.and_false]

theorem stops_ofLines {lines : List (List UInt8)}
    (h : ∀ octets ∈ lines, IsAccepted (Utf8.textOf octets)) (origin : Text) (failFast : Bool) :
    ∀ entry ∈ ofLines origin lines, entry.stops failFast = false := by
  intro entry hentry
  obtain ⟨⟨octets, k⟩, hmem, rfl⟩ := List.mem_map.mp hentry
  exact stops_ofLine (h octets (List.fst_mem_of_mem_zipIdx hmem)) origin k failFast

/-- Entries that stop no run, in the form in which a run asks for them. -/
theorem not_stops {failFast : Bool} {entries : List Entry}
    (h : ∀ entry ∈ entries, entry.stops failFast = false) :
    ∀ entry ∈ entries, (!entry.stops failFast) = true := by
  intro entry hentry
  rw [h entry hentry]
  rfl

end Entry

/-! ## Runs -/

namespace Run

/-- A run that nothing stops is complete. -/
theorem ofEntries_of_not_stops {failFast : Bool} {entries : List Entry}
    (h : ∀ entry ∈ entries, entry.stops failFast = false) :
    ofEntries failFast entries =
      ⟨entries.map Entry.text,
        entries.flatMap Entry.events ++ [.done (entries.countP Entry.isFailure)], .complete⟩ := by
  have hgo := Entry.not_stops h
  unfold ofEntries
  rw [List.takeWhile_eq_self_iff.mpr hgo, List.dropWhile_eq_nil_iff.mpr hgo]

/-- A run that is to fail fast ends with the first failure that is written, whatever follows. -/
theorem ofEntries_append_cons {before : List Entry} (h : ∀ entry ∈ before, entry.stops true = false)
    {last : Entry} (hlast : last.isFailure = true) {shown : Text} (hw : last.written = .ok shown)
    (more : List Entry) :
    ofEntries true (before ++ last :: more) =
      ⟨(before ++ [last]).map Entry.text, (before ++ [last]).flatMap Entry.events,
        .failedFast⟩ := by
  have hgo := Entry.not_stops h
  have hstop : ¬(!last.stops true) = true := by
    unfold Entry.stops
    simp [hw, hlast]
  have htext : last.text = shown := by
    unfold Entry.text
    rw [hw]
  unfold ofEntries
  rw [List.takeWhile_append_of_pos hgo, List.takeWhile_cons, if_neg hstop, List.append_nil,
    List.dropWhile_append_of_pos hgo, List.dropWhile_cons, if_neg hstop]
  simp only [hw, ← htext, List.map_append, List.map_singleton, List.flatMap_append,
    List.flatMap_singleton]

end Run

/-! ## The first failure -/

/-- Lines that have tokens, and a line behind them that has an error with a diagnostic. -/
structure IsFirstFailure (origin : Text) (first : List (List UInt8)) (last : List UInt8) :
    Prop where
  accepted : ∀ octets ∈ first, IsAccepted (Utf8.textOf octets)
  failure : ∃ e shown, tokenize (Utf8.textOf last) = .error e ∧
    e.diagnostic (Utf8.textOf last) origin first.length = .ok shown

namespace IsFirstFailure
variable {origin : Text} {first : List (List UInt8)} {last : List UInt8}
  (h : IsFirstFailure origin first last)
include h

theorem entry_last : (Entry.ofLine origin first.length last).isFailure = true ∧
    ∃ shown, (Entry.ofLine origin first.length last).written = .ok shown := by
  obtain ⟨e, shown, he, hs⟩ := h.failure
  unfold Entry.isFailure Entry.ofLine
  simp only [he, hs]
  exact ⟨trivial, shown, rfl⟩

/-- The run that is to fail fast is the same whatever lines follow. -/
theorem ofEntries_true (more : List (List UInt8)) :
    Run.ofEntries true (Entry.ofLines origin (first ++ last :: more)) =
      ⟨(Entry.ofLines origin (first ++ [last])).map Entry.text,
        (Entry.ofLines origin (first ++ [last])).flatMap Entry.events, .failedFast⟩ := by
  obtain ⟨hfail, shown, hw⟩ := h.entry_last
  rw [Entry.ofLines_append_cons, Entry.ofLines_append_cons]
  exact Run.ofEntries_append_cons (Entry.stops_ofLines h.accepted origin true) hfail hw _

/-- The other run writes the same for these lines by themselves. -/
theorem output_after :
    (Run.after origin 0 (first ++ [last])).output =
      (Entry.ofLines origin (first ++ [last])).map Entry.text := by
  obtain ⟨-, shown, hw⟩ := h.entry_last
  have hlast : (Entry.ofLine origin first.length last).stops false = false := by
    unfold Entry.stops
    rw [hw]
    rfl
  have hs : ∀ entry ∈ Entry.ofLines origin (first ++ [last]), entry.stops false = false := by
    rw [Entry.ofLines_append_cons]
    exact List.forall_mem_append.mpr
      ⟨Entry.stops_ofLines h.accepted origin false, List.forall_mem_singleton.mpr hlast⟩
  show (Run.ofEntries false (Entry.ofLines origin (first ++ [last]))).output = _
  rw [Run.ofEntries_of_not_stops hs]

theorem isShowable (hl : '\n' ∉ Utf8.textOf last) :
    ∀ octets ∈ first ++ [last], IsShowable (Utf8.textOf octets) := by
  obtain ⟨e, shown, he, hs⟩ := h.failure
  refine List.forall_mem_append.mpr ⟨fun octets hmem e' he' => ?_, ?_⟩
  · exact absurd (h.accepted octets hmem) (not_isAccepted_of_error he')
  · refine List.forall_mem_singleton.mpr fun e' he' => ?_
    rw [he] at he'
    cases he'
    exact (LexError.exists_diagnostic_iff hl he origin first.length).mp ⟨shown, hs⟩

/-- What the run that is to fail fast writes is the report of these lines, and what the other one
writes starts with it. -/
theorem isReport {more : List (List UInt8)}
    (hl : ∀ octets ∈ first ++ last :: more, '\n' ∉ Utf8.textOf octets) :
    IsReport origin 0 (first.map Utf8.textOf ++ [Utf8.textOf last])
        (Run.ofEntries true (Entry.ofLines origin (first ++ last :: more))).output ∧
      (Run.ofEntries true (Entry.ofLines origin (first ++ last :: more))).output <+:
        (Run.after origin 0 (first ++ last :: more)).output := by
  rw [List.append_cons] at hl
  obtain ⟨hfirst, -⟩ := List.forall_mem_append.mp hl
  have hs := h.isShowable (hfirst last (by simp))
  obtain ⟨entries, hr, hout, -⟩ := Run.after_append hfirst hs origin 0 more
  obtain ⟨hr', -⟩ := Run.isReport_after hfirst hs origin 0
  have hentries := hr.unique hr'
  rw [h.ofEntries_true more, ← h.output_after]
  constructor
  · rwa [List.map_append, List.map_singleton] at hr'
  · rw [List.append_cons first last more, hout, hentries]
    exact List.prefix_append _ _

end IsFirstFailure

/-! ## Responses -/

namespace Response

/-- The response to a run over an input that is, or is not, to fail fast. -/
def ofInput (settings : Settings) (failFast : Bool) (octets : List UInt8) : Response :=
  ofOpened { settings with failFast := failFast } (.octets octets)

theorem ofInput_eq (settings : Settings) (failFast : Bool) (octets : List UInt8) :
    ofInput settings failFast octets = ofRun { settings with failFast := failFast }
      (Run.ofInput failFast settings.origin octets) := rfl

variable {settings : Settings} {octets : List UInt8}

variable (settings) in
theorem ofInput_of_isAccepted (h : ∀ line ∈ lineTexts octets, IsAccepted line) (failFast : Bool) :
    (ofInput settings failFast octets).output =
        ((Entry.ofLines settings.origin (inputLines octets)).map Entry.text).flatten ∧
      (ofInput settings failFast octets).exitStatus = 0 := by
  have hs := Entry.stops_ofLines (List.forall_mem_map.mp h) settings.origin failFast
  have hrun := Run.ofEntries_of_not_stops hs
  rw [ofInput_eq, Run.ofInput, hrun]
  exact ⟨rfl, rfl⟩

variable {first : List (List UInt8)} {last : List UInt8} {more : List (List UInt8)}
  (hlines : inputLines octets = first ++ last :: more)
  (h : IsFirstFailure settings.origin first last)
include hlines h

theorem ofInput_of_isFirstFailure :
    (ofInput settings true octets).output =
        (Run.ofEntries true
          (Entry.ofLines settings.origin (first ++ last :: more))).output.flatten ∧
      (ofInput settings true octets).exitStatus = 1 := by
  rw [ofInput_eq, Run.ofInput, hlines, h.ofEntries_true more]
  exact ⟨rfl, rfl⟩

/-- The response depends on these lines only. -/
theorem ofInput_congr {octets' : List UInt8} {more' : List (List UInt8)}
    (hlines' : inputLines octets' = first ++ last :: more') :
    ofInput settings true octets' = ofInput settings true octets := by
  rw [ofInput_eq, ofInput_eq, Run.ofInput, Run.ofInput, hlines, hlines', h.ofEntries_true more,
    h.ofEntries_true more']

end Response

/-! ## Top theorem -/

/-- **Failing fast cuts a run off behind its first failure.** -/
theorem failFast_isCut (settings : Settings) (octets : List UInt8) :
    ((∀ line ∈ lineTexts octets, IsAccepted line) →
      (Response.ofInput settings true octets).output =
          (Response.ofInput settings false octets).output ∧
        (Response.ofInput settings true octets).exitStatus = 0 ∧
        (Response.ofInput settings false octets).exitStatus = 0) ∧
    ∀ before line after e, lineTexts octets = before ++ line :: after →
      (∀ l ∈ before, IsAccepted l) → tokenize line = .error e →
      (∃ shown, e.diagnostic line settings.origin before.length = .ok shown) →
      (∃ entries, IsReport settings.origin 0 (before ++ [line]) entries ∧
        (Response.ofInput settings true octets).output = entries.flatten ∧
        (Response.ofInput settings true octets).output <+:
          (Response.ofInput settings false octets).output ∧
        (Response.ofInput settings true octets).exitStatus = 1) ∧
      ∀ front rest, octets = front ++ rest → IsClosed front →
        front.count lineFeed = before.length + 1 → ∀ rest',
          Response.ofInput settings true (front ++ rest') =
            Response.ofInput settings true octets := by
  constructor
  · intro h
    obtain ⟨htrue, hzero⟩ := Response.ofInput_of_isAccepted settings h true
    obtain ⟨hfalse, hzero'⟩ := Response.ofInput_of_isAccepted settings h false
    exact ⟨htrue.trans hfalse.symm, hzero, hzero'⟩
  · rintro before line after e hlines hbefore he ⟨shown, hs⟩
    obtain ⟨first, tail, hfirst, rfl, htail⟩ := List.map_eq_append_iff.mp hlines
    obtain ⟨last, more, rfl, rfl, -⟩ := List.map_eq_cons_iff.mp htail
    rw [List.length_map] at hs
    have h : IsFirstFailure settings.origin first last :=
      ⟨List.forall_mem_map.mp hbefore, e, shown, he, hs⟩
    have hl : ∀ octets ∈ first ++ last :: more, '\n' ∉ Utf8.textOf octets := by
      rw [← hfirst]
      exact fun _ => lineFeed_notMem_textOf_inputLines
    constructor
    · obtain ⟨hout, hone⟩ := Response.ofInput_of_isFirstFailure hfirst h
      obtain ⟨hr, beyond, hbeyond⟩ := h.isReport hl
      refine ⟨_, hr, hout, ?_, hone⟩
      have hslow : (Response.ofInput settings false octets).output =
          (Run.after settings.origin 0 (inputLines octets)).output.flatten :=
        Response.ofOpened_output rfl
      rw [hout, hslow, hfirst, ← hbeyond, List.flatten_append]
      exact List.prefix_append _ _
    · rintro front rest rfl hclosed hcount rest'
      -- the lines of the front are the first lines of the input, up to the one that fails
      rw [List.length_map] at hcount
      have hlen := hclosed.length_inputLines
      have hsplit := hclosed.inputLines_append rest
      rw [hfirst, List.append_cons] at hsplit
      have hfront : inputLines front = first ++ [last] := by
        refine (List.append_inj hsplit ?_).1.symm
        rw [hlen, hcount, List.length_append, List.length_singleton]
      have hrest : inputLines (front ++ rest') = first ++ last :: inputLines rest' := by
        rw [hclosed.inputLines_append, hfront, ← List.append_cons]
      exact Response.ofInput_congr hfirst h hrest

/-- A run that is to fail fast ends behind an ill-formed line, in front of a line at which the other
run stops. -/
theorem failFast_isCut_illFormed :
    ((Response.ofInput ⟨none, false, true, false⟩ true [0x31, 0x0a, 0x32]).output =
        (Response.ofInput ⟨none, false, true, false⟩ false [0x31, 0x0a, 0x32]).output ∧
      (Response.ofInput ⟨none, false, true, false⟩ true [0x31, 0x0a, 0x32]).exitStatus = 0) ∧
    (∃ entries, IsReport "stdin".toList 0 ["1".toList, "\ufffd".toList] entries ∧
      (Response.ofInput ⟨none, false, true, false⟩ true
        ([0x31, 0x0d, 0x0a, 0xff, 0x0a] ++ farStray 65533)).output = entries.flatten ∧
      (Response.ofInput ⟨none, false, true, false⟩ true
        ([0x31, 0x0d, 0x0a, 0xff, 0x0a] ++ farStray 65533)).exitStatus = 1) ∧
    Response.ofInput ⟨none, false, true, false⟩ true ([0x31, 0x0d, 0x0a, 0xff, 0x0a] ++ [0x32]) =
      Response.ofInput ⟨none, false, true, false⟩ true
        ([0x31, 0x0d, 0x0a, 0xff, 0x0a] ++ farStray 65533) := by
  have h1 : IsAccepted "1".toList :=
    ⟨[⟨.number, some (.ofBits 0x3ff0000000000000), ⟨0, 1⟩⟩, Token.atEnd 1], by decide +kernel⟩
  have h2 : IsAccepted "2".toList :=
    ⟨[⟨.number, some (.ofBits 0x4000000000000000), ⟨0, 1⟩⟩, Token.atEnd 1], by decide +kernel⟩
  have hbad : tokenize "\ufffd".toList = .error ⟨.unexpectedCharacter '\ufffd', 0⟩ := by
    decide +kernel
  have hboth : lineTexts [0x31, 0x0a, 0x32] = ["1".toList, "2".toList] := by
    decide +kernel
  have haccepted : ∀ line ∈ lineTexts [0x31, 0x0a, 0x32], IsAccepted line := by
    rw [hboth]
    exact List.forall_mem_cons.mpr ⟨h1, List.forall_mem_singleton.mpr h2⟩
  have hclosed : IsClosed [0x31, 0x0d, 0x0a, 0xff, 0x0a] := by decide
  have hlines : ∀ rest, lineTexts ([0x31, 0x0d, 0x0a, 0xff, 0x0a] ++ rest) =
      ["1".toList] ++ "\ufffd".toList :: lineTexts rest := by
    intro rest
    have hfront : lineTexts [0x31, 0x0d, 0x0a, 0xff, 0x0a] = ["1".toList, "\ufffd".toList] := by
      decide +kernel
    unfold lineTexts at hfront ⊢
    rw [hclosed.inputLines_append, List.map_append, hfront]
    rfl
  obtain ⟨hout, hexit, -⟩ := (failFast_isCut ⟨none, false, true, false⟩ _).1 haccepted
  obtain ⟨⟨entries, hr, hentries, -, hone⟩, hsame⟩ :=
    (failFast_isCut ⟨none, false, true, false⟩ _).2 _ _ _ _ (hlines _)
      (List.forall_mem_singleton.mpr h1) hbad ⟨_, rfl⟩
  exact ⟨⟨hout, hexit⟩, ⟨entries, hr, hentries, hone⟩, hsame _ _ rfl hclosed rfl _⟩

end ArithTokens.Command
