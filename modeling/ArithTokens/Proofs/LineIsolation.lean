import ArithTokens.Proofs.ClosedInputs
import ArithTokens.Proofs.ReportAndContinue

/-!
# Line isolation

A run that is not to fail fast carries nothing from one line to the next but the number of lines.
So what it writes for an input behind a closed one is a report of that input alone, and any other
closed input with as many lines could stand in front of it.

    IsClosed a, IsClosed a', a.count lineFeed = a'.count lineFeed →
      output (a ++ b) = output a ++ x and output (a' ++ b) = output a' ++ x, where x is the report
      of the lines of b                                               (output_append_of_isClosed)
-/

namespace ArithTokens.Command

/-! ## Reports -/

/-- A line has one entry, whatever stands before it. -/
theorem IsEntry.unique {origin : Text} {linesBefore : Nat} {line entry entry' : Text}
    (h : IsEntry origin linesBefore line entry) (h' : IsEntry origin linesBefore line entry') :
    entry = entry' := by
  cases h with
  | tokens ht =>
    cases h' with
    | tokens ht' =>
      rw [ht] at ht'
      cases ht'
      rfl
    | diagnostic he' _ =>
      rw [ht] at he'
      cases he'
  | diagnostic he hs =>
    cases h' with
    | tokens ht' =>
      rw [he] at ht'
      cases ht'
    | diagnostic he' hs' =>
      rw [he] at he'
      cases he'
      rw [hs] at hs'
      exact Except.ok.inj hs'

theorem IsReport.unique {origin : Text} {linesBefore : Nat} {lines entries entries' : List Text}
    (h : IsReport origin linesBefore lines entries)
    (h' : IsReport origin linesBefore lines entries') : entries = entries' := by
  induction h generalizing entries' with
  | nil =>
    cases h'
    rfl
  | cons he _ ih =>
    cases h' with
    | cons he' hs' => rw [he.unique he', ih hs']

/-! ## Diagnostics of an input -/

/-- Every error in a line of the input has a diagnostic. -/
def HasDiagnostics (origin : Text) (octets : List UInt8) : Prop :=
  ∀ linesBefore line e, (lineTexts octets)[linesBefore]? = some line → tokenize line = .error e →
    ∃ shown, e.diagnostic line origin linesBefore = .ok shown

theorem lineFeed_notMem_of_mem_lineTexts {octets : List UInt8} {line : Text}
    (h : line ∈ lineTexts octets) : '\n' ∉ line := by
  obtain ⟨line, hline, rfl⟩ := List.mem_map.mp h
  exact lineFeed_notMem_textOf_inputLines hline

theorem HasDiagnostics.isShowable {origin : Text} {octets : List UInt8}
    (h : HasDiagnostics origin octets) : ∀ line ∈ lineTexts octets, IsShowable line := by
  intro line hline e he
  obtain ⟨k, hk⟩ := List.mem_iff_getElem?.mp hline
  apply (LexError.exists_diagnostic_iff (lineFeed_notMem_of_mem_lineTexts hline) he origin k).mp
  exact h k line e hk he

/-- A caret cannot be further on than its line is long. -/
theorem hasDiagnostics_of_length_lt {octets : List UInt8}
    (h : ∀ line ∈ lineTexts octets, line.length < Diagnostic.greatestWidth) (origin : Text) :
    HasDiagnostics origin octets := by
  intro k line e hk he
  have hline : line ∈ lineTexts octets := List.mem_of_getElem? hk
  have hlen := h line hline
  have hp := position_le_of_tokenize_eq_error he
  apply (LexError.exists_diagnostic_iff (lineFeed_notMem_of_mem_lineTexts hline) he origin k).mpr
  show e.position - Diagnostic.indentation line < Diagnostic.greatestWidth
  omega

/-! ## Inputs put together -/

section
variable {settings : Settings} {a b : List UInt8} (ha : IsClosed a)
  (h : HasDiagnostics settings.origin (a ++ b))
include ha h

theorem HasDiagnostics.forall_mem_inputLines :
    (∀ line ∈ inputLines a, IsShowable (Utf8.textOf line)) ∧
      ∀ line ∈ inputLines b, IsShowable (Utf8.textOf line) := by
  have hs := List.forall_mem_map.mp h.isShowable
  rw [ha.inputLines_append] at hs
  exact List.forall_mem_append.mp hs

/-- Behind a closed input a run goes on as if it started there, the number of lines apart. -/
theorem Response.output_append (hf : settings.failFast = false) :
    (ofOpened settings (.octets (a ++ b))).output =
      (ofOpened settings (.octets a)).output ++
        (Run.after settings.origin (a.count lineFeed) (inputLines b)).output.flatten := by
  have hl : ∀ line ∈ inputLines a, '\n' ∉ Utf8.textOf line := fun _ =>
    lineFeed_notMem_textOf_inputLines
  have hs := (h.forall_mem_inputLines ha).1
  obtain ⟨entries, hr, hout, -⟩ := Run.after_append hl hs settings.origin 0 (inputLines b)
  have hentries : entries = (Run.after settings.origin 0 (inputLines a)).output :=
    hr.unique (Run.isReport_after hl hs settings.origin 0).1
  rw [Nat.zero_add, ha.length_inputLines] at hout
  rw [ofOpened_output hf, ofOpened_output hf, ha.inputLines_append, hout, hentries,
    List.flatten_append]

end

/-! ## Top theorem -/

/-- **What is written for an input behind other lines depends on their number only.** -/
theorem output_append_of_isClosed (settings : Settings) (hf : settings.failFast = false)
    {a a' : List UInt8} (ha : IsClosed a) (ha' : IsClosed a')
    (hcount : a.count lineFeed = a'.count lineFeed) (b : List UInt8)
    (h : HasDiagnostics settings.origin (a ++ b)) (h' : HasDiagnostics settings.origin (a' ++ b)) :
    ∃ entries, IsReport settings.origin (a.count lineFeed) (lineTexts b) entries ∧
      (Response.ofOpened settings (.octets (a ++ b))).output =
        (Response.ofOpened settings (.octets a)).output ++ entries.flatten ∧
      (Response.ofOpened settings (.octets (a' ++ b))).output =
        (Response.ofOpened settings (.octets a')).output ++ entries.flatten := by
  have hl : ∀ line ∈ inputLines b, '\n' ∉ Utf8.textOf line := fun _ =>
    lineFeed_notMem_textOf_inputLines
  have hs := (h.forall_mem_inputLines ha).2
  refine ⟨_, (Run.isReport_after hl hs settings.origin (a.count lineFeed)).1, ?_, ?_⟩
  · exact Response.output_append ha h hf
  · rw [hcount]
    exact Response.output_append ha' h' hf

/-- A line of ill-formed octets and a line of tokens can stand in for each other. -/
theorem output_append_illFormed :
    IsClosed [0xff, 0x0a] ∧ IsClosed [0x31, 0x2b, 0x32, 0x0d, 0x0a] ∧
      HasDiagnostics "stdin".toList ([0xff, 0x0a] ++ [0x20, 0x24, 0x0a, 0x33]) ∧
      HasDiagnostics "stdin".toList ([0x31, 0x2b, 0x32, 0x0d, 0x0a] ++ [0x20, 0x24, 0x0a, 0x33]) ∧
      ∃ entries, IsReport "stdin".toList 1 [" $".toList, "3".toList] entries ∧
        (Response.ofOpened ⟨none, false, true, false⟩
            (.octets ([0xff, 0x0a] ++ [0x20, 0x24, 0x0a, 0x33]))).output =
          (Response.ofOpened ⟨none, false, true, false⟩ (.octets [0xff, 0x0a])).output ++
            entries.flatten ∧
        (Response.ofOpened ⟨none, false, true, false⟩
            (.octets ([0x31, 0x2b, 0x32, 0x0d, 0x0a] ++ [0x20, 0x24, 0x0a, 0x33]))).output =
          (Response.ofOpened ⟨none, false, true, false⟩
            (.octets [0x31, 0x2b, 0x32, 0x0d, 0x0a])).output ++ entries.flatten := by
  have ha : IsClosed [0xff, 0x0a] := by decide
  have ha' : IsClosed [0x31, 0x2b, 0x32, 0x0d, 0x0a] := by decide
  have h : HasDiagnostics "stdin".toList ([0xff, 0x0a] ++ [0x20, 0x24, 0x0a, 0x33]) :=
    hasDiagnostics_of_length_lt (by decide +kernel) _
  have h' : HasDiagnostics "stdin".toList
      ([0x31, 0x2b, 0x32, 0x0d, 0x0a] ++ [0x20, 0x24, 0x0a, 0x33]) :=
    hasDiagnostics_of_length_lt (by decide +kernel) _
  have hlines : lineTexts [0x20, 0x24, 0x0a, 0x33] = [" $".toList, "3".toList] := by
    decide +kernel
  have happ := output_append_of_isClosed ⟨none, false, true, false⟩ rfl ha ha' rfl
    [0x20, 0x24, 0x0a, 0x33] h h'
  rw [hlines] at happ
  exact ⟨ha, ha', h, h', happ⟩

end ArithTokens.Command
