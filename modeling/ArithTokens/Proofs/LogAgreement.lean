import ArithTokens.Proofs.Caret
import ArithTokens.Proofs.FinishedRuns
import ArithTokens.Proofs.Listing
import ArithTokens.Proofs.LogLines

/-!
# The log and the output

A verbose run tells everything twice: for each line there is an entry in the output and a line in
the log.  Taken one by one they agree.  The line of the log has the number of the line; it gives the
number of tokens where the entry is a list of so many, and tells of a failure where the entry is a
diagnostic, and then the diagnostic names the same line.  The last line of the log counts the
diagnostics, unless the run was cut off behind the first of them.

    a run with no failure of its own → its log and its entries agree, and without `verbose` the log
      has the warnings of the same log, and nothing else is different             (log_agrees)

Entries are told apart by their text alone: no diagnostic is a list of tokens, and no list of tokens
is one of another length.  The text of the log is made of `LogLine`s.
-/

namespace ArithTokens

/-! ## Definitions -/

namespace Command

/-- Whether a line of the log says what came of a line of the input. -/
def LogLine.isOfLine (l : LogLine) : Bool :=
  l.level ≠ .info ∧ l ≠ .replaced

/-- The text is a list of this many tokens. -/
def IsListing (count : Nat) (entry : Text) : Prop :=
  ∃ tokens : List Token, tokens.length = count ∧ entry = Token.listText tokens ++ ['\n']

def isDiagnostic (entry : Text) : Bool :=
  "Error: ".toList.isPrefixOf entry

/-- The second line of the text names this line. -/
def IsLocatedAt (origin : Text) (line : Nat) (entry : Text) : Prop :=
  ∃ heading rest, '\n' ∉ heading ∧
    entry = heading ++ '\n' :: ("-> ".toList ++ origin ++ ':' :: Text.ofNat line ++ '\n' :: rest)

/-- A line of the log and an entry tell the same about the line with this number. -/
structure Agree (origin : Text) (number : Nat) (told : LogLine) (entry : Text) : Prop where
  line : told.values.head? = some ("line", Text.ofNat number)
  tokenized : ∀ count, told = .tokenized number count ↔ IsListing count entry
  failed : (∃ error, told = .failed number error) ↔ isDiagnostic entry = true
  location : isDiagnostic entry = true → ∀ m, IsLocatedAt origin m entry ↔ m = number

/-- A log and the entries of lines that come after `linesBefore` other lines agree, one by one. -/
inductive AgreeFrom (origin : Text) : Nat → List LogLine → List Text → Prop
  | nil {linesBefore : Nat} : AgreeFrom origin linesBefore [] []
  | cons {linesBefore : Nat} {told : LogLine} {entry : Text} {log : List LogLine}
      {entries : List Text} :
      Agree origin (linesBefore + 1) told entry →
      AgreeFrom origin (linesBefore + 1) log entries →
      AgreeFrom origin linesBefore (told :: log) (entry :: entries)

/-- Whether a run with these entries was cut off by a failure. -/
def isCut (failFast : Bool) (entries : List Text) : Bool :=
  failFast && entries.any isDiagnostic

/-- The lines of the log are these. -/
def Response.HasLog (r : Response) (colored : Bool) (log : List LogLine) : Prop :=
  ∀ time, r.logText time = Text.ofLines (log.map (·.toText colored time))

/-- The log of a response tells the same as its output, which is made of these entries. -/
structure Response.IsTold (r : Response) (settings : Settings) (lines : List Text)
    (log : List LogLine) (entries : List Text) : Prop where
  hasLog : r.HasLog (!settings.noColor) log
  output : r.output = entries.flatten
  /-- As many lines as there are entries have been processed. -/
  report : IsReport settings.origin 0 (lines.take entries.length) entries
  agree : AgreeFrom settings.origin 0 (log.filter LogLine.isOfLine) entries
  info : log.filter (fun l => l.level = .info) = .reading settings.origin ::
    if isCut settings.failFast entries then [] else [.done (entries.countP isDiagnostic)]
  last : ∀ failures, .done failures ∈ log → log.getLast? = some (.done failures)
  exitStatus : r.exitStatus = if isCut settings.failFast entries then 1 else 0
  complete : isCut settings.failFast entries = false → entries.length = lines.length

/-- One response is the other one, which has this log, without what is only told when the log is
verbose. -/
structure Response.IsQuieter (q r : Response) (settings : Settings) (log : List LogLine) : Prop where
  hasLog : q.HasLog (!settings.noColor)
    (log.filter fun l => l.level ≠ .info ∧ l.level ≠ .debug)
  output : q.output = r.output
  failure : q.failure = r.failure
  exitStatus : q.exitStatus = r.exitStatus

def Settings.loud (settings : Settings) : Settings :=
  { settings with verbose := true }

def Settings.quiet (settings : Settings) : Settings :=
  { settings with verbose := false }

end Command

/-! ## Diagnostics -/

/-- A diagnostic starts with its heading, and names its line right behind it. -/
theorem LexError.diagnostic_eq_heading_append {origin line : Text} {linesBefore : Nat}
    (hl : '\n' ∉ line) {e : LexError}
    (he : tokenize line = .error e) {shown : Text}
    (hs : e.diagnostic line origin linesBefore = .ok shown) :
    ∃ rest, shown = Diagnostic.heading e.cause ++
      '\n' :: (Diagnostic.location origin (linesBefore + 1) ++ '\n' :: rest) := by
  unfold diagnostic at hs
  rw [Place.find?_line hl (position_le_of_tokenize_eq_error he)] at hs
  simp only at hs
  split at hs
  · cases hs
  · cases hs
    rw [Nat.add_comm 1]
    refine ⟨Text.ofLines (Diagnostic.excerpt (linesBefore + 1) ⟨1, line, e.position⟩), ?_⟩
    simp [Text.ofLines]

namespace Command

/-! ## Entries by their text -/

theorem isDiagnostic_listing (tokens : List Token) :
    isDiagnostic (Token.listText tokens ++ ['\n']) = false := rfl

theorem IsListing.isDiagnostic_eq_false {count : Nat} {entry : Text} (h : IsListing count entry) :
    isDiagnostic entry = false := by
  obtain ⟨tokens, -, rfl⟩ := h
  exact isDiagnostic_listing tokens

theorem isListing_listText_iff {tokens : List Token} {count : Nat} :
    IsListing count (Token.listText tokens ++ ['\n']) ↔ tokens.length = count := by
  constructor
  · rintro ⟨tokens', rfl, h⟩
    have hmap := Token.listText_eq_iff_map.mp (List.append_cancel_right h)
    simpa using congrArg List.length hmap
  · rintro rfl
    exact ⟨tokens, rfl, rfl⟩

theorem isDiagnostic_heading_append (cause : Cause) (rest : Text) :
    isDiagnostic (Diagnostic.heading cause ++ rest) = true := by
  unfold isDiagnostic Diagnostic.heading
  rw [List.isPrefixOf_iff_prefix, List.append_assoc, List.append_assoc]
  exact List.prefix_append _ _

/-- A text names one line only. -/
theorem isLocatedAt_iff {origin heading rest : Text} {line m : Nat} (h : '\n' ∉ heading) :
    IsLocatedAt origin m
        (heading ++ '\n' :: (Diagnostic.location origin line ++ '\n' :: rest)) ↔ m = line := by
  constructor
  · rintro ⟨heading', rest', h', he⟩
    obtain ⟨-, hrest⟩ := Text.append_cons_inj h h' he
    simp only [Diagnostic.location, List.append_assoc, List.cons_append] at hrest
    -- the origin may have line feeds, but it is the same in both
    obtain ⟨-, hline⟩ :=
      List.cons.inj (List.append_cancel_left (List.append_cancel_left hrest))
    have hnumber := Text.append_cons_inj (Text.lineFeed_notMem_ofNat line)
      (Text.lineFeed_notMem_ofNat m) hline
    exact (Text.ofNat_inj hnumber.1).symm
  · rintro rfl
    exact ⟨heading, rest, h, rfl⟩

/-! ## A line -/

section
variable {origin line : Text} {linesBefore : Nat}

theorem agree_tokens (number : Nat) (tokens : List Token) :
    Agree origin number (.tokenized number tokens.length) (Token.listText tokens ++ ['\n']) where
  line := rfl
  tokenized := by
    intro count
    rw [isListing_listText_iff]
    exact ⟨LogLine.tokenized_inj, fun h => congrArg _ h⟩
  failed := by
    rw [isDiagnostic_listing]
    exact iff_of_false (fun ⟨_, h⟩ => LogLine.tokenized_ne_failed h) Bool.false_ne_true
  location := by
    rw [isDiagnostic_listing]
    rintro ⟨⟩

theorem agree_diagnostic (hl : '\n' ∉ line) {e : LexError} (he : tokenize line = .error e)
    {shown : Text} (hs : e.diagnostic line origin linesBefore = .ok shown) :
    Agree origin (linesBefore + 1) (.failed (linesBefore + 1) e.message) shown := by
  obtain ⟨rest, rfl⟩ := LexError.diagnostic_eq_heading_append hl he hs
  have hheading := Diagnostic.lineFeed_notMem_heading (lineFeed_notMem_tip he)
  have hdiagnostic := isDiagnostic_heading_append e.cause
  constructor
  · rfl
  · intro count
    refine iff_of_false (fun h => LogLine.tokenized_ne_failed h.symm) fun hlist => ?_
    have hfalse := hlist.isDiagnostic_eq_false
    rw [hdiagnostic] at hfalse
    cases hfalse
  · exact iff_of_true ⟨e.message, rfl⟩ (hdiagnostic _)
  · exact fun _ m => isLocatedAt_iff hheading

end

/-! ## Entries of a run -/

namespace Entry

/-- Diagnostics are those entries that come of failures, in number and at all. -/
theorem count_isDiagnostic {entries : List Entry}
    (h : ∀ e ∈ entries, isDiagnostic e.text = e.isFailure) :
    (entries.map text).countP isDiagnostic = entries.countP isFailure ∧
      (entries.map text).any isDiagnostic = entries.any isFailure := by
  induction entries with
  | nil => exact ⟨rfl, rfl⟩
  | cons e entries ih =>
    obtain ⟨he, hes⟩ := List.forall_mem_cons.mp h
    obtain ⟨hcount, hany⟩ := ih hes
    rw [List.map_cons, List.countP_cons, List.countP_cons, List.any_cons, List.any_cons, he, hcount,
      hany]
    exact ⟨rfl, rfl⟩

/-- The entry of a line that is written is a list of tokens with its event, or a diagnostic. -/
theorem isEntry_and_agree {origin : Text} {n : Nat} {octets : List UInt8}
    (hl : '\n' ∉ Utf8.textOf octets) (hw : ∃ s, (ofLine origin n octets).written = .ok s) :
    IsEntry origin n (Utf8.textOf octets) (ofLine origin n octets).text ∧
      Agree origin (n + 1) (ofLine origin n octets).event.logLine (ofLine origin n octets).text ∧
      isDiagnostic (ofLine origin n octets).text = (ofLine origin n octets).isFailure := by
  obtain ⟨s, hs⟩ := hw
  unfold text
  rw [hs]
  unfold ofLine at hs
  unfold event isFailure ofLine
  simp only at hs ⊢
  cases ha : tokenize (Utf8.textOf octets) with
  | ok tokens =>
    rw [ha] at hs
    cases hs
    exact ⟨.tokens ha, agree_tokens (n + 1) tokens, isDiagnostic_listing tokens⟩
  | error e =>
    rw [ha] at hs
    simp only at hs
    have hagree := agree_diagnostic hl ha hs
    exact ⟨.diagnostic ha hs, hagree, hagree.failed.mp ⟨e.message, rfl⟩⟩

section
variable {lines : List (List UInt8)} (hl : ∀ octets ∈ lines, '\n' ∉ Utf8.textOf octets)
  {origin : Text} {n : Nat} (hw : ∀ e ∈ after origin n lines, ∃ s, e.written = .ok s)
include hl hw

/-- The entries of lines, as far as a run writes them, agree with their events. -/
theorem agreeFrom_after :
    IsReport origin n (lines.map Utf8.textOf) ((after origin n lines).map text) ∧
      AgreeFrom origin n ((after origin n lines).map fun e => e.event.logLine)
        ((after origin n lines).map text) ∧
      ∀ e ∈ after origin n lines, isDiagnostic e.text = e.isFailure := by
  induction lines generalizing n with
  | nil => exact ⟨.nil, .nil, fun _ h => absurd h List.not_mem_nil⟩
  | cons octets more ih =>
    rw [after_cons] at hw ⊢
    obtain ⟨hoctets, hmore⟩ := List.forall_mem_cons.mp hl
    obtain ⟨hfirst, hrest⟩ := List.forall_mem_cons.mp hw
    obtain ⟨hentry, hagree, hkind⟩ := isEntry_and_agree hoctets hfirst
    obtain ⟨hreport, hagrees, hkinds⟩ := ih hmore hrest
    exact ⟨.cons hentry hreport, .cons hagree hagrees, List.forall_mem_cons.mpr ⟨hkind, hkinds⟩⟩

end

end Entry

/-! ## Lines of the log -/

namespace Event

theorem isOfLine_logLine (e : Event) : e.logLine.isOfLine = e.isOfLine := by
  unfold LogLine.isOfLine isOfLine
  rw [level_logLine]
  cases e <;> rfl

theorem filter_isOfLine_logLine (events : List Event) :
    (events.map logLine).filter LogLine.isOfLine = (events.filter isOfLine).map logLine := by
  rw [List.filter_map]
  exact congrArg _ (List.filter_congr fun e _ => e.isOfLine_logLine)

theorem filter_level_logLine (p : Level → Bool) (events : List Event) :
    (events.map logLine).filter (fun l => p l.level) =
      (events.filter fun e => p e.level).map logLine := by
  rw [List.filter_map]
  exact congrArg _ (List.filter_congr fun e _ => congrArg p e.level_logLine)

theorem exists_of_logLine_eq_done {e : Event} {failures : Nat} (h : e.logLine = .done failures) :
    ∃ n, e = .done n := by
  cases e with
  | reading origin =>
    have hmessage : "reading expressions" = "done" := congrArg LogLine.message h
    exact absurd hmessage (by decide)
  | done n => exact ⟨n, rfl⟩
  | replaced => cases congrArg LogLine.level h
  | tokenized line count => cases congrArg LogLine.level h
  | failed line error => cases congrArg LogLine.level h

end Event

/-! ## Responses -/

namespace Response

/-- The log of a response is made of the lines of its events, if nothing has failed. -/
theorem hasLog_of_failure {r : Response} (h : r.failure = none) :
    r.HasLog r.colored (r.events.map Event.logLine) := by
  intro time
  unfold logText
  rw [h, List.map_map]
  simp only [Event.toText_eq]
  exact List.append_nil _

/-- A verbose log keeps all events. -/
theorem ofOpened_loud_events (settings : Settings) (octets : List UInt8) :
    (ofOpened settings.loud (.octets octets)).events = .reading settings.origin ::
      (Run.ofEntries settings.loud.failFast
        (Entry.ofLines settings.loud.origin (inputLines octets))).events :=
  List.filter_eq_self.mpr fun _ _ => rfl

variable {settings : Settings} {octets : List UInt8}

theorem isTold (h : (ofOpened settings.loud (.octets octets)).failure = none) :
    ∃ entries, (ofOpened settings.loud (.octets octets)).IsTold settings (lineTexts octets)
      ((ofOpened settings.loud (.octets octets)).events.map Event.logLine) entries := by
  obtain ⟨first, more, hlines, hover, hmore⟩ := exists_isOver h
  have hl : ∀ octets ∈ first ++ more, '\n' ∉ Utf8.textOf octets := by
    rw [← hlines]
    exact fun _ => lineFeed_notMem_textOf_inputLines
  obtain ⟨hreport, hagree, hkinds⟩ :=
    Entry.agreeFrom_after (List.forall_mem_append.mp hl).1 hover.written
  obtain ⟨hcount, hany⟩ := Entry.count_isDiagnostic hkinds
  have hlen : ((Entry.after settings.loud.origin 0 first).map Entry.text).length =
      first.length := by
    rw [List.length_map, Entry.length_after]
  have hevents := ofOpened_loud_events settings octets
  refine ⟨(Entry.after settings.loud.origin 0 first).map Entry.text, ?_⟩
  constructor
  · exact hasLog_of_failure h
  · exact congrArg List.flatten hover.output
  · rw [hlen, lineTexts, hlines, List.map_append, List.take_left' (List.length_map _)]
    exact hreport
  · rw [Event.filter_isOfLine_logLine, hevents,
      List.filter_cons_of_neg (by simp [Event.isOfLine, Event.level]), hover.filter_isOfLine,
      List.map_map]
    exact hagree
  · rw [Event.filter_level_logLine (· = .info), hevents, List.filter_cons_of_pos (by rfl),
      hover.filter_info, isCut, hany, hcount, List.map_cons, apply_ite (List.map Event.logLine)]
    rfl
  · intro failures hdone
    obtain ⟨e, hmem, he⟩ := List.mem_map.mp hdone
    obtain ⟨n, rfl⟩ := Event.exists_of_logLine_eq_done he
    rw [hevents] at hmem ⊢
    rcases List.mem_cons.mp hmem with ⟨⟨⟩⟩ | hmem
    rw [List.getLast?_map, List.getLast?_cons, hover.getLast?_of_done hmem, ← he]
    rfl
  · rw [isCut, hany]
    exact hover.exitStatus_ofRun settings.loud
  · intro hcut
    rw [isCut, hany] at hcut
    rw [hlen, lineTexts, List.length_map, hlines, hmore hcut, List.append_nil]

theorem isQuieter (h : (ofOpened settings.loud (.octets octets)).failure = none) :
    (ofOpened settings.quiet (.octets octets)).IsQuieter
      (ofOpened settings.loud (.octets octets)) settings
      ((ofOpened settings.loud (.octets octets)).events.map Event.logLine) := by
  have hevents : (ofOpened settings.quiet (.octets octets)).events =
      (ofOpened settings.loud (.octets octets)).events.filter
        fun e => e.level ≠ .info ∧ e.level ≠ .debug := by
    unfold ofOpened ofRun
    rw [List.filter_filter]
    refine List.filter_congr fun e _ => ?_
    cases e <;> rfl
  have hnone : (ofOpened settings.quiet (.octets octets)).failure = none := h
  have hlog := hasLog_of_failure hnone
  rw [hevents, ← Event.filter_level_logLine fun v => v ≠ .info ∧ v ≠ .debug] at hlog
  exact ⟨hlog, rfl, rfl, rfl⟩

end Response

/-! ## Top theorem -/

/-- **The log and the output tell the same story.** -/
theorem log_agrees (settings : Settings) (octets : List UInt8)
    (h : (Response.ofOpened settings.loud (.octets octets)).failure = none) :
    ∃ log entries,
      (Response.ofOpened settings.loud (.octets octets)).IsTold settings (lineTexts octets) log
        entries ∧
      (Response.ofOpened settings.quiet (.octets octets)).IsQuieter
        (Response.ofOpened settings.loud (.octets octets)) settings log := by
  obtain ⟨entries, htold⟩ := Response.isTold h
  exact ⟨_, entries, htold, Response.isQuieter h⟩

/-- A run goes on behind the failures of a stray character and of an ill-formed line, or ends with
the first of them. -/
theorem log_agrees_mixed :
    ((Response.ofOpened (Settings.loud ⟨none, false, true, false⟩)
        (.octets [0x31, 0x0a, 0x20, 0x24, 0x0d, 0x0a, 0xff, 0x0a, 0x0a])).failure = none ∧
      ∃ log entries, (Response.ofOpened (Settings.loud ⟨none, false, true, false⟩)
          (.octets [0x31, 0x0a, 0x20, 0x24, 0x0d, 0x0a, 0xff, 0x0a, 0x0a])).IsTold
        ⟨none, false, true, false⟩ ["1".toList, " $".toList, "\ufffd".toList, []] log entries) ∧
    (Response.ofOpened (Settings.loud ⟨none, false, true, true⟩)
        (.octets [0x31, 0x0a, 0x20, 0x24, 0x0d, 0x0a, 0xff, 0x0a, 0x0a])).failure = none ∧
      ∃ log entries, (Response.ofOpened (Settings.loud ⟨none, false, true, true⟩)
          (.octets [0x31, 0x0a, 0x20, 0x24, 0x0d, 0x0a, 0xff, 0x0a, 0x0a])).IsTold
        ⟨none, false, true, true⟩ ["1".toList, " $".toList, "\ufffd".toList, []] log entries := by
  have hlines : lineTexts [0x31, 0x0a, 0x20, 0x24, 0x0d, 0x0a, 0xff, 0x0a, 0x0a] =
      ["1".toList, " $".toList, "\ufffd".toList, []] := by
    decide +kernel
  have hslow : (Response.ofOpened (Settings.loud ⟨none, false, true, false⟩)
      (.octets [0x31, 0x0a, 0x20, 0x24, 0x0d, 0x0a, 0xff, 0x0a, 0x0a])).failure = none := by
    decide +kernel
  have hfast : (Response.ofOpened (Settings.loud ⟨none, false, true, true⟩)
      (.octets [0x31, 0x0a, 0x20, 0x24, 0x0d, 0x0a, 0xff, 0x0a, 0x0a])).failure = none := by
    decide +kernel
  obtain ⟨log, entries, htold, -⟩ := log_agrees _ _ hslow
  obtain ⟨log', entries', htold', -⟩ := log_agrees _ _ hfast
  rw [hlines] at htold htold'
  exact ⟨⟨hslow, log, entries, htold⟩, hfast, log', entries', htold'⟩

-- a number and the end token, then a stray character
example : (Response.ofOpened ⟨none, true, true, false⟩ (.octets [0x31, 0x0a, 0x24])).logText
      "now".toList =
    ["now  INFO reading expressions origin=stdin\n",
      "now DEBUG tokenized line=1 tokens=2\n",
      "now  WARN failed to tokenize line=2 error=unexpected character: '$' at position 0\n",
      "now  INFO done failures=1\n"].flatMap String.toList := by
  decide +kernel

end Command

end ArithTokens
