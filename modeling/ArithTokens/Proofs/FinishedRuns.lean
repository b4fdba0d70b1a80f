import ArithTokens.Proofs.FailFast

/-!
# Finished runs

A run that does not fail itself has gone through some first entries.  It has written them all, and
it has left their events behind, in their order.  These are all entries, and then the run ends with
the number of failures; or the run was to fail fast, and these are the entries up to the first
failure.

    the run has no failure of its own → it is over some first entries, and these are all entries
      unless it was to fail fast and there is a failure among them             (Run.exists_isOver)

Of the events of a line exactly one says what came of the line.
-/

namespace ArithTokens.Command

/-! ## Definitions -/

/-- Whether an event is one of those that say what came of a line. -/
def Event.isOfLine (e : Event) : Bool :=
  e.level ≠ .info ∧ e ≠ .replaced

/-- The event of an entry that says what came of the line. -/
def Entry.event (e : Entry) : Event :=
  match e.answer with
  | .ok tokens => .tokenized e.line tokens.length
  | .error error => .failed e.line error

/-- The run has gone through these entries, and has written all of them. -/
structure Run.IsOver (run : Run) (failFast : Bool) (entries : List Entry) : Prop where
  written : ∀ e ∈ entries, ∃ s, e.written = .ok s
  output : run.output = entries.map Entry.text
  events : run.events = entries.flatMap Entry.events ++
    if failFast && entries.any Entry.isFailure then [] else [.done (entries.countP Entry.isFailure)]
  ending : run.ending =
    if failFast && entries.any Entry.isFailure then .failedFast else .complete

/-! ## Entries -/

namespace Entry

theorem filter_isOfLine_events (e : Entry) : e.events.filter Event.isOfLine = [e.event] := by
  unfold events event
  cases e.isWellFormed <;> cases e.answer <;> rfl

theorem level_of_mem_events (e : Entry) : ∀ event ∈ e.events, event.level ≠ .info := by
  unfold events
  cases e.isWellFormed <;> cases e.answer <;> simp [Event.level]

/-- The first entries are those of the first lines. -/
theorem exists_of_after_eq_append {origin : Text} {n : Nat} {lines : List (List UInt8)}
    {done rest : List Entry} (h : after origin n lines = done ++ rest) :
    ∃ first more, lines = first ++ more ∧ done = after origin n first ∧
      rest = after origin (n + first.length) more := by
  obtain ⟨front, back, hsplit, rfl, rfl⟩ := List.map_eq_append_iff.mp h
  obtain ⟨first, more, rfl, rfl, rfl⟩ := List.zipIdx_eq_append_iff.mp hsplit
  exact ⟨first, more, rfl, rfl, rfl⟩

theorem written_of_not_stops {failFast : Bool} {e : Entry} (h : e.stops failFast = false) :
    (∃ s, e.written = .ok s) ∧ (failFast && e.isFailure) = false := by
  unfold stops at h
  cases hw : e.written with
  | error limit =>
    rw [hw] at h
    cases h
  | ok s =>
    rw [hw] at h
    exact ⟨⟨s, rfl⟩, h⟩

theorem isFailure_of_not_stops {failFast : Bool} {entries : List Entry}
    (h : ∀ e ∈ entries, e.stops failFast = false) :
    (failFast && entries.any isFailure) = false := by
  cases failFast with
  | false => rfl
  | true =>
    refine List.any_eq_false.mpr fun e he => ?_
    simpa using (written_of_not_stops (h e he)).2

theorem stops_of_written_eq_ok {failFast : Bool} {e : Entry} {s : Text}
    (h : e.written = .ok s) : e.stops failFast = (failFast && e.isFailure) := by
  unfold stops
  rw [h]

end Entry

/-! ## Runs -/

theorem Run.ending_of_written_eq_error {failFast : Bool} {before : List Entry}
    (h : ∀ e ∈ before, e.stops failFast = false) {last : Entry} {limit : Limit}
    (hw : last.written = .error limit) (more : List Entry) :
    (ofEntries failFast (before ++ last :: more)).ending = .outOfLimit limit := by
  have hstop : ¬(!last.stops failFast) = true := by
    unfold Entry.stops
    simp [hw]
  unfold ofEntries
  rw [List.dropWhile_append_of_pos (Entry.not_stops h), List.dropWhile_cons, if_neg hstop]
  simp only [hw]

theorem Run.isOver_of_not_stops {failFast : Bool} {entries : List Entry}
    (h : ∀ e ∈ entries, e.stops failFast = false) :
    (ofEntries failFast entries).IsOver failFast entries := by
  have hcut := Entry.isFailure_of_not_stops h
  rw [ofEntries_of_not_stops h]
  constructor
  · exact fun e he => (Entry.written_of_not_stops (h e he)).1
  · rfl
  · rw [hcut]
    rfl
  · rw [hcut]
    rfl

theorem Run.isOver_append_cons {before : List Entry} (h : ∀ e ∈ before, e.stops true = false)
    {last : Entry} (hlast : last.isFailure = true) {shown : Text} (hw : last.written = .ok shown)
    (more : List Entry) :
    (ofEntries true (before ++ last :: more)).IsOver true (before ++ [last]) := by
  have hcut : (true && (before ++ [last]).any Entry.isFailure) = true := by
    simp [hlast]
  rw [ofEntries_append_cons h hlast hw]
  constructor
  · exact List.forall_mem_append.mpr
      ⟨fun e he => (Entry.written_of_not_stops (h e he)).1,
        List.forall_mem_singleton.mpr ⟨shown, hw⟩⟩
  · rfl
  · rw [hcut]
    exact (List.append_nil _).symm
  · rw [hcut]
    rfl

/-- A run goes through all entries, or ends with the first failure, unless it fails itself. -/
theorem Run.exists_isOver {failFast : Bool} {entries : List Entry}
    (h : ∀ limit, (ofEntries failFast entries).ending ≠ .outOfLimit limit) :
    ∃ done rest, entries = done ++ rest ∧ (ofEntries failFast entries).IsOver failFast done ∧
      ((failFast && done.any Entry.isFailure) = false → rest = []) := by
  cases hf : entries.find? (·.stops failFast) with
  | none =>
    have hgo : ∀ e ∈ entries, e.stops failFast = false := by
      simpa using List.find?_eq_none.mp hf
    exact ⟨entries, [], (List.append_nil entries).symm, isOver_of_not_stops hgo, fun _ => rfl⟩
  | some last =>
    obtain ⟨hstop, before, more, rfl, hbefore⟩ := List.find?_eq_some_iff_append.mp hf
    have hgo : ∀ e ∈ before, e.stops failFast = false := by
      simpa using hbefore
    cases hw : last.written with
    | error limit => exact absurd (ending_of_written_eq_error hgo hw more) (h limit)
    | ok shown =>
      -- an entry that is written stops a run only as a failure of a run that is to fail fast
      rw [Entry.stops_of_written_eq_ok hw, Bool.and_eq_true] at hstop
      obtain ⟨rfl, hfail⟩ := hstop
      refine ⟨before ++ [last], more, List.append_cons before last more,
        isOver_append_cons hgo hfail hw more, fun hnone => ?_⟩
      simp [hfail] at hnone

namespace Run.IsOver
variable {run : Run} {failFast : Bool} {entries : List Entry} (h : run.IsOver failFast entries)
include h

theorem filter_isOfLine : run.events.filter Event.isOfLine = entries.map Entry.event := by
  have hdone : (if failFast && entries.any Entry.isFailure then []
      else [Event.done (entries.countP Entry.isFailure)]).filter Event.isOfLine = [] := by
    split <;> rfl
  rw [h.events, List.filter_append, hdone, List.append_nil, List.filter_flatMap,
    List.map_eq_flatMap]
  simp only [Entry.filter_isOfLine_events]

theorem filter_info : run.events.filter (fun e => e.level = .info) =
    if failFast && entries.any Entry.isFailure then []
    else [.done (entries.countP Entry.isFailure)] := by
  have hlines : (entries.flatMap Entry.events).filter (fun e => e.level = .info) = [] := by
    rw [List.filter_eq_nil_iff]
    intro event hevent
    obtain ⟨e, -, he⟩ := List.mem_flatMap.mp hevent
    simpa using e.level_of_mem_events event he
  rw [h.events, List.filter_append, hlines, List.nil_append]
  split <;> rfl

theorem getLast?_of_done {failures : Nat} (hd : .done failures ∈ run.events) :
    run.events.getLast? = some (.done failures) := by
  rw [h.events] at hd ⊢
  rcases List.mem_append.mp hd with hd | hd
  · obtain ⟨e, -, he⟩ := List.mem_flatMap.mp hd
    exact absurd rfl (e.level_of_mem_events _ he)
  · split at hd
    · cases hd
    · next hcut =>
      rw [if_neg hcut, List.getLast?_concat, List.mem_singleton.mp hd]

theorem exitStatus_ofRun (settings : Settings) : (Response.ofRun settings run).exitStatus =
    if failFast && entries.any Entry.isFailure then 1 else 0 := by
  unfold Response.ofRun
  rw [h.ending]
  cases failFast && entries.any Entry.isFailure <;> rfl

end Run.IsOver

/-! ## Responses -/

namespace Response
variable {settings : Settings} {octets : List UInt8}

/-- A run without a failure of its own has gone through some first lines, or all of them. -/
theorem exists_isOver (h : (ofOpened settings (.octets octets)).failure = none) :
    ∃ first more, inputLines octets = first ++ more ∧
      (Run.ofEntries settings.failFast (Entry.ofLines settings.origin (inputLines octets))).IsOver
        settings.failFast (Entry.after settings.origin 0 first) ∧
      ((settings.failFast && (Entry.after settings.origin 0 first).any Entry.isFailure) = false →
        more = []) := by
  have hend : ∀ limit, (Run.ofEntries settings.failFast
      (Entry.ofLines settings.origin (inputLines octets))).ending ≠ .outOfLimit limit := by
    intro limit hlimit
    unfold ofOpened Run.ofInput ofRun at h
    simp only [hlimit] at h
    cases h
  obtain ⟨done, rest, hsplit, hover, hrest⟩ := Run.exists_isOver hend
  obtain ⟨first, more, hlines, rfl, rfl⟩ := Entry.exists_of_after_eq_append hsplit
  refine ⟨first, more, hlines, hover, fun hcut => ?_⟩
  have hlen := congrArg List.length (hrest hcut)
  rw [Entry.length_after] at hlen
  exact List.eq_nil_of_length_eq_zero hlen

end Response

end ArithTokens.Command
