import ArithTokens.Command.Run
import ArithTokens.Proofs.Addresses
import ArithTokens.Proofs.MaximalSubparts

/-!
# Line reading

An input is read line by line: the octets up to the next line feed are taken, their terminator is
dropped, and what is left is decoded.  So each line is decoded by itself.  As no character and no
ill-formed part reaches across a line feed, and none takes in the carriage return before one, this
gives the lines of the text of the whole input.

    readings input = (inputLines input).map Reading.ofOctets                        (readings_eq)
    texts of the readings = lines of the text of the input              (map_textOf_inputLines)
-/

namespace ArithTokens

/-! ## Definitions -/

namespace Command

/-- The readings of an input are the lines of the text of the whole input. -/
structure AreLinesOf (input : List UInt8) (readings : List Reading) : Prop where
  /-- The text is the one to which the whole input can be decoded. -/
  texts : ∃ found lines, Utf8.IsDecoding input found ∧
    (∀ other, Utf8.IsDecoding input other → other = found) ∧
    Lines.IsCut '\n' (found.map (·.getD Utf8.replacement)) lines ∧
    readings.map Reading.text = lines.map (Lines.dropTerminator '\n' '\r')
  octets : ∃ lines, Lines.IsCut lineFeed input lines ∧
    readings.map Reading.octets = lines.map (Lines.dropTerminator lineFeed carriageReturn)
  /-- There is a warning for a line if its octets are not those of a text. -/
  replaced : ∀ r ∈ readings, (r.isReplaced = true ↔ ¬∃ s, r.octets = Utf8.encode s)
  /-- The entries of a run answer these texts and have these warnings. -/
  entries : ∀ origin, (Entry.ofLines origin (inputLines input)).map
      (fun e => (e.answer, decide (Event.replaced ∈ e.events))) =
    readings.map fun r => (tokenize r.text, r.isReplaced)

end Command

/-! ## Reading up to a terminator -/

namespace Lines

variable {α : Type} [DecidableEq α]

/-- What is read first is the first line. -/
theorem cut_eq_readUntil (t : α) {xs : List α} (h : xs ≠ []) :
    cut t xs = (readUntil t xs).1 :: cut t (readUntil t xs).2 := by
  induction xs with
  | nil => exact absurd rfl h
  | cons x xs ih =>
    rw [readUntil]
    by_cases hx : x = t
    · subst hx
      have hnil : x ∉ ([] : List α) := List.not_mem_nil
      rw [if_pos rfl]
      exact cut_append_terminator hnil xs
    · rw [cut_cons, if_neg hx]
      by_cases hn : xs = []
      · subst hn
        rfl
      · rw [ih hn]
        exact if_neg hx

end Lines

namespace Command

/-! ## Readings -/

/-- Reading goes through the lines of the input. -/
theorem readings_eq (input : List UInt8) :
    readings input = (inputLines input).map Reading.ofOctets := by
  induction hn : input.length using Nat.strongRecOn generalizing input with
  | ind n ih =>
    by_cases hne : input = []
    · subst hne
      exact readings_of_none nextLine?_nil
    · have hlt := Lines.length_snd_readUntil_lt lineFeed hne
      rw [readings_of_some (nextLine?_of_ne_nil hne), ih _ (hn ▸ hlt) _ rfl]
      unfold inputLines
      rw [Lines.cut_eq_readUntil lineFeed hne, List.map_cons, List.map_cons]

/-! ## Lines of the text -/

/-- A body before a line feed is decoded by itself, and so is its carriage return. -/
theorem textOf_dropTerminator (body : List UInt8) :
    Utf8.textOf (dropTerminator (body ++ [lineFeed])) =
      Lines.dropTerminator '\n' '\r' (Utf8.textOf body ++ ['\n']) := by
  have hoctets : dropTerminator (body ++ [lineFeed]) =
      if body.getLast? = some carriageReturn then body.dropLast else body :=
    Lines.dropTerminator_concat body
  have hlast : (Utf8.textOf body).getLast? = some '\r' ↔ body.getLast? = some carriageReturn :=
    Utf8.getLast?_textOf_iff (show carriageReturn.toNat < 0x80 by decide)
  rw [hoctets, Lines.dropTerminator_concat]
  by_cases hr : body.getLast? = some carriageReturn
  · obtain ⟨front, rfl⟩ := List.getLast?_eq_some_iff.mp hr
    have htext : Utf8.textOf (front ++ [carriageReturn]) = Utf8.textOf front ++ ['\r'] :=
      Utf8.textOf_append_ascii (by decide) front []
    rw [if_pos hr, if_pos (hlast.mpr hr), htext, List.dropLast_concat, List.dropLast_concat]
  · rw [if_neg hr, if_neg (fun h => hr (hlast.mp h))]

/-- Cutting an input into lines and decoding it can be done in either order. -/
theorem map_textOf_inputLines (input : List UInt8) : (inputLines input).map Utf8.textOf =
    (Lines.cut '\n' (Utf8.textOf input)).map (Lines.dropTerminator '\n' '\r') := by
  induction hn : input.length using Nat.strongRecOn generalizing input with
  | ind n ih =>
    by_cases hm : lineFeed ∈ input
    · obtain ⟨body, rest, rfl, hbody⟩ := List.eq_append_cons_of_mem hm
      have hlt : rest.length < n := by
        rw [← hn, List.length_append, List.length_cons]
        omega
      have htext : Utf8.textOf (body ++ lineFeed :: rest) =
          Utf8.textOf body ++ '\n' :: Utf8.textOf rest :=
        Utf8.textOf_append_ascii (by decide) body rest
      have hrest := ih rest.length hlt rest rfl
      unfold inputLines at hrest ⊢
      rw [Lines.cut_append_terminator hbody, htext,
        Lines.cut_append_terminator (lineFeed_notMem_textOf hbody), List.map_cons,
        List.map_cons, List.map_cons, hrest, textOf_dropTerminator]
    · by_cases hne : input = []
      · subst hne
        rfl
      · have htext : Utf8.textOf input ≠ [] := Utf8.textOf_ne_nil hne
        have hoctets : dropTerminator input = input := Lines.dropTerminator_of_notMem hm
        have hnot := lineFeed_notMem_textOf hm
        unfold inputLines
        rw [Lines.cut_of_notMem hm hne, Lines.cut_of_notMem hnot htext, List.map_singleton,
          List.map_singleton, List.map_singleton, hoctets, Lines.dropTerminator_of_notMem hnot]

/-! ## Warnings -/

/-- A line has the warning among its events if its octets are ill-formed. -/
theorem Entry.replaced_mem_events_iff (e : Entry) :
    Event.replaced ∈ e.events ↔ e.isWellFormed = false := by
  unfold events
  rw [List.mem_append]
  cases e.isWellFormed <;> cases e.answer <;> simp

theorem Entry.map_ofLines (origin : Text) (lines : List (List UInt8)) :
    (ofLines origin lines).map (fun e => (e.answer, decide (Event.replaced ∈ e.events))) =
      lines.map fun octets => (tokenize (Utf8.textOf octets), !Utf8.isWellFormed octets) := by
  have hline : ∀ p : List UInt8 × Nat,
      decide (Event.replaced ∈ (ofLine origin p.2 p.1).events) = !Utf8.isWellFormed p.1 := by
    intro p
    rw [Bool.eq_iff_iff, decide_eq_true_iff, replaced_mem_events_iff, Bool.not_eq_true']
    rfl
  unfold ofLines after
  rw [List.map_map]
  calc lines.zipIdx.map _
      = lines.zipIdx.map
          ((fun octets => (tokenize (Utf8.textOf octets), !Utf8.isWellFormed octets)) ∘ Prod.fst) :=
        List.map_congr_left fun p _ => congrArg (Prod.mk _) (hline p)
    _ = _ := by rw [← List.map_map, List.zipIdx_map_fst]

/-! ## Main theorem -/

theorem areLinesOf_readings (input : List UInt8) : AreLinesOf input (readings input) := by
  rw [readings_eq]
  constructor
  · refine ⟨Utf8.decode input, Lines.cut '\n' (Utf8.textOf input), Utf8.isDecoding_decode input,
      fun other h => h.eq_decode, Lines.isCut_cut '\n' _, ?_⟩
    rw [← map_textOf_inputLines, List.map_map]
    rfl
  · refine ⟨Lines.cut lineFeed input, Lines.isCut_cut lineFeed input, ?_⟩
    rw [List.map_map]
    exact List.map_id _
  · intro r hr
    obtain ⟨octets, -, rfl⟩ := List.mem_map.mp hr
    show (!Utf8.isWellFormed octets) = true ↔ _
    rw [Bool.not_eq_true', ← Bool.not_eq_true, Utf8.isWellFormed_iff]
    rfl
  · intro origin
    rw [Entry.map_ofLines, List.map_map]
    rfl

-- a character cut off by a line end, then an encoded replacement, and no line feed at the end
example : readings [0x31, 0xe2, 0x82, 0x0d, 0x0a, 0xef, 0xbf, 0xbd, 0x0d] =
    [⟨[0x31, 0xe2, 0x82], ['1', '\ufffd'], true⟩,
      ⟨[0xef, 0xbf, 0xbd, 0x0d], ['\ufffd', '\r'], false⟩] := by
  rw [readings_eq]
  decide +kernel

end Command

end ArithTokens
