import TextCalculator.Proofs.CertifiedHistory

/-!
# How many lines a record takes

A history is laid out with one line for each evaluation that it records. A line feed in an
expression undoes this layout and nothing else does (`Session.lines_of_history`): to the evaluation
it is a blank, in the record it stays where it is, and to whoever reads the history it ends a line.
Such a record takes one line more for each line feed, and a carriage return before one of them is
lost.

What stands before and after a record does not matter, since each record is closed by a line feed of
its own (`History.linesOf_ofLines_eq_flatMap`). A written value has no blank, so every line feed of
a record is one of its expression (`History.Records.count_eq`).
-/

namespace TextCalculator

namespace History

variable {record expression : String} {records expressions : List String}

/-- The lines that a record takes in a history: its pieces between line feeds, each without a
carriage return at its end. -/
def linesTaken (record : String) : List String :=
  ((record.toList.splitOn '\n').map (Text.dropReturn '\r')).map String.ofList

/-- The lines of a history are those of its records, one record after the other. -/
theorem linesOf_ofLines_eq_flatMap (records : List String) :
    linesOf (Text.ofLines records) = records.flatMap linesTaken := by
  induction records with
  | nil => rfl
  | cons record records ih =>
    have htext : (Text.ofLines (record :: records)).toList =
        record.toList ++ '\n' :: (Text.ofLines records).toList := by
      simp [Text.ofLines, String.join_cons]
    rw [linesOf, htext, Text.lines_append_cons, List.map_append, List.flatMap_cons, ← ih]
    rfl

theorem length_linesTaken (record : String) :
    (linesTaken record).length = record.toList.count '\n' + 1 := by
  rw [linesTaken, List.length_map, List.length_map, Text.length_splitOn]

/-- The line feeds of a record are those of its expression. -/
theorem Records.count_eq (h : Records record expression) :
    record.toList.count '\n' = expression.toList.count '\n' := by
  obtain ⟨value, -, rfl⟩ := h
  have hfeed : '\n' ∉ (" = " ++ value.render).toList := by
    rw [String.toList_append, List.mem_append, not_or]
    exact ⟨by decide, fun hmem ↦ absurd ((isIrreducible_render value).no_blank _ hmem) (by decide)⟩
  rw [String.append_assoc, String.toList_append, List.count_append, List.count_eq_zero.2 hfeed,
    Nat.add_zero]

/-- A record without a line feed takes one line, and that line is the record. -/
theorem Records.linesTaken_eq (h : Records record expression)
    (hexpression : '\n' ∉ expression.toList) : linesTaken record = [record] := by
  obtain ⟨hfeed, hreturn⟩ := h.kept_whole hexpression
  rw [linesTaken, List.splitOn_eq_singleton hfeed, List.map_singleton, Text.dropReturn,
    if_neg hreturn, List.map_singleton, String.ofList_toList]

/-- The lines of a history are as many as its records and the line feeds in all expressions. -/
theorem length_flatMap_linesTaken (h : List.Forall₂ Records records expressions) :
    (records.flatMap linesTaken).length =
      records.length + (expressions.flatMap String.toList).count '\n' := by
  induction h with
  | nil => rfl
  | cons hrecord _ ih =>
    rw [List.flatMap_cons, List.length_append, length_linesTaken, hrecord.count_eq, ih,
      List.length_cons, List.flatMap_cons, List.count_append]
    omega

/-- A history has its records for lines exactly if no expression in it has a line feed. -/
theorem flatMap_linesTaken_eq_self_iff (h : List.Forall₂ Records records expressions) :
    records.flatMap linesTaken = records ↔
      ∀ expression ∈ expressions, '\n' ∉ expression.toList := by
  constructor
  · intro hself expression hmem
    -- any line feed would make the lines more than the records
    have hlength := length_flatMap_linesTaken h
    rw [hself, Nat.left_eq_add, List.count_eq_zero] at hlength
    exact fun hfeed ↦ hlength (List.mem_flatMap_of_mem hmem hfeed)
  · intro hfeed
    induction h with
    | nil => rfl
    | cons hrecord _ ih =>
      obtain ⟨hexpression, hrest⟩ := List.forall_mem_cons.1 hfeed
      rw [List.flatMap_cons, hrecord.linesTaken_eq hexpression, ih hrest, List.singleton_append]

end History

namespace Session

variable {w : World} {history : History} {recorded : List String}

/-- What is read of a history that has been kept: nothing if nothing was recorded, or else the lines
of the records. -/
theorem readAll_of_isKept (h : History.IsKept w.files history.path recorded) :
    ∃ records, List.Forall₂ History.Records records recorded ∧
      (history.readAll : StateM World _).run w =
        (.ok (if recorded = [] then none else some (records.flatMap History.linesTaken)), w) := by
  obtain ⟨records, hholds, hrecords⟩ := h
  refine ⟨records, hrecords, ?_⟩
  by_cases hnone : recorded = []
  · subst hnone
    rw [List.forall₂_nil_right_iff] at hrecords
    subst hrecords
    exact History.run_readAll_of_notFound hholds.read_of_none
  · have hne : records ≠ [] := by
      rintro rfl
      exact hnone (List.forall₂_nil_left_iff.1 hrecords)
    rw [History.content?, if_neg hne] at hholds
    rw [if_neg hnone, ← History.linesOf_ofLines_eq_flatMap]
    exact History.run_readAll_of_text hholds.read_of_some

/-- **A record takes one line, and one more for each line feed in its expression.** Where there is
no history yet and one can be made, let lines be handled, whatever characters they have. If none of
them is an expression with a value, there is still no history. Otherwise the history has the lines
of the records, in order; and it has exactly one line for each of them, the record itself, if and
only if none of the expressions has a line feed. -/
theorem lines_of_history (history : History) (lines : List String) (w : World)
    (hnew : w.files.IsNew history.path) :
    let final := after history lines w
    let recorded := lines.filter isRecorded
    (recorded = [] → (history.readAll : StateM World _).run final = (.ok none, final)) ∧
    (recorded ≠ [] → ∃ records, List.Forall₂ History.Records records recorded ∧
      (history.readAll : StateM World _).run final =
        (.ok (some (records.flatMap History.linesTaken)), final) ∧
      List.Forall₂ (fun record expression ↦
        (History.linesTaken record).length = expression.toList.count '\n' + 1) records recorded ∧
      (records.flatMap History.linesTaken = records ↔
        ∀ expression ∈ recorded, '\n' ∉ expression.toList)) := by
  intro final recorded
  have hstart : History.IsKept w.files history.path [] :=
    ⟨[], FileSystem.isNew_iff.1 hnew, .nil⟩
  have hkept : History.IsKept final.files history.path recorded := isKept_after hstart lines
  obtain ⟨records, hrecords, hread⟩ := readAll_of_isKept hkept
  constructor
  · intro hnone
    rw [hread, if_pos hnone]
  · intro hsome
    rw [if_neg hsome] at hread
    refine ⟨records, hrecords, hread, ?_, History.flatMap_linesTaken_eq_self_iff hrecords⟩
    exact hrecords.imp fun record expression hrecord ↦ by
      rw [History.length_linesTaken, hrecord.count_eq]

/-- Of four lines the first and the last are recorded. The last has a line feed, and its record
takes two of the three lines. -/
theorem lines_of_history_at_line_feed :
    let history : History := ⟨.ofString "history.txt"⟩
    let lines := ["|-7|", "oops", " History ", "1+\r\n2"]
    let start : World := ⟨.fresh, ⟨true, ""⟩, ⟨true, ""⟩, []⟩
    let final := after history lines start
    ∃ records, List.Forall₂ History.Records records ["|-7|", "1+\r\n2"] ∧
      (history.readAll : StateM World _).run final =
        (.ok (some (records.flatMap History.linesTaken)), final) ∧
      (records.flatMap History.linesTaken).length = 3 := by
  intro history lines start final
  have hrecorded : lines.filter isRecorded = ["|-7|", "1+\r\n2"] := by decide +kernel
  obtain ⟨records, hrecords, hread, -, -⟩ :=
    (lines_of_history history lines start FileSystem.isNew_fresh).2 (by simp [hrecorded])
  rw [hrecorded] at hrecords
  refine ⟨records, hrecords, hread, ?_⟩
  rw [History.length_flatMap_linesTaken hrecords, hrecords.length_eq]
  decide

/-- One record that takes two lines, neither of which records its expression. -/
theorem line_feed_splits_record :
    let history : History := ⟨.ofString "history.txt"⟩
    let start : World := ⟨.fresh, ⟨true, ""⟩, ⟨true, ""⟩, []⟩
    let final := after history ["1+\n2"] start
    isRecorded "1+\n2" = true ∧
      (history.readAll : StateM World _).run final = (.ok (some ["1+", "2 = 3.0"]), final) ∧
      ¬List.Forall₂ History.Records ["1+", "2 = 3.0"] ["1+\n2"] := by
  intro history start final
  have hrecorded : ["1+\n2"].filter isRecorded = ["1+\n2"] := by decide +kernel
  have hstart : History.IsKept start.files history.path [] :=
    ⟨[], FileSystem.isNew_iff.1 FileSystem.isNew_fresh, .nil⟩
  have hkept := isKept_after hstart ["1+\n2"]
  rw [hrecorded] at hkept
  obtain ⟨records, hrecords, hread⟩ := readAll_of_isKept hkept
  have hvalue : (evaluate "1+\n2").map Binary64.render = .ok "3.0" := by decide +kernel
  refine ⟨by simpa using hrecorded, ?_, fun h ↦ absurd h.length_eq (by decide)⟩
  cases hrecords with
  | cons hrecord hrest =>
    cases hrest
    obtain ⟨value, heval, rfl⟩ := hrecord
    rw [heval] at hvalue
    rw [Except.ok.inj hvalue] at hread
    exact hread

end Session

end TextCalculator
