import TextCalculator.Proofs.AppendOnly
import TextCalculator.Proofs.CertifiedHistory

/-!
# The last line of a history

Recording a value puts its entry right behind what is there already, and an entry ends a line
without beginning one. So it is the last line of the history that decides what becomes of the entry
(`History.readAll_append`). If that line is ended, or there is none, the entry is one further line.
If it is not, as an editor or an interrupted program may leave it, the entry continues it, and the
history has as many lines as before.

The argument is one about texts. A text with its last line ended falls into lines apart from what
follows it (`Text.lines_append_of_isEnded`), and any other text is such a text with a piece of a
line behind it (`Text.exists_unended`).
-/

namespace TextCalculator

/-! ### Texts with an unended line -/

namespace Text

variable {α : Type} {feed carriageReturn : α} {as line : List α}

/-- A text without a line at its end that is not ended. -/
def IsEnded (feed : α) (as : List α) : Prop := ∀ a ∈ as.getLast?, a = feed

theorem isEnded_nil : IsEnded feed [] := by simp [IsEnded]

theorem isEnded_concat (as : List α) : IsEnded feed (as ++ [feed]) := by simp [IsEnded]

theorem IsEnded.eq_nil_or_concat (h : IsEnded feed as) : as = [] ∨ ∃ init, as = init ++ [feed] := by
  rcases List.eq_nil_or_concat as with rfl | ⟨init, a, rfl⟩
  · exact .inl rfl
  · obtain rfl : a = feed := h a (by simp)
    exact .inr ⟨init, List.concat_eq_append⟩

variable [DecidableEq α]

instance (feed : α) (as : List α) : Decidable (IsEnded feed as) :=
  inferInstanceAs (Decidable (∀ a ∈ as.getLast?, a = feed))

/-- What follows an ended line falls into lines by itself. -/
theorem lines_append_of_isEnded (h : IsEnded feed as) (bs : List α) :
    lines feed carriageReturn (as ++ bs) =
      lines feed carriageReturn as ++ lines feed carriageReturn bs := by
  rcases h.eq_nil_or_concat with rfl | ⟨init, rfl⟩
  · rfl
  · have hnil : lines feed carriageReturn ([] : List α) = [] := rfl
    rw [List.append_assoc, List.singleton_append, lines_append_cons, lines_append_cons, hnil,
      List.append_nil]

/-- A last line that is not ended is a line, with all that it has. -/
theorem lines_of_not_mem (hne : line ≠ []) (h : feed ∉ line) :
    lines feed carriageReturn line = [line] := by
  rw [lines_eq_splitOn, List.splitOn_eq_singleton h]
  simp [hne]

/-- A text without an ended line at its end has a piece of a line there. -/
theorem exists_unended (h : ¬IsEnded feed as) :
    ∃ front last, as = front ++ last ∧ IsEnded feed front ∧ last ≠ [] ∧ feed ∉ last := by
  induction as with
  | nil => exact absurd isEnded_nil h
  | cons a as ih =>
    by_cases has : IsEnded feed as
    · -- only a text of a single item is ended by what is missing from it
      rcases has.eq_nil_or_concat with rfl | ⟨init, rfl⟩
      · have hne : a ≠ feed := fun heq ↦ h (by simp [IsEnded, heq])
        exact ⟨[], [a], rfl, isEnded_nil, by simp, by simpa using hne.symm⟩
      · exact absurd (isEnded_concat (a :: init)) h
    · obtain ⟨front, last, rfl, hfront, hlast, hmem⟩ := ih has
      rcases hfront.eq_nil_or_concat with rfl | ⟨init, rfl⟩
      · by_cases ha : a = feed
        · exact ⟨[a], last, rfl, by simp [IsEnded, ha], hlast, hmem⟩
        · exact ⟨[], a :: last, rfl, isEnded_nil, by simp, by simp [hmem, Ne.symm ha]⟩
      · exact ⟨a :: (init ++ [feed]), last, rfl, isEnded_concat (a :: init), hlast, hmem⟩

end Text

namespace History

variable {w w' : World} {history : History} {expression record text : String} {value : Binary64}

/-! ### One entry more -/

/-- A line behind ended lines is one further line. -/
theorem linesOf_append_of_isEnded (h : Text.IsEnded '\n' text.toList) (hfeed : '\n' ∉ record.toList)
    (hreturn : record.toList.getLast? ≠ some '\r') :
    linesOf (text ++ (record ++ "\n")) = linesOf text ++ [record] := by
  have hrecord : Text.lines '\n' '\r' (record.toList ++ ['\n']) = [record.toList] := by
    rw [Text.lines_append_feed hfeed, Text.dropReturn, if_neg hreturn]
    rfl
  have htext : (text ++ (record ++ "\n")).toList = text.toList ++ (record.toList ++ ['\n']) := by
    simp
  rw [linesOf, htext, Text.lines_append_of_isEnded h, hrecord, List.map_append, List.map_singleton,
    String.ofList_toList]
  rfl

/-- A line behind one that is not ended continues it. -/
theorem linesOf_append_of_not_isEnded (h : ¬Text.IsEnded '\n' text.toList)
    (hfeed : '\n' ∉ record.toList) (hreturn : record.toList.getLast? ≠ some '\r')
    (hne : record.toList ≠ []) :
    ∃ lines last, linesOf text = lines ++ [last] ∧
      linesOf (text ++ (record ++ "\n")) = lines ++ [last ++ record] := by
  obtain ⟨front, last, htext, hfront, hlast, hmem⟩ := Text.exists_unended h
  obtain ⟨front, rfl⟩ : ∃ s : String, s.toList = front := ⟨.ofList front, String.toList_ofList⟩
  obtain ⟨last, rfl⟩ : ∃ s : String, s.toList = last := ⟨.ofList last, String.toList_ofList⟩
  obtain rfl : text = front ++ last := String.toList_inj.1 (by rw [htext, String.toList_append])
  refine ⟨linesOf front, last, ?_, ?_⟩
  · rw [linesOf, String.toList_append, Text.lines_append_of_isEnded hfront,
      Text.lines_of_not_mem hlast hmem, List.map_append, List.map_singleton, String.ofList_toList]
    rfl
  · have htext : front ++ last ++ (record ++ "\n") = front ++ (last ++ record ++ "\n") := by
      simp only [String.append_assoc]
    rw [htext]
    apply linesOf_append_of_isEnded hfront
    · simp [hmem, hfeed]
    · rwa [String.toList_append, List.getLast?_append_of_ne_nil _ hne]

/-- A value that has been recorded has its entry at the end of the file. -/
theorem holds_of_run_append (hdevice : ¬w.files.LeadsToDevice history.path)
    (h : (history.append expression value : StateM World _).run w = (.ok (), w')) :
    ∃ content?, w.files.Holds history.path content? ∧ w'.files.Holds history.path
      (some (content?.getD .empty ++ (entry expression value).toUTF8)) := by
  rcases happend : w.files.append history.path (entry expression value).toUTF8 with e | files
  · exact nomatch (run_append_of_error happend).symm.trans h
  · obtain ⟨location, content?, ⟨directory, name, hfollow, hlength, rfl⟩, hnode, -⟩ :=
      FileSystem.exists_of_append hdevice happend
    have hholds : w.files.Holds history.path content? := ⟨directory, name, hfollow, hlength, hnode⟩
    obtain ⟨files', happend', hholds'⟩ := hholds.append (entry expression value).toUTF8
    obtain rfl : files = files' := Except.ok.inj (happend.symm.trans happend')
    have hfiles : w'.files = files := by rw [← (Prod.mk.inj ((run_append happend).symm.trans h)).2]
    exact ⟨content?, hholds, hfiles ▸ hholds'⟩

/-- There is no history only where nothing is found. -/
theorem read_of_run_readAll (h : (history.readAll : StateM World _).run w = (.ok none, w)) :
    w.files.read history.path = .error .notFound := by
  rw [readAll, run_bind_of_eq (World.run_readFile _ w)] at h
  split at h
  · split at h
    · exact absurd (Prod.mk.inj h).1 (by simp)
    · exact absurd (Prod.mk.inj h).1 (by simp)
  · assumption
  · exact absurd (Prod.mk.inj h).1 (by simp)

/-- **What becomes of a record depends on the last line of the history.** Unless the path leads to a
device, let the value of an expression without line feeds be recorded. Where there was no history,
its record is the only line afterwards. Where there was one, all its lines are still there,
unchanged and with the record as one further line behind them, if and only if its text is empty or
ends with a line feed. Otherwise the record is part of the last line. -/
theorem readAll_append (hdevice : ¬w.files.LeadsToDevice history.path)
    (hexpression : '\n' ∉ expression.toList)
    (happend : (history.append expression value : StateM World _).run w = (.ok (), w')) :
    let record := expression ++ " = " ++ value.render
    ((history.readAll : StateM World _).run w = (.ok none, w) →
      (history.readAll : StateM World _).run w' = (.ok (some [record]), w')) ∧
    ∀ text : String, w.files.read history.path = .ok text.toUTF8 →
      (history.readAll : StateM World _).run w = (.ok (some (linesOf text)), w) ∧
      ((history.readAll : StateM World _).run w' = (.ok (some (linesOf text ++ [record])), w') ↔
        Text.IsEnded '\n' text.toList) ∧
      (¬Text.IsEnded '\n' text.toList → ∃ lines last, linesOf text = lines ++ [last] ∧
        (history.readAll : StateM World _).run w' =
          (.ok (some (lines ++ [last ++ record])), w')) := by
  intro record
  obtain ⟨hfeed, hreturn⟩ : '\n' ∉ record.toList ∧ record.toList.getLast? ≠ some '\r' :=
    kept_whole_of_value hexpression value
  have hne : record.toList ≠ [] := by simp [record]
  obtain ⟨content?, hbefore, hafter⟩ := holds_of_run_append hdevice happend
  constructor
  · intro hnone
    rcases content? with - | content
    · have htext : "" ++ (record ++ "\n") = record ++ "\n" := String.empty_append
      have hread : w'.files.read history.path = .ok (record ++ "\n").toUTF8 := by
        rw [hafter.read_of_some, Option.getD_none, ByteArray.empty_append]
        rfl
      rw [run_readAll_of_text hread, ← htext,
        linesOf_append_of_isEnded Text.isEnded_nil hfeed hreturn]
      rfl
    · exact nomatch (read_of_run_readAll hnone).symm.trans hbefore.read_of_some
  · intro text htext
    rcases content? with - | content
    · exact nomatch htext.symm.trans hbefore.read_of_none
    obtain rfl : text.toUTF8 = content := Except.ok.inj (htext.symm.trans hbefore.read_of_some)
    have hread : w'.files.read history.path = .ok (text ++ (record ++ "\n")).toUTF8 := by
      rw [hafter.read_of_some, Option.getD_some]
      simp only [String.toUTF8_eq_toByteArray, String.toByteArray_append]
      rfl
    rw [run_readAll_of_text htext, run_readAll_of_text hread]
    by_cases hended : Text.IsEnded '\n' text.toList
    · rw [linesOf_append_of_isEnded hended hfeed hreturn]
      exact ⟨rfl, iff_of_true rfl hended, fun h ↦ absurd hended h⟩
    · obtain ⟨lines, last, hlines, hlonger⟩ :=
        linesOf_append_of_not_isEnded hended hfeed hreturn hne
      refine ⟨rfl, iff_of_false (fun heq ↦ ?_) hended,
        fun _ ↦ ⟨lines, last, hlines, by rw [hlonger]⟩⟩
      -- the record would have to make one line more
      have hsame : linesOf (text ++ (record ++ "\n")) = linesOf text ++ [record] :=
        Option.some.inj (Except.ok.inj (Prod.mk.inj heq).1)
      have hlength := congrArg List.length hsame
      simp [hlines, hlonger] at hlength

/-- A history that ends with a carriage return and a line feed, and one further record. -/
theorem readAll_append_at_ended_line :
    let history : History := ⟨.ofString "history.txt"⟩
    let text := "1+1 = 2.0\r\n"
    let before : World :=
      ⟨FileSystem.fresh.write history.path text.toUTF8, ⟨true, ""⟩, ⟨true, ""⟩, []⟩
    let after := ((history.append "3-1" (.ofInt 2) : StateM World _).run before).2
    ¬before.files.LeadsToDevice history.path ∧ '\n' ∉ "3-1".toList ∧
      (history.append "3-1" (.ofInt 2) : StateM World _).run before = (.ok (), after) ∧
      before.files.read history.path = .ok text.toUTF8 ∧
      (history.readAll : StateM World _).run before = (.ok (some ["1+1 = 2.0"]), before) ∧
      (history.readAll : StateM World _).run after =
        (.ok (some ["1+1 = 2.0", "3-1 = 2.0"]), after) := by
  intro history text before after
  have hholds : before.files.Holds history.path (some text.toUTF8) :=
    ⟨before.files.workingDirectory, FileSystem.nameOf "history.txt", by decide +kernel,
      by decide +kernel, by with_unfolding_all rfl⟩
  have hdevice : ¬before.files.LeadsToDevice history.path := by
    rintro ⟨location, hleads, hnode⟩
    obtain ⟨directory, name, hfollow, hlength, hfile⟩ := hholds
    obtain rfl := hleads.unique ⟨directory, name, hfollow, hlength, rfl⟩
    exact nomatch hnode.symm.trans hfile
  have hanswer : ((history.append "3-1" (.ofInt 2) : StateM World _).run before).1 = .ok () := by
    decide +kernel
  have happend : (history.append "3-1" (.ofInt 2) : StateM World _).run before = (.ok (), after) :=
    Prod.ext hanswer rfl
  obtain ⟨hbefore, hiff, -⟩ :=
    (readAll_append hdevice (by decide) happend).2 text hholds.read_of_some
  have hlines : linesOf text = ["1+1 = 2.0"] := by decide +kernel
  have hrecord : "3-1" ++ " = " ++ (Binary64.ofInt 2).render = "3-1 = 2.0" := by decide +kernel
  have hafter := hiff.2 (by decide +kernel)
  rw [hlines, hrecord] at hafter
  rw [hlines] at hbefore
  exact ⟨hdevice, by decide, happend, hholds.read_of_some, hbefore, hafter⟩

/-- A history without a line feed at its end. Its only line and the record become one line, which is
neither of them. -/
theorem unended_line_swallows_record :
    let history : History := ⟨.ofString "history.txt"⟩
    let before : World :=
      ⟨FileSystem.fresh.write history.path "1+1 = 2.0".toUTF8, ⟨true, ""⟩, ⟨true, ""⟩, []⟩
    let after := ((history.append "3-1" (.ofInt 2) : StateM World _).run before).2
    ((history.append "3-1" (.ofInt 2) : StateM World _).run before).1 = .ok () ∧
      ((history.readAll : StateM World _).run before).1 = .ok (some ["1+1 = 2.0"]) ∧
      ((history.readAll : StateM World _).run after).1 = .ok (some ["1+1 = 2.03-1 = 2.0"]) ∧
      ((history.readAll : StateM World _).run after).1 ≠
        .ok (some (["1+1 = 2.0"] ++ ["3-1 = 2.0"])) := by
  decide +kernel

end History

end TextCalculator
