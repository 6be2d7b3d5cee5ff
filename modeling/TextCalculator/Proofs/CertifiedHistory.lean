import Mathlib.Data.List.Forall2
import TextCalculator.Proofs.Division
import TextCalculator.Proofs.GrowingFile
import TextCalculator.Proofs.Irreducible
import TextCalculator.Proofs.Response

/-!
# A history certifies itself

A session that begins without a history leaves one from which all that it recorded can be checked:
each line falls apart into the expression, as it was given, and a text of the same value
(`Session.history_certifies`).

A line can be divided because a written number has no blank, so the last equals sign between spaces
is the one that was put there, whatever the expression contains (`History.Records.certifies`); and
for the same reason no carriage return is lost at the end of a line (`History.Records.kept_whole`).
What the file holds is an invariant of handling lines: `History.IsKept` is kept up by one line
(`Session.isKept_respond`), and so by all of them.
-/

namespace TextCalculator

namespace History

variable {line expression : String} {lines expressions : List String}

/-! ### The lines of a history -/

/-- A line records the value of an expression. -/
def Records (line expression : String) : Prop :=
  ∃ value, evaluate expression = .ok value ∧ line = expression ++ " = " ++ value.render

/-- A line certifies an expression. Divided at the last equals sign between spaces it gives the
expression and a text, and both are evaluated to the same number. -/
def Certifies (line expression : String) : Prop :=
  ∃ (text : String) (value : Binary64),
    Text.IsLastSplit " = ".toList expression.toList text.toList line.toList ∧
      evaluate expression = .ok value ∧ evaluate text = .ok value

/-- A record certifies its expression: both sides have the value. -/
theorem Records.certifies (h : Records line expression) : Certifies line expression := by
  obtain ⟨value, hvalue, rfl⟩ := h
  refine ⟨value.render, value, ?_, hvalue, evaluate_written value⟩
  have hblank : ' ' ∉ value.render.toList := fun hmem ↦
    absurd ((isIrreducible_render value).no_blank _ hmem) (by decide)
  simp only [String.toList_append]
  exact Text.isLastSplit_of_not_mem [' ', '='] hblank

/-- A line certifies one expression only. -/
theorem Certifies.unique {expression' : String} (h : Certifies line expression)
    (h' : Certifies line expression') : expression = expression' := by
  obtain ⟨text, -, hsplit, -⟩ := h
  obtain ⟨text', -, hsplit', -⟩ := h'
  exact String.toList_inj.1 (hsplit.unique hsplit').1

/-- Nothing of a line that is made of an expression and a value is taken for an end of the line. -/
theorem kept_whole_of_value (hexpression : '\n' ∉ expression.toList) (value : Binary64) :
    '\n' ∉ (expression ++ " = " ++ value.render).toList ∧
      (expression ++ " = " ++ value.render).toList.getLast? ≠ some '\r' := by
  have hblank := (isIrreducible_render value).no_blank
  obtain ⟨c, hc, -⟩ := (Numeral.isWritten_write value).exists_mem
  have hne : value.render.toList ≠ [] := toList_render value ▸ List.ne_nil_of_mem hc
  constructor
  · intro hmem
    rw [String.toList_append, String.toList_append, List.mem_append, List.mem_append] at hmem
    rcases hmem with (hmem | hmem) | hmem
    · exact hexpression hmem
    · exact absurd hmem (by decide)
    · exact absurd (hblank _ hmem) (by decide)
  · rw [String.toList_append, List.getLast?_append_of_ne_nil _ hne]
    intro hlast
    exact absurd (hblank _ (List.mem_of_getLast? hlast)) (by decide)

theorem Records.kept_whole (h : Records line expression) (hexpression : '\n' ∉ expression.toList) :
    '\n' ∉ line.toList ∧ line.toList.getLast? ≠ some '\r' := by
  obtain ⟨value, -, rfl⟩ := h
  exact kept_whole_of_value hexpression value

theorem forall_kept_whole (h : List.Forall₂ Records lines expressions)
    (hexpressions : ∀ expression ∈ expressions, '\n' ∉ expression.toList) :
    ∀ line ∈ lines, '\n' ∉ line.toList ∧ line.toList.getLast? ≠ some '\r' := by
  induction h with
  | nil => simp
  | cons hline _ ih =>
    obtain ⟨hexpression, hrest⟩ := List.forall_mem_cons.1 hexpressions
    exact List.forall_mem_cons.2 ⟨hline.kept_whole hexpression, ih hrest⟩

/-- The lines are got back from their text. -/
theorem linesOf_ofLines
    (h : ∀ line ∈ lines, '\n' ∉ line.toList ∧ line.toList.getLast? ≠ some '\r') :
    linesOf (Text.ofLines lines) = lines := by
  have htext : (Text.ofLines lines).toList = (lines.map String.toList).flatMap (· ++ ['\n']) := by
    simp [Text.ofLines, String.toList_join, List.flatMap_map]
  rw [linesOf, htext, Text.lines_flatMap (by simpa using h), List.map_map]
  exact (List.map_congr_left fun line _ ↦ String.ofList_toList).trans (List.map_id _)

/-! ### What the file holds -/

/-- The content of a history of the given lines. Without any there is no file. -/
def content? (lines : List String) : Option ByteArray :=
  if lines = [] then none else some (Text.ofLines lines).toUTF8

/-- The file at a path has a line for each expression, in order. -/
def IsKept (files : FileSystem) (path : FilePath) (expressions : List String) : Prop :=
  ∃ lines, files.Holds path (content? lines) ∧ List.Forall₂ Records lines expressions

/-- One more line after the lines of a history. -/
theorem content?_concat (lines : List String) (line : String) :
    some ((content? lines).getD .empty ++ (line ++ "\n").toUTF8) = content? (lines ++ [line]) := by
  have hlast : Text.ofLines (lines ++ [line]) = Text.ofLines lines ++ (line ++ "\n") := by
    simp [Text.ofLines]
  have hcontent : (content? lines).getD .empty = (Text.ofLines lines).toUTF8 := by
    rw [content?]
    split
    · next hnil => rw [hnil]; rfl
    · rfl
  rw [hcontent, content?, if_neg (List.concat_ne_nil line lines), hlast]
  simp only [String.toUTF8_eq_toByteArray, String.toByteArray_append]

end History

namespace Session

variable {w : World} {history : History} {line : String} {expressions : List String}

/-- A line that is recorded adds a line to the history, and any other line leaves it. -/
theorem isKept_respond (h : History.IsKept w.files history.path expressions) (line : String) :
    History.IsKept (respond history line w).2.files history.path
      (expressions ++ [line].filter isRecorded) := by
  cases hrecorded : isRecorded line with
  | false =>
    rw [files_respond_of_not_isRecorded hrecorded, List.filter_singleton, hrecorded]
    simpa using h
  | true =>
    obtain ⟨hline, value, hvalue⟩ := isRecorded_iff.1 hrecorded
    obtain ⟨lines, hholds, hrecords⟩ := h
    obtain ⟨files, happend, hfiles⟩ := hholds.append (History.entry line value).toUTF8
    rw [files_respond_of_append hline hvalue happend, List.filter_singleton, hrecorded]
    refine ⟨lines ++ [line ++ " = " ++ value.render], ?_, ?_⟩
    · rwa [← History.content?_concat]
    · exact List.rel_append hrecords (.cons ⟨value, hvalue, rfl⟩ .nil)

/-- A history that is kept is kept by every line. -/
theorem isKept_after (h : History.IsKept w.files history.path expressions) (lines : List String) :
    History.IsKept (after history lines w).files history.path
      (expressions ++ lines.filter isRecorded) := by
  induction lines generalizing w expressions with
  | nil =>
    rw [List.filter_nil, List.append_nil]
    exact h
  | cons line lines ih =>
    have hstep := ih (isKept_respond h line)
    rw [List.append_assoc, ← List.filter_append] at hstep
    exact hstep

/-- **A history certifies itself.** Where there is no history yet and one can be made, let lines
without line feeds be handled. If none of them is an expression with a value, there is still no
history, and asking for it brings the message that says so. Otherwise the history has one line for
each that is, in order; each certifies its expression; and asking for the history prints what is in
the file, and does nothing else. -/
theorem history_certifies (history : History) (lines : List String) (w : World)
    (hnew : w.files.IsNew history.path) (hlines : ∀ line ∈ lines, '\n' ∉ line.toList) :
    let final := after history lines w
    let recorded := lines.filter isRecorded
    (recorded = [] →
      (history.readAll : StateM World _).run final = (.ok none, final) ∧
      ∀ request, Command.ofLine request = .history → respond history request final =
        (.continue, final.print .output (emptyHistory ++ "\n"))) ∧
    (recorded ≠ [] → ∃ shown text,
      (history.readAll : StateM World _).run final = (.ok (some shown), final) ∧
      List.Forall₂ History.Certifies shown recorded ∧
      final.files.read history.path = .ok text.toUTF8 ∧
      ∀ request, Command.ofLine request = .history →
        respond history request final = (.continue, final.print .output text)) := by
  intro final recorded
  have hstart : History.IsKept w.files history.path [] :=
    ⟨[], FileSystem.isNew_iff.1 hnew, .nil⟩
  obtain ⟨shown, hholds, hrecords⟩ := isKept_after hstart lines
  have hrecords : List.Forall₂ History.Records shown recorded := hrecords
  constructor
  · intro hnone
    rw [hnone, List.forall₂_nil_right_iff] at hrecords
    subst hrecords
    have hread := History.run_readAll_of_notFound hholds.read_of_none
    exact ⟨hread, fun request hrequest ↦ respond_of_no_history hrequest hread⟩
  · intro hsome
    have hne : shown ≠ [] := by
      rintro rfl
      exact hsome (List.forall₂_nil_left_iff.1 hrecords)
    -- the lines that are read are the ones that were written, since no expression has a line feed
    have hwhole := History.forall_kept_whole hrecords fun expression hmem ↦
      hlines expression (List.mem_filter.1 hmem).1
    rw [History.content?, if_neg hne] at hholds
    have hread := History.run_readAll_of_text hholds.read_of_some
    rw [History.linesOf_ofLines hwhole] at hread
    exact ⟨shown, Text.ofLines shown, hread, hrecords.imp fun _ _ ↦ History.Records.certifies,
      hholds.read_of_some, fun request hrequest ↦ respond_of_history hrequest hread⟩

/-- Two of four lines are recorded, one of them with a carriage return at its end. -/
theorem history_certifies_two_values :
    let history : History := ⟨.ofString "history.txt"⟩
    let lines := ["|-7|", "oops", " History ", "1/3\r"]
    let start : World := ⟨.fresh, ⟨true, ""⟩, ⟨true, ""⟩, []⟩
    let final := after history lines start
    ∃ shown text,
      (history.readAll : StateM World _).run final = (.ok (some shown), final) ∧
      List.Forall₂ History.Certifies shown ["|-7|", "1/3\r"] ∧
      final.files.read history.path = .ok text.toUTF8 ∧
      respond history " History " final = (.continue, final.print .output text) := by
  intro history lines start final
  have hnew : FileSystem.fresh.IsNew history.path := by
    have hfollow : FileSystem.fresh.follow history.path =
        .ok (.name FileSystem.fresh.workingDirectory (FileSystem.nameOf "history.txt") false) := by
      decide +kernel
    have hnone : (FileSystem.fresh.node? (FileSystem.nameOf "history.txt" ::
        FileSystem.fresh.workingDirectory)).isNone = true := by decide +kernel
    exact FileSystem.isNew_iff.2
      ⟨_, _, hfollow, by decide +kernel, Option.isNone_iff_eq_none.1 hnone⟩
  have hrecorded : lines.filter isRecorded = ["|-7|", "1/3\r"] := by decide +kernel
  obtain ⟨shown, text, hread, hcertifies, hcontent, hrespond⟩ :=
    (history_certifies history lines start hnew (by decide)).2 (by simp [hrecorded])
  rw [hrecorded] at hcertifies
  exact ⟨shown, text, hread, hcertifies, hcontent, hrespond " History " (by decide)⟩

end Session

end TextCalculator
