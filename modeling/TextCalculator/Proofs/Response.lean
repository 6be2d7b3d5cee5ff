import Mathlib.Tactic.SplitIfs
import TextCalculator.Session.Basic

/-!
# What handling a line does

The effects of a session on a machine that is a value. `Session.respond` is what handling a line
answers together with the world after it, and `Session.after` the world after several lines. Each
effect has one equation, and `run_bind_of_eq` puts them together.

A line changes the file system only if it is an expression that has a value
(`files_respond_of_not_isRecorded`), and then by appending the line that records it
(`files_respond_of_append`). Showing the history changes nothing but what has been printed
(`respond_of_history`).
-/

namespace TextCalculator

variable {w w' : World}

/-- Where a computation begins with one that is understood, the rest goes on from there. -/
theorem run_bind_of_eq {α β : Type} {x : StateM World α} {f : α → StateM World β} {a : α}
    (h : x.run w = (a, w')) : (x >>= f).run w = (f a).run w' := by
  rw [StateT.run_bind, h]
  rfl

/-! ### Effects -/

/-- The text of lines, with a line feed after each. -/
def Text.ofLines (lines : List String) : String := String.join (lines.map (· ++ "\n"))

/-- A sink that is printed to twice has taken both texts, or neither. -/
theorem Sink.print_print (sink : Sink) (a b : String) :
    (sink.print a).print b = sink.print (a ++ b) := by
  cases hworks : sink.works <;> simp [Sink.print, hworks, String.append_assoc]

/-- Printing nothing leaves a sink as it is. -/
theorem Sink.print_empty (sink : Sink) : sink.print "" = sink := by
  simp [Sink.print]

namespace World

variable {stream : Stream}

theorem print_print (a b : String) (w : World) :
    (w.print stream a).print stream b = w.print stream (a ++ b) := by
  cases stream <;> simp only [World.print, Sink.print_print]

theorem print_empty (w : World) : w.print stream "" = w := by
  cases stream <;> simp only [World.print, Sink.print_empty]

theorem files_print (text : String) (w : World) : (w.print stream text).files = w.files := by
  cases stream <;> rfl

theorem run_readFile (path : FilePath) (w : World) :
    (Machine.readFile path : StateM World _).run w = (w.files.read path, w) := rfl

/-- A line is printed with a line feed behind it, and what the sink answers is dropped. -/
theorem run_printLine (line : String) (w : World) :
    (Machine.printLine stream line : StateM World Unit).run w =
      ((), w.print stream (line ++ "\n")) := rfl

/-- Lines printed one after the other are the text of these lines. -/
theorem run_forM_printLine (lines : List String) (w : World) :
    (lines.forM (Machine.printLine stream) : StateM World Unit).run w =
      ((), w.print stream (Text.ofLines lines)) := by
  induction lines generalizing w with
  | nil =>
    rw [Text.ofLines, List.map_nil, String.join_nil, print_empty]
    rfl
  | cons line lines ih =>
    rw [Text.ofLines, List.map_cons, String.join_cons, ← print_print]
    exact ih (w.print stream (line ++ "\n"))

/-- Lines noted one after the other come behind the log so far. -/
theorem run_forM_note (log : List LogLine) (w : World) :
    (log.forM Machine.note : StateM World Unit).run w = ((), { w with log := w.log ++ log }) := by
  induction log generalizing w with
  | nil =>
    rw [List.append_nil]
    rfl
  | cons line log ih =>
    rw [List.append_cons]
    exact ih { w with log := w.log ++ [line] }

end World

/-! ### The history -/

/-- A text is got back from its bytes. -/
theorem fromUTF8?_toUTF8 (text : String) : String.fromUTF8? text.toUTF8 = some text := by
  rw [String.fromUTF8?, String.toUTF8_eq_toByteArray, dif_pos text.isValidUTF8]
  rfl

variable {history : History} {expression line text : String} {value : Binary64}
  {files : FileSystem}

namespace History

/-- Where no file is, there are no records. -/
theorem run_readAll_of_notFound (h : w.files.read history.path = .error .notFound) :
    (history.readAll : StateM World _).run w = (.ok none, w) := by
  rw [readAll, run_bind_of_eq (World.run_readFile _ w)]
  simp only [h]
  rfl

/-- A file of text has the lines of the text as its records. -/
theorem run_readAll_of_text (h : w.files.read history.path = .ok text.toUTF8) :
    (history.readAll : StateM World _).run w = (.ok (some (linesOf text)), w) := by
  rw [readAll, run_bind_of_eq (World.run_readFile _ w)]
  simp only [h, fromUTF8?_toUTF8]
  rfl

/-- Reading the history changes nothing. -/
theorem exists_run_readAll (history : History) (w : World) :
    ∃ answer, (history.readAll : StateM World _).run w = (answer, w) := by
  rw [readAll, run_bind_of_eq (World.run_readFile _ w)]
  split
  · split <;> exact ⟨_, rfl⟩
  · exact ⟨_, rfl⟩
  · exact ⟨_, rfl⟩

/-- An evaluation that can be recorded is recorded, and the log says so. -/
theorem run_append
    (h : w.files.append history.path (entry expression value).toUTF8 = .ok files) :
    (history.append expression value : StateM World _).run w = (.ok (), { w with
      files := files
      log := w.log ++ [history.appended (entry expression value)] }) := by
  have happend : (Machine.appendFile history.path (entry expression value).toUTF8 :
      StateM World _).run w = (.ok (), { w with files := files }) := by
    simp only [Machine.appendFile, StateT.run, h]
  exact run_bind_of_eq happend

end History

/-! ### One line -/

namespace Session

theorem run_showBanner (w : World) :
    (showBanner : StateM World Unit).run w = ((), w.print .output (banner ++ "\n")) := rfl

/-- What handling a line answers, and the world after it. -/
def respond (history : History) (line : String) (w : World) : Flow × World :=
  (handle history line : StateM World Flow).run w

/-- Whether a line is an expression that has a value. -/
def isRecorded (line : String) : Bool :=
  Command.ofLine line = .evaluate line && (evaluate line).isOk

/-- What is recorded is an expression, and has a value. -/
theorem isRecorded_iff :
    isRecorded line = true ↔ Command.ofLine line = .evaluate line ∧
      ∃ value, evaluate line = .ok value := by
  rw [isRecorded, Bool.and_eq_true, decide_eq_true_eq]
  cases evaluate line <;> simp [Except.isOk, Except.toBool]

/-- An expression is the line as it is. -/
theorem eq_of_ofLine_eq_evaluate (h : Command.ofLine line = .evaluate expression) :
    expression = line := by
  rw [Command.ofLine] at h
  split_ifs at h
  exact (Command.evaluate.inj h).symm

/-- Showing the history changes no file. -/
theorem files_showHistory (history : History) (w : World) :
    ((showHistory history : StateM World Unit).run w).2.files = w.files := by
  obtain ⟨answer, hread⟩ := history.exists_run_readAll w
  rw [showHistory, run_bind_of_eq hread]
  split
  · rw [World.run_forM_printLine, World.files_print]
  · rw [World.run_printLine, World.files_print]
  · rw [World.run_printLine, World.files_print]

/-- Without a value, nothing is recorded. -/
theorem files_showValue_of_error {e : EvalError} (h : evaluate expression = .error e) :
    ((showValue history expression : StateM World Unit).run w).2.files = w.files := by
  have hresult : (Evaluation.ofExpression expression).result = .error e := h
  rw [showValue, run_bind_of_eq (World.run_forM_note _ w)]
  simp only [hresult]
  exact World.files_print _ _

/-- What is reported of an attempt to record a value. -/
def reportRecording : Except HistoryError Unit → StateM World Unit
  | .ok () => return
  | .error e => do
    Machine.note (notRecorded e)
    Machine.printLine .error ("Ошибка записи истории: " ++ e.message)

/-- A report on recording changes no file and prints nothing to the results. -/
theorem run_reportRecording (answer : Except HistoryError Unit) (w : World) :
    ((reportRecording answer).run w).2.files = w.files ∧
      ((reportRecording answer).run w).2.output = w.output := by
  cases answer <;> exact ⟨rfl, rfl⟩

/-- A value is printed and then recorded. -/
theorem exists_run_showValue (history : History) (h : evaluate expression = .ok value)
    (w : World) :
    ∃ printed : World, printed.files = w.files ∧
      printed.output = w.output.print ("Результат: " ++ value.render ++ "\n") ∧
      (showValue history expression : StateM World Unit).run w =
        (history.append expression value >>= reportRecording).run printed := by
  have hresult : (Evaluation.ofExpression expression).result = .ok value := h
  let noted : World := { w with log := w.log ++ (Evaluation.ofExpression expression).log }
  refine ⟨noted.print .output ("Результат: " ++ value.render ++ "\n"), rfl, rfl, ?_⟩
  rw [showValue, run_bind_of_eq (World.run_forM_note _ w)]
  simp only [hresult]
  exact run_bind_of_eq (World.run_printLine _ _)

/-- A value is recorded. -/
theorem files_showValue_of_append (h : evaluate expression = .ok value)
    (happend : w.files.append history.path (History.entry expression value).toUTF8 = .ok files) :
    ((showValue history expression : StateM World Unit).run w).2.files = files := by
  obtain ⟨printed, hprinted, -, hrun⟩ := exists_run_showValue history h w
  rw [← hprinted] at happend
  rw [hrun, run_bind_of_eq (History.run_append happend), (run_reportRecording _ _).1]

/-- A line that is no expression with a value changes no file. -/
theorem files_respond_of_not_isRecorded (h : isRecorded line = false) :
    (respond history line w).2.files = w.files := by
  rw [respond, handle]
  split
  · rfl
  · exact files_showHistory history w
  next expression hline =>
  obtain rfl := eq_of_ofLine_eq_evaluate hline
  cases hvalue : evaluate expression with
  | error e => exact files_showValue_of_error hvalue
  | ok value => exact absurd (isRecorded_iff.2 ⟨hline, value, hvalue⟩) (by simp [h])

/-- An expression with a value is recorded. -/
theorem files_respond_of_append (hline : Command.ofLine line = .evaluate line)
    (hvalue : evaluate line = .ok value)
    (happend : w.files.append history.path (History.entry line value).toUTF8 = .ok files) :
    (respond history line w).2.files = files := by
  rw [respond, handle, hline]
  exact files_showValue_of_append hvalue happend

/-- The lines of the history are printed, one after the other. -/
theorem respond_of_history {lines : List String} (hline : Command.ofLine line = .history)
    (hread : (history.readAll : StateM World _).run w = (.ok (some lines), w)) :
    respond history line w = (.continue, w.print .output (Text.ofLines lines)) := by
  rw [respond, handle, hline]
  have hshow : (showHistory history : StateM World Unit).run w =
      ((), w.print .output (Text.ofLines lines)) :=
    (run_bind_of_eq hread).trans (World.run_forM_printLine lines w)
  exact run_bind_of_eq hshow

/-- Without a history, a message says so. -/
theorem respond_of_no_history (hline : Command.ofLine line = .history)
    (hread : (history.readAll : StateM World _).run w = (.ok none, w)) :
    respond history line w = (.continue, w.print .output (emptyHistory ++ "\n")) := by
  rw [respond, handle, hline]
  have hshow : (showHistory history : StateM World Unit).run w =
      ((), w.print .output (emptyHistory ++ "\n")) := run_bind_of_eq hread
  exact run_bind_of_eq hshow

/-! ### Several lines -/

/-- The world after lines have been handled one after the other, whatever they ask for. -/
def after (history : History) (lines : List String) (w : World) : World :=
  lines.foldl (fun w line ↦ (respond history line w).2) w

end Session

end TextCalculator
