import TextCalculator.Proofs.Response

/-!
# Nothing depends on what has been printed

A session looks at files, and never at what it has printed or noted so far. In all worlds with the
same files a line gets the same answer, leaves the same files, and adds the same texts to the
streams and the same lines to the log (`Session.isOblivious_handle`). A sink that refuses what is
printed to it therefore makes no difference to anything but its own text.

Computations of this kind are closed under sequencing (`IsOblivious.bind`), and the four effects of
a machine are among them, so each computation of a session is one because its parts are.
-/

namespace TextCalculator

/-- What a computation adds to the streams and to the log. -/
structure Remarks where
  /-- The text for the results. -/
  output : String
  /-- The text for what went wrong. -/
  error : String
  /-- The lines for the log. -/
  log : List LogLine

namespace Remarks

/-- No remarks. -/
def none : Remarks := ⟨"", "", []⟩

/-- Some remarks and then others. -/
def append (r r' : Remarks) : Remarks := ⟨r.output ++ r'.output, r.error ++ r'.error, r.log ++ r'.log⟩

end Remarks

/-- The world after files have changed and remarks have been made. -/
def World.proceed (w : World) (files : FileSystem) (r : Remarks) : World where
  files := files
  output := w.output.print r.output
  error := w.error.print r.error
  log := w.log ++ r.log

theorem World.proceed_none (w : World) : w.proceed w.files .none = w := by
  rw [proceed, Remarks.none, Sink.print_empty, Sink.print_empty, List.append_nil]

/-- Of two changes of the files the later one counts, and the remarks of both are kept in order. -/
theorem World.proceed_proceed (w : World) (files files' : FileSystem) (r r' : Remarks) :
    (w.proceed files r).proceed files' r' = w.proceed files' (r.append r') := by
  simp only [proceed, Remarks.append, Sink.print_print, List.append_assoc]

/-- A computation looks at the files only: they determine its answer, the files it leaves and the
remarks it makes. -/
def IsOblivious {α : Type} (x : StateM World α) : Prop :=
  ∀ files, ∃ a files' r, ∀ w : World, w.files = files → x.run w = (a, w.proceed files' r)

namespace IsOblivious

variable {α β : Type}

/-- To answer without doing anything is oblivious. -/
theorem pure (a : α) : IsOblivious (Pure.pure a : StateM World α) := fun files ↦
  ⟨a, files, .none, fun w hw ↦ by rw [← hw, World.proceed_none]; rfl⟩

/-- An oblivious computation may go on with one that depends on its answer: the first determines the
files that the second is given. -/
theorem bind {x : StateM World α} {f : α → StateM World β} (hx : IsOblivious x)
    (hf : ∀ a, IsOblivious (f a)) : IsOblivious (x >>= f) := by
  intro files
  obtain ⟨a, files', r, hrun⟩ := hx files
  obtain ⟨b, files'', r', hrest⟩ := hf a files'
  refine ⟨b, files'', r.append r', fun w hw ↦ ?_⟩
  rw [run_bind_of_eq (hrun w hw), hrest (w.proceed files' r) rfl, World.proceed_proceed]

/-- So may one computation for each item of a list. -/
theorem forM {items : List α} {f : α → StateM World Unit} (hf : ∀ a, IsOblivious (f a)) :
    IsOblivious (items.forM f) := by
  induction items with
  | nil => exact .pure ()
  | cons a items ih => exact (hf a).bind fun _ ↦ ih

/-! ### The effects of a machine -/

/-- Appending looks at the files, and whether it succeeds is known from them. -/
theorem appendFile (path : FilePath) (bytes : ByteArray) :
    IsOblivious (Machine.appendFile path bytes) := by
  intro files
  -- the witnesses have to be named before the world is, so the outcome is settled first
  cases happend : files.append path bytes with
  | error e =>
    refine ⟨.error e, files, .none, ?_⟩
    rintro w rfl
    rw [World.proceed_none]
    simp only [Machine.appendFile, StateT.run, happend]
  | ok files' =>
    refine ⟨.ok (), files', .none, ?_⟩
    rintro w rfl
    simp only [Machine.appendFile, StateT.run, happend, World.proceed, Remarks.none,
      Sink.print_empty, List.append_nil]

theorem readFile (path : FilePath) : IsOblivious (Machine.readFile path) := fun files ↦
  ⟨files.read path, files, .none, by rintro w rfl; rw [World.proceed_none]; rfl⟩

/-- Printing makes a remark; what becomes of it at the sink is no part of the answer. -/
theorem printLine (stream : Stream) (line : String) :
    IsOblivious (Machine.printLine stream line) := by
  intro files
  cases stream with
  | output =>
    refine ⟨(), files, ⟨line ++ "\n", "", []⟩, ?_⟩
    rintro w rfl
    rw [World.proceed, Sink.print_empty, List.append_nil]
    rfl
  | error =>
    refine ⟨(), files, ⟨"", line ++ "\n", []⟩, ?_⟩
    rintro w rfl
    rw [World.proceed, Sink.print_empty, List.append_nil]
    rfl

theorem note (line : LogLine) : IsOblivious (Machine.note line) := by
  refine fun files ↦ ⟨(), files, ⟨"", "", [line]⟩, ?_⟩
  rintro w rfl
  rw [World.proceed, Sink.print_empty, Sink.print_empty]
  rfl

end IsOblivious

/-! ### The computations of a session -/

/-- The records that are read are those of the file. -/
theorem History.isOblivious_readAll (history : History) :
    IsOblivious (history.readAll : StateM World _) := by
  refine .bind (.readFile history.path) fun found ↦ ?_
  split
  · split <;> exact .pure _
  · exact .pure _
  · exact .pure _

/-- Recording changes the file and makes a remark about it. -/
theorem History.isOblivious_append (history : History) (expression : String) (value : Binary64) :
    IsOblivious (history.append expression value : StateM World _) := by
  refine .bind (.appendFile history.path _) fun answer ↦ ?_
  split
  · exact .bind (.note _) fun _ ↦ .pure _
  · exact .pure _

namespace Session

variable (history : History)

/-- What is shown of the history is what its file has. -/
theorem isOblivious_showHistory : IsOblivious (showHistory history : StateM World Unit) := by
  refine .bind history.isOblivious_readAll fun answer ↦ ?_
  split
  · exact .forM fun line ↦ .printLine .output line
  · exact .printLine _ _
  · exact .printLine _ _

/-- What is shown of an evaluation is its value and whether it could be recorded. -/
theorem isOblivious_showValue (expression : String) :
    IsOblivious (showValue history expression : StateM World Unit) := by
  refine .bind (.forM .note) fun _ ↦ ?_
  split
  · exact .printLine _ _
  · refine .bind (.printLine _ _) fun _ ↦ .bind (history.isOblivious_append _ _) fun answer ↦ ?_
    split
    · exact .pure _
    · exact .bind (.note _) fun _ ↦ .printLine _ _

/-- Handling a line looks at the files only, whatever the line asks for. -/
theorem isOblivious_handle (line : String) :
    IsOblivious (handle history line : StateM World Flow) := by
  rw [handle]
  split
  · exact .pure _
  · exact .bind (isOblivious_showHistory history) fun _ ↦ .pure _
  · exact .bind (isOblivious_showValue history _) fun _ ↦ .pure _

/-! ### What a line shows -/

/-- What handling a line prints to the results. -/
def shown (history : History) (line : String) (w : World) : String :=
  (respond history line { w with output := ⟨true, ""⟩ }).2.output.text

/-- Whatever was printed to the results before, and whether or not they are taken, a line is
answered in the same way, and what it shows is printed after the rest. -/
theorem respond_withOutput (line : String) (w : World) (sink : Sink) :
    respond history line { w with output := sink } =
      ((respond history line w).1,
        { (respond history line w).2 with output := sink.print (shown history line w) }) := by
  obtain ⟨flow, files, r, hrun⟩ := isOblivious_handle history line w.files
  have hrespond (w' : World) (hw' : w'.files = w.files) :
      respond history line w' = (flow, w'.proceed files r) := hrun w' hw'
  -- on a sink that works and is empty, what is shown is the remark itself
  have hshown : shown history line w = r.output := by
    rw [shown, hrespond { w with output := ⟨true, ""⟩ } rfl]
    exact String.empty_append
  rw [hrespond { w with output := sink } rfl, hrespond w rfl, hshown]
  rfl

end Session

end TextCalculator
