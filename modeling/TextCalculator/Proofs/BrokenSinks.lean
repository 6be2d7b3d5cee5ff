import TextCalculator.Proofs.AppendOnly

/-!
# Sinks that take nothing

What a session does, and what it leaves behind, is the same whether or not anybody takes what it
prints. `Call` is a request together with the state of the two sinks that it is given, and
`Call.observe` is all that can be seen of it: the answer, the files, the log, and what each sink has
taken. The main statement, `Call.observeAll_eq_zipWith_heard`, compares calls with the same calls on
sinks that work: all that is missing is what the broken sinks did not take.

A session is told whether a sink has taken a line (`Machine.print`), so this rests on its not
asking. `Session.isOblivious_run` says so of a whole session, by one turn and then all of them; what
a request adds to the files and to the sinks is then settled before the sinks are looked at.
-/

namespace TextCalculator

variable {ε : Type}

theorem IsOblivious.map {α β : Type} {x : StateM World α} (f : α → β) (hx : IsOblivious x) :
    IsOblivious (f <$> x) := hx.bind fun a ↦ .pure (f a)

namespace Session

variable (history : History)

theorem isOblivious_showBanner : IsOblivious (showBanner : StateM World Unit) := by
  intro files
  refine ⟨(), files, ⟨banner ++ "\n", "", []⟩, ?_⟩
  rintro w rfl
  rw [run_showBanner, World.proceed, Sink.print_empty, List.append_nil]
  rfl

theorem isOblivious_turn (reading : Reading ε) :
    IsOblivious (turn history (pure reading) : StateM World _) := by
  refine .bind isOblivious_showBanner fun _ ↦ .bind (.pure _) fun reading ↦ ?_
  split
  · exact .pure _
  · exact .pure _
  · refine .bind (isOblivious_handle history _) fun flow ↦ ?_
    split <;> exact .pure _

/-- A session looks at the files only, however many lines it takes. -/
theorem isOblivious_run (readings : List (Reading ε)) :
    IsOblivious (run history readings : StateM World _) := by
  induction readings with
  | nil => exact .bind isOblivious_showBanner fun _ ↦ .pure _
  | cons reading rest ih =>
    refine .bind (isOblivious_turn history reading) fun outcome ↦ ?_
    split
    · exact .pure _
    · exact .bind ih fun _ ↦ .pure _

end Session

namespace Request

/-- What is answered to a request. -/
inductive Answer (ε : Type) where
  /-- Whether the session goes on after a line. -/
  | flow (flow : Flow)
  /-- The outcome of a session, and the number of attempts to read a line. -/
  | outcome (outcome : Except ε Unit) (readings : Nat)
  /-- Whether a value has been recorded. -/
  | recorded (answer : Except HistoryError Unit)
  /-- The records, if they can be read. -/
  | records (answer : Except HistoryError (Option (List String)))

/-- Serves a request and answers it. -/
def perform (history : History) : Request ε → StateM World (Answer ε)
  | handle line => .flow <$> Session.handle history line
  | run readings => (fun (outcome, count) ↦ .outcome outcome count) <$> Session.run history readings
  | append expression value => .recorded <$> history.append expression value
  | readAll => .records <$> history.readAll

/-- The world after a request is the one in which it is answered. -/
theorem world_perform (history : History) (w : World) (request : Request ε) :
    ((request.perform history).run w).2 = request.serve history w := by
  cases request <;> rfl

/-- Answering a request takes a look at the files only. -/
theorem isOblivious_perform (history : History) (request : Request ε) :
    IsOblivious (request.perform history) := by
  cases request with
  | handle line => exact (Session.isOblivious_handle history line).map _
  | run readings => exact (Session.isOblivious_run history readings).map _
  | append expression value => exact (history.isOblivious_append expression value).map _
  | readAll => exact history.isOblivious_readAll.map _

/-- What a request makes of the files depends on the files only. -/
theorem files_serve_congr {w w' : World} (hfiles : w.files = w'.files) (history : History)
    (request : Request ε) : (request.serve history w).files = (request.serve history w').files := by
  rw [← world_perform, ← world_perform]
  exact ((isOblivious_perform history request).congr hfiles).2

end Request

/-- A request and the sinks that it is given. -/
structure Call (ε : Type) where
  /-- What is asked. -/
  request : Request ε
  /-- Whether the sink for results works. -/
  outputWorks : Bool
  /-- Whether the sink for messages about failures works. -/
  errorWorks : Bool

/-- What can be seen of a call. -/
structure Observation (ε : Type) where
  /-- What is answered. -/
  answer : Request.Answer ε
  /-- The files afterwards. -/
  files : FileSystem
  /-- What the sink for results has taken. -/
  output : String
  /-- What the sink for messages about failures has taken. -/
  error : String
  /-- The lines of the log. -/
  log : List LogLine

namespace Call

/-- The world in which a call is made. -/
def world (call : Call ε) (files : FileSystem) : World :=
  ⟨files, ⟨call.outputWorks, ""⟩, ⟨call.errorWorks, ""⟩, []⟩

/-- What is seen of a call. -/
def observe (history : History) (files : FileSystem) (call : Call ε) : Observation ε :=
  let (answer, w) := (call.request.perform history).run (call.world files)
  ⟨answer, w.files, w.output.text, w.error.text, w.log⟩

/-- What is seen of calls that are made one after the other. -/
def observeAll (history : History) : FileSystem → List (Call ε) → List (Observation ε)
  | _, [] => []
  | files, call :: calls =>
    let seen := call.observe history files
    seen :: observeAll history seen.files calls

theorem files_observe (history : History) (files : FileSystem) (call : Call ε) :
    (call.observe history files).files =
      (call.request.serve history (call.world files)).files := by
  rw [← Request.world_perform]
  rfl

/-- Calls leave the files as the requests do when they are served one after the other in one world,
so what is said of requests (`Request.serveAll_extends`) is said of calls, whatever their sinks. -/
theorem files_observeAll (history : History) (calls : List (Call ε)) {files : FileSystem}
    {w : World} (hfiles : w.files = files) :
    ((observeAll history files calls).getLast?.map Observation.files).getD files =
      (Request.serveAll history (calls.map Call.request) w).files := by
  induction calls generalizing files w with
  | nil => exact hfiles.symm
  | cons call calls ih =>
    -- the sinks of this call are not those of the world, but the files are the same
    have hcall : (call.request.serve history w).files = (call.observe history files).files :=
      (Request.files_serve_congr hfiles history call.request).trans
        (files_observe history files call).symm
    have hrest := ih hcall
    rw [observeAll, List.getLast?_cons, Option.map_some, Option.getD_some]
    refine Eq.trans ?_ hrest
    cases (observeAll history (call.observe history files).files calls).getLast? <;> rfl

/-- The call on sinks that work. -/
def mended (call : Call ε) : Call ε := ⟨call.request, true, true⟩

/-- What is left of an observation where a sink of the call does not work. -/
def heard (call : Call ε) (seen : Observation ε) : Observation ε :=
  { seen with
    output := if call.outputWorks then seen.output else ""
    error := if call.errorWorks then seen.error else "" }

/-- What a sink has taken that was empty before. -/
theorem text_print_empty (works : Bool) (text : String) :
    ((⟨works, ""⟩ : Sink).print text).text = if works then text else "" := by
  cases works
  · rfl
  · exact String.empty_append

/-- One call on broken sinks and on sinks that work. -/
theorem observe_eq_heard (history : History) (files : FileSystem) (call : Call ε) :
    call.observe history files = call.heard (call.mended.observe history files) := by
  obtain ⟨answer, files', remarks, hrun⟩ := call.request.isOblivious_perform history files
  have hobserve (works works' : Bool) : Call.observe history files ⟨call.request, works, works'⟩ =
      ⟨answer, files', if works then remarks.output else "", if works' then remarks.error else "",
        remarks.log⟩ := by
    rw [observe, hrun (world ⟨call.request, works, works'⟩ files) rfl, World.proceed, world,
      List.nil_append]
    simp only [text_print_empty]
  rw [mended, hobserve true true]
  exact hobserve call.outputWorks call.errorWorks

/-- **Sinks that take nothing change nothing else.** Let calls be made one after the other, on sinks
that work or do not, as may be for each. The answers are those to the same calls on sinks that work:
whether the session goes on, the outcome of a session and the number of lines that it asks for. The
files are the same after each call, and so is the log. A sink that works takes the same text,
whatever the state of the other one, and a sink that does not takes nothing. -/
theorem observeAll_eq_zipWith_heard (history : History) (files : FileSystem)
    (calls : List (Call ε)) :
    observeAll history files calls =
      List.zipWith heard calls (observeAll history files (calls.map mended)) := by
  induction calls generalizing files with
  | nil => rfl
  | cons call calls ih =>
    have hcall := observe_eq_heard history files call
    -- the calls after this one begin with the same files
    have hfiles : (call.observe history files).files =
        (call.mended.observe history files).files := by rw [hcall]; rfl
    rw [observeAll, List.map_cons, observeAll, List.zipWith_cons_cons, ← hcall, hfiles, ih]

-- The result is not shown, and it is recorded all the same.
example : ((observe ⟨.ofString "history.txt"⟩ .fresh
    (⟨.handle "2^3", false, true⟩ : Call String)).files.read (.ofString "history.txt")).toOption =
      some "2^3 = 8.0\n".toUTF8 := by decide +kernel

end Call

end TextCalculator
