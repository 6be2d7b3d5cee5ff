import TextCalculator.Proofs.GrowingFile
import TextCalculator.Proofs.ReadLoop

/-!
# A history is only ever appended to

Whatever is asked of a history and of a session that keeps it, the file grows by the entries of the
evaluations that could be recorded, in order, and nothing else in the file system changes
(`Request.serveAll_extends`). Which evaluations are to be recorded is read off the requests alone:
one for each line that a session takes and that is an expression with a value, and the one of a
direct request to append (`Request.recordings`).

What one accepted append does to a file system is `FileSystem.exists_of_append`. The rest is carried
by `FileSystem.IsExtension`, to which an append can be put in front (`IsExtension.cons`) because a
path keeps leading where it led while the file at its end grows.
-/

namespace TextCalculator

namespace FileSystem

variable {fs fs' fs'' : FileSystem} {path : FilePath} {location : Location}

/-- The content of the file at a path, empty if there is none. -/
def contentAt (fs : FileSystem) (path : FilePath) : ByteArray :=
  (fs.read path).toOption.getD .empty

/-- A path leads to a location, at which a file can be looked up or made. -/
def LeadsTo (fs : FileSystem) (path : FilePath) (location : Location) : Prop :=
  ∃ directory name, fs.follow path = .ok (.name directory name false) ∧
    name.length ≤ maxNameLength ∧ location = name :: directory

/-- At the end of a path there is a device, which keeps nothing of what is appended to it. -/
def LeadsToDevice (fs : FileSystem) (path : FilePath) : Prop :=
  ∃ location, fs.LeadsTo path location ∧ fs.node? location = some .nullDevice

/-- A path leads to one location at most. -/
theorem LeadsTo.unique {location' : Location} (h : fs.LeadsTo path location)
    (h' : fs.LeadsTo path location') : location = location' := by
  obtain ⟨directory, name, hfollow, -, rfl⟩ := h
  obtain ⟨directory', name', hfollow', -, rfl⟩ := h'
  obtain ⟨rfl, rfl, -⟩ := Target.name.inj (Except.ok.inj (hfollow.symm.trans hfollow'))
  rfl

/-- It still does after something that is no directory has been put elsewhere or in place of a file.
-/
theorem LeadsTo.update {location' : Location} (h : fs.LeadsTo path location)
    (hlocation : fs.node? location' ≠ some .directory) (node : Node) :
    (fs.update location' node).LeadsTo path location := by
  obtain ⟨directory, name, hfollow, hlength, rfl⟩ := h
  exact ⟨directory, name, follow_update hlocation hfollow, hlength, rfl⟩

/-- The content at a path is that of the file where it leads. -/
theorem LeadsTo.contentAt {content? : Option ByteArray} (h : fs.LeadsTo path location)
    (hnode : fs.node? location = content?.map .file) :
    fs.contentAt path = content?.getD .empty := by
  obtain ⟨directory, name, hfollow, hlength, rfl⟩ := h
  have hholds : fs.Holds path content? := ⟨directory, name, hfollow, hlength, hnode⟩
  cases content? with
  | none => rw [FileSystem.contentAt, hholds.read_of_none]; rfl
  | some content => rw [FileSystem.contentAt, hholds.read_of_some]; rfl

/-- An append that is accepted puts a longer file at the end of the path, or a file where there was
none. -/
theorem exists_of_append {bytes : ByteArray} (hdevice : ¬fs.LeadsToDevice path)
    (h : fs.append path bytes = .ok fs') :
    ∃ location content?, fs.LeadsTo path location ∧
      fs.node? location = Option.map Node.file content? ∧
      fs' = fs.update location (.file (content?.getD .empty ++ bytes)) := by
  rw [FileSystem.append, bind_eq_ok] at h
  obtain ⟨target, hfollow, h⟩ := h
  split at h
  · cases h
  · cases h
  next directory name =>
  obtain ⟨found, hchild, h⟩ := bind_eq_ok.1 h
  obtain ⟨hlength, hnode⟩ := child?_eq_ok_iff.1 hchild
  have hleads : fs.LeadsTo path (name :: directory) := ⟨directory, name, hfollow, hlength, rfl⟩
  split at h
  · refine ⟨_, none, hleads, hnode, ?_⟩
    rw [Option.getD_none, ByteArray.empty_append]
    exact (Except.ok.inj h).symm
  · next content => exact ⟨_, some content, hleads, hnode, (Except.ok.inj h).symm⟩
  · cases h
  · exact absurd ⟨_, hleads, hnode⟩ hdevice
  · cases h

/-- Nothing is appended to a file that may not be written. -/
theorem append_of_locked {content : ByteArray} {isReadable : Bool} (h : fs.LeadsTo path location)
    (hnode : fs.node? location = some (.lockedFile content isReadable)) (bytes : ByteArray) :
    fs.append path bytes = .error .permissionDenied := by
  obtain ⟨directory, name, hfollow, hlength, rfl⟩ := h
  have hchild := child?_eq_ok_iff.2 ⟨hlength, hnode⟩
  simp only [FileSystem.append, hfollow, hchild, bind, Except.bind]

/-! ### Extensions -/

/-- One file system is another in which entries have been appended to the file at a path, and in
which nothing else is different. -/
structure IsExtension (path : FilePath) (entries : List String) (fs fs' : FileSystem) : Prop where
  /-- The file has the entries after what it had. -/
  content : fs'.contentAt path = fs.contentAt path ++ (String.join entries).toUTF8
  /-- What is at other locations is the same. -/
  elsewhere : ∀ location, ¬fs.LeadsTo path location → fs'.node? location = fs.node? location
  /-- Relative paths begin at the same directory. -/
  workingDirectory : fs'.workingDirectory = fs.workingDirectory
  /-- Without entries everything is the same, and no file has been made. -/
  unchanged : entries = [] → fs' = fs

namespace IsExtension

theorem refl (path : FilePath) (fs : FileSystem) : IsExtension path [] fs fs where
  content := by rw [String.join_nil]; exact ByteArray.append_empty.symm
  elsewhere _ _ := rfl
  workingDirectory := rfl
  unchanged _ := rfl

/-- An accepted append and then an extension. The path has to lead to the same location after the
append as before. -/
theorem cons {entry : String} {entries : List String} (hdevice : ¬fs.LeadsToDevice path)
    (happend : fs.append path entry.toUTF8 = .ok fs') (h : IsExtension path entries fs' fs'') :
    IsExtension path (entry :: entries) fs fs'' := by
  obtain ⟨location, content?, hleads, hnode, rfl⟩ := exists_of_append hdevice happend
  let longer := content?.getD .empty ++ entry.toUTF8
  have hleads' := hleads.update (node?_ne_directory hnode) (.file longer)
  have hnode' : (fs.update location (.file longer)).node? location = (some longer).map .file :=
    node?_update_self
  refine ⟨?_, fun other hother ↦ ?_, h.workingDirectory, fun hnil ↦ nomatch hnil⟩
  · rw [h.content, hleads'.contentAt hnode', hleads.contentAt hnode, String.join_cons,
      Option.getD_some, ByteArray.append_assoc]
    simp only [String.toUTF8_eq_toByteArray, String.toByteArray_append]
  · have hne : other ≠ location := fun heq ↦ hother (heq ▸ hleads)
    rw [h.elsewhere other fun hother' ↦ hne (hother'.unique hleads'), node?_update_of_ne hne]

end IsExtension

/-- An append does not make a device of a file. -/
theorem not_leadsToDevice_of_append {bytes : ByteArray} (hdevice : ¬fs.LeadsToDevice path)
    (h : fs.append path bytes = .ok fs') : ¬fs'.LeadsToDevice path := by
  obtain ⟨location, content?, hleads, hnode, rfl⟩ := exists_of_append hdevice h
  rintro ⟨location', hleads', hnode'⟩
  obtain rfl := hleads'.unique (hleads.update (node?_ne_directory hnode) _)
  rw [node?_update_self] at hnode'
  exact nomatch hnode'

end FileSystem

variable {w w' : World} {history : History} {line expression : String} {value : Binary64} {ε : Type}

/-- What computations that look at the files only have in common in two worlds with the same files. -/
theorem IsOblivious.congr {α : Type} {x : StateM World α} (hx : IsOblivious x)
    (hfiles : w.files = w'.files) :
    (x.run w).1 = (x.run w').1 ∧ (x.run w).2.files = (x.run w').2.files := by
  obtain ⟨a, files, r, hrun⟩ := hx w'.files
  rw [hrun w hfiles, hrun w' rfl]
  exact ⟨rfl, rfl⟩

/-! ### Several evaluations recorded -/

namespace History

/-- Records evaluations one after the other, each an expression with its value. The answer is those
that could be recorded. -/
def appendEach (h : History) : List (String × Binary64) → StateM World (List (String × Binary64))
  | [] => return []
  | (expression, value) :: rest => do
    match ← h.append expression value with
    | .ok () =>
      let recorded ← h.appendEach rest
      return (expression, value) :: recorded
    | .error _ => h.appendEach rest

/-- The entries that evaluations have in a history. -/
def entries (recorded : List (String × Binary64)) : List String :=
  recorded.map fun (expression, value) ↦ entry expression value

/-- An append that fails has the cause as its answer and changes nothing. -/
theorem run_append_of_error {e : FileError}
    (h : w.files.append history.path (entry expression value).toUTF8 = .error e) :
    (history.append expression value : StateM World _).run w = (.error ⟨history.path, e⟩, w) := by
  have happend : (Machine.appendFile history.path (entry expression value).toUTF8 :
      StateM World _).run w = (.error e, w) := by
    simp only [Machine.appendFile, StateT.run, h]
  exact run_bind_of_eq happend

/-- Recording prints nothing to the results. -/
theorem output_run_append (history : History) (expression : String) (value : Binary64) (w : World) :
    ((history.append expression value : StateM World _).run w).2.output = w.output := by
  cases happend : w.files.append history.path (entry expression value).toUTF8 with
  | error e => rw [run_append_of_error happend]
  | ok files => rw [run_append happend]

theorem isOblivious_appendEach (evaluations : List (String × Binary64)) :
    IsOblivious (history.appendEach evaluations) := by
  induction evaluations with
  | nil => exact .pure _
  | cons evaluation rest ih =>
    refine .bind (history.isOblivious_append _ _) fun answer ↦ ?_
    split
    · exact .bind ih fun _ ↦ .pure _
    · exact ih

/-- An evaluation that cannot be recorded is passed over. -/
theorem run_appendEach_of_error {e : FileError} (rest : List (String × Binary64))
    (h : w.files.append history.path (entry expression value).toUTF8 = .error e) :
    (history.appendEach ((expression, value) :: rest)).run w = (history.appendEach rest).run w :=
  run_bind_of_eq (run_append_of_error h)

/-- An evaluation that can be recorded is recorded, and the others are recorded after it. -/
theorem run_appendEach_of_ok {files : FileSystem}
    (h : w.files.append history.path (entry expression value).toUTF8 = .ok files) :
    ∃ w' : World, w'.files = files ∧ ∀ rest,
      (history.appendEach ((expression, value) :: rest)).run w =
        ((expression, value) :: ((history.appendEach rest).run w').1,
          ((history.appendEach rest).run w').2) :=
  ⟨_, rfl, fun _ ↦ (run_bind_of_eq (run_append h)).trans (run_bind_of_eq rfl)⟩

theorem files_appendEach_singleton (expression : String) (value : Binary64) (w : World) :
    ((history.appendEach [(expression, value)]).run w).2.files =
      ((history.append expression value : StateM World _).run w).2.files := by
  cases hrun : (history.append expression value : StateM World _).run w with
  | mk answer w' =>
    rw [appendEach, run_bind_of_eq hrun]
    cases answer <;> rfl

/-- Evaluations are recorded one after the other, in one go or in two. -/
theorem world_appendEach_append (evaluations rest : List (String × Binary64)) (w : World) :
    ((history.appendEach (evaluations ++ rest)).run w).2 =
      ((history.appendEach rest).run ((history.appendEach evaluations).run w).2).2 := by
  induction evaluations generalizing w with
  | nil => rfl
  | cons evaluation evaluations ih =>
    obtain ⟨expression, value⟩ := evaluation
    rw [List.cons_append]
    cases happend : w.files.append history.path (entry expression value).toUTF8 with
    | error e => rw [run_appendEach_of_error _ happend, run_appendEach_of_error _ happend, ih]
    | ok files =>
      obtain ⟨w', -, hrun⟩ := run_appendEach_of_ok happend
      rw [hrun, hrun]
      exact ih w'

/-- Nothing is recorded, and nothing happens, where every append fails. -/
theorem run_appendEach_of_unwritable
    (h : ∀ bytes, ∃ e, w.files.append history.path bytes = .error e)
    (evaluations : List (String × Binary64)) :
    (history.appendEach evaluations).run w = ([], w) := by
  induction evaluations with
  | nil => rfl
  | cons evaluation rest ih =>
    obtain ⟨e, he⟩ := h (entry evaluation.1 evaluation.2).toUTF8
    rw [run_appendEach_of_error rest he, ih]

/-- The evaluations that could be recorded are those whose entries the file has been extended by. -/
theorem isExtension_appendEach (hdevice : ¬w.files.LeadsToDevice history.path)
    (evaluations : List (String × Binary64)) :
    let answer := (history.appendEach evaluations).run w
    FileSystem.IsExtension history.path (entries answer.1) w.files answer.2.files := by
  induction evaluations generalizing w with
  | nil => exact .refl _ _
  | cons evaluation rest ih =>
    obtain ⟨expression, value⟩ := evaluation
    intro answer
    cases happend : w.files.append history.path (entry expression value).toUTF8 with
    | error e =>
      have hanswer : answer = (history.appendEach rest).run w := run_appendEach_of_error rest happend
      rw [hanswer]
      exact ih hdevice
    | ok files =>
      obtain ⟨w', rfl, hrun⟩ := run_appendEach_of_ok happend
      have hanswer : answer = _ := hrun rest
      rw [hanswer]
      exact .cons hdevice happend
        (ih (FileSystem.not_leadsToDevice_of_append hdevice happend))

end History

/-! ### Lines that are recorded -/

namespace Session

/-- The evaluation that a line asks to record, if it is an expression with a value. -/
def recording? (line : String) : Option (String × Binary64) :=
  if Command.ofLine line = .evaluate line then (evaluate line).toOption.map (line, ·) else none

theorem recording?_of_not_isRecorded (h : isRecorded line = false) : recording? line = none := by
  rw [recording?]
  split
  · next hline =>
    cases hvalue : evaluate line with
    | error e => rfl
    | ok value => exact absurd (isRecorded_iff.2 ⟨hline, value, hvalue⟩) (by simp [h])
  · rfl

/-- Handling an expression that has a value changes the files as recording the value does. -/
theorem files_respond_of_value (hline : Command.ofLine line = .evaluate line)
    (hvalue : evaluate line = .ok value) (w : World) :
    (respond history line w).2.files =
      ((history.append line value : StateM World _).run w).2.files := by
  obtain ⟨printed, hprinted, -, hshow⟩ := exists_run_showValue history hvalue w
  have hfiles := ((history.isOblivious_append line value).congr hprinted).2
  have hrun : ((showValue history line : StateM World Unit).run w).2.files =
      ((history.append line value : StateM World _).run w).2.files := by
    rw [hshow, ← hfiles]
    exact (run_reportRecording _ _).1
  rw [respond, handle, hline]
  exact hrun

/-- Handling an expression that has a value prints it, and the session goes on. -/
theorem output_respond_of_value (hline : Command.ofLine line = .evaluate line)
    (hvalue : evaluate line = .ok value) (w : World) :
    (respond history line w).1 = .continue ∧
      (respond history line w).2.output =
        w.output.print ("Результат: " ++ value.render ++ "\n") := by
  obtain ⟨printed, -, hprinted, hshow⟩ := exists_run_showValue history hvalue w
  have hrun : ((showValue history line : StateM World Unit).run w).2.output = printed.output := by
    rw [hshow]
    exact (run_reportRecording _ _).2.trans (history.output_run_append line value printed)
  rw [respond, handle, hline, ← hprinted]
  exact ⟨rfl, hrun⟩

/-- Handling a line changes the files as recording what it asks to record does. -/
theorem files_respond (history : History) (line : String) (w : World) :
    (respond history line w).2.files =
      ((history.appendEach (recording? line).toList).run w).2.files := by
  cases hrecorded : isRecorded line with
  | false =>
    rw [files_respond_of_not_isRecorded hrecorded, recording?_of_not_isRecorded hrecorded]
    rfl
  | true =>
    obtain ⟨hline, value, hvalue⟩ := isRecorded_iff.1 hrecorded
    have hrecording : (recording? line).toList = [(line, value)] := by
      rw [recording?, if_pos hline, hvalue]
      rfl
    rw [hrecording, History.files_appendEach_singleton, files_respond_of_value hline hvalue]

/-- Lines change the files as recording what they ask to record does. -/
theorem files_after (history : History) (lines : List String) (w : World) :
    (after history lines w).files =
      ((history.appendEach (lines.filterMap recording?)).run w).2.files := by
  induction lines generalizing w with
  | nil => rfl
  | cons line lines ih =>
    have hsplit : (line :: lines).filterMap recording? =
        (recording? line).toList ++ lines.filterMap recording? := by
      cases hrecording : recording? line <;> simp [hrecording]
    have hline := files_respond history line w
    rw [hsplit, History.world_appendEach_append,
      ← ((History.isOblivious_appendEach _).congr hline).2]
    exact ih (respond history line w).2

end Session

/-! ### Requests -/

/-- What may be asked: of a session, to handle a line or to read lines until it is over; and of its
history, to record an evaluation or to be read. -/
inductive Request (ε : Type) where
  /-- To handle a line. -/
  | handle (line : String)
  /-- To take what attempts to read a line yield. -/
  | run (readings : List (Reading ε))
  /-- To record a value, whatever the expression. -/
  | append (expression : String) (value : Binary64)
  /-- To read all records. -/
  | readAll

namespace Request

/-- The world after a request. -/
def serve (history : History) (w : World) : Request ε → World
  | handle line => (Session.respond history line w).2
  | run readings => ((Session.run history readings : StateM World _).run w).2
  | append expression value => ((history.append expression value : StateM World _).run w).2
  | readAll => ((history.readAll : StateM World _).run w).2

/-- The world after requests, one after the other. -/
def serveAll (history : History) (requests : List (Request ε)) (w : World) : World :=
  requests.foldl (serve history) w

/-- The evaluations that a request asks to record: of a session those of the lines that it takes,
as far as they are expressions with a value. -/
def recordings : Request ε → List (String × Binary64)
  | handle line => (Session.recording? line).toList
  | run readings => (Session.linesBeforeEnd readings).filterMap Session.recording?
  | append expression value => [(expression, value)]
  | readAll => []

/-- A request changes the files as recording what it asks to record does. -/
theorem files_serve (history : History) (w : World) (request : Request ε) :
    (request.serve history w).files =
      ((history.appendEach request.recordings).run w).2.files := by
  cases request with
  | handle line => exact Session.files_respond history line w
  | run readings =>
    have hrun := Session.run_withOutput history readings w w.output
    rw [serve, hrun]
    exact Session.files_after history _ w
  | append expression value => exact (History.files_appendEach_singleton expression value w).symm
  | readAll =>
    obtain ⟨answer, hread⟩ := history.exists_run_readAll w
    rw [serve, hread]
    rfl

/-- Requests change the files as recording what they ask to record does. -/
theorem files_serveAll (history : History) (requests : List (Request ε)) (w : World) :
    (serveAll history requests w).files =
      ((history.appendEach (requests.flatMap recordings)).run w).2.files := by
  induction requests generalizing w with
  | nil => rfl
  | cons request requests ih =>
    have hserve := files_serve history w request
    rw [List.flatMap_cons, History.world_appendEach_append,
      ← ((History.isOblivious_appendEach _).congr hserve).2]
    exact ih (request.serve history w)

/-- A history that may not be written stays as it is, and so does everything else, whatever is asked
for. -/
theorem files_serveAll_of_locked {location : Location} {content : ByteArray} {isReadable : Bool}
    (hleads : w.files.LeadsTo history.path location)
    (hnode : w.files.node? location = some (.lockedFile content isReadable))
    (requests : List (Request ε)) : (serveAll history requests w).files = w.files := by
  have hunwritable (bytes : ByteArray) : ∃ e, w.files.append history.path bytes = .error e :=
    ⟨_, FileSystem.append_of_locked hleads hnode bytes⟩
  rw [files_serveAll, History.run_appendEach_of_unwritable hunwritable]

/-- **A history is only ever appended to.** Unless the path leads to a device, let requests be
served, whatever they are. They change the files as recording what they ask to record does, one
evaluation after the other, and the files are then extended by the entries of those evaluations that
could be recorded: the history has them, in order, after what it had, nothing else is different, and
if there are none nothing is different at all. -/
theorem serveAll_extends (history : History) (requests : List (Request ε)) (w : World)
    (hdevice : ¬w.files.LeadsToDevice history.path) :
    let final := serveAll history requests w
    let answer := (history.appendEach (requests.flatMap recordings)).run w
    final.files = answer.2.files ∧
      FileSystem.IsExtension history.path (History.entries answer.1) w.files final.files := by
  intro final answer
  have hfiles := files_serveAll history requests w
  have hextension : FileSystem.IsExtension history.path (History.entries answer.1) w.files
      answer.2.files := History.isExtension_appendEach hdevice _
  exact ⟨hfiles, hfiles ▸ hextension⟩

/-- A line, a session that ends before its last line, and a direct request: three entries, although
seven lines are asked for. -/
theorem serveAll_extends_by_three :
    let history : History := ⟨.ofString "history.txt"⟩
    let requests : List (Request String) :=
      [.handle "1+2", .handle "1/0",
        .run [.line "oops", .line "2^3\r", .line " History ", .line "eXit", .line "4*5"],
        .append "nothing" (.zero true), .readAll]
    let start : World := ⟨.fresh, ⟨true, ""⟩, ⟨false, ""⟩, []⟩
    ¬start.files.LeadsToDevice history.path ∧
      FileSystem.IsExtension history.path ["1+2 = 3.0\n", "2^3\r = 8.0\n", "nothing = -0.0\n"]
        start.files (serveAll history requests start).files := by
  intro history requests start
  have hdevice : ¬start.files.LeadsToDevice history.path := by
    rintro ⟨location, hleads, hnode⟩
    obtain ⟨directory, name, hfollow, hlength, hnone⟩ :=
      FileSystem.isNew_iff.1 FileSystem.isNew_fresh
    obtain rfl := hleads.unique ⟨directory, name, hfollow, hlength, rfl⟩
    exact nomatch hnode.symm.trans hnone
  have hentries : History.entries
      ((history.appendEach (requests.flatMap recordings)).run start).1 =
        ["1+2 = 3.0\n", "2^3\r = 8.0\n", "nothing = -0.0\n"] := by
    decide +kernel
  obtain ⟨-, hextension⟩ := serveAll_extends history requests start hdevice
  rw [hentries] at hextension
  exact ⟨hdevice, hextension⟩

end Request

end TextCalculator
