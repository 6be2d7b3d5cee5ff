import Mathlib.Tactic.SplitIfs
import TextCalculator.FileSystem

/-!
# A file that grows

What appending does to the content of a file, one access after the other. A path *holds* a content,
or nothing yet, if it leads to a name in a directory and a file of this content is there, or nothing
is (`Holds`). Appending to such a path succeeds and puts the bytes at the end, and then the path
holds the longer content (`Holds.append`).

The last part rests on `follow_update`: all that is passed on the way to a file are directories, so
making or changing a file leaves every path where it led.
-/

namespace TextCalculator.FileSystem

variable {fs : FileSystem} {path : FilePath} {directory location reached : Location} {node : Node}

/-- What comes of one access and then another. -/
theorem bind_eq_ok {α β ε : Type} {x : Except ε α} {f : α → Except ε β} {b : β} :
    x >>= f = .ok b ↔ ∃ a, x = .ok a ∧ f a = .ok b := by
  cases x with
  | error e => simp [bind, Except.bind]
  | ok a => simp [bind, Except.bind]

/-! ### Following a path after a file has changed -/

/-- A name is looked up if it is not too long. -/
theorem child?_eq_ok_iff {name : List UInt8} {found : Option Node} :
    fs.child? directory name = .ok found ↔
      name.length ≤ maxNameLength ∧ fs.node? (name :: directory) = found := by
  rw [child?, ← Nat.not_lt]
  split
  · next hlong => simp [hlong]
  · next hlong => simp [hlong]

/-- A step stays on the way so far or passes a directory. -/
theorem step_eq_ok_iff {segment : List UInt8} : fs.step directory segment = .ok reached ↔
    if FilePath.isIdle segment then reached = directory
    else if segment = FilePath.above then reached = directory.tail
    else segment.length ≤ maxNameLength ∧ fs.node? (segment :: directory) = some .directory ∧
      reached = segment :: directory := by
  rw [step]
  split_ifs
  · rw [Except.ok.injEq, eq_comm]
  · rw [Except.ok.injEq, eq_comm]
  rw [bind_eq_ok]
  constructor
  · rintro ⟨found, hfound, hnext⟩
    obtain ⟨hlength, rfl⟩ := child?_eq_ok_iff.1 hfound
    split at hnext
    · next hnode => exact ⟨hlength, hnode, (Except.ok.inj hnext).symm⟩
    · exact nomatch hnext
    · exact nomatch hnext
  · rintro ⟨hlength, hnode, rfl⟩
    exact ⟨some .directory, child?_eq_ok_iff.2 ⟨hlength, hnode⟩, rfl⟩

theorem node?_update_self : (fs.update location node).node? location = some node := if_pos rfl

theorem node?_update_of_ne {other : Location} (h : other ≠ location) :
    (fs.update location node).node? other = fs.node? other := if_neg h

theorem start_update : (fs.update location node).start path = fs.start path := rfl

variable (hlocation : fs.node? location ≠ some .directory)
include hlocation

/-- A step that passes a directory passes it after another location has changed. -/
theorem step_update {segment : List UInt8} (h : fs.step directory segment = .ok reached) :
    (fs.update location node).step directory segment = .ok reached := by
  rw [step_eq_ok_iff] at h ⊢
  split_ifs at h ⊢
  · exact h
  · exact h
  obtain ⟨hlength, hnode, hnext⟩ := h
  have hne : segment :: directory ≠ location := fun heq ↦ hlocation (heq ▸ hnode)
  exact ⟨hlength, (node?_update_of_ne hne).trans hnode, hnext⟩

/-- So do steps in a row. -/
theorem foldlM_step_update {segments : List (List UInt8)}
    (h : segments.foldlM fs.step directory = .ok reached) :
    segments.foldlM (fs.update location node).step directory = .ok reached := by
  induction segments generalizing directory with
  | nil => exact h
  | cons segment segments ih =>
    rw [List.foldlM_cons, bind_eq_ok] at h ⊢
    obtain ⟨passed, hstep, hrest⟩ := h
    exact ⟨passed, step_update hlocation hstep, ih hrest⟩

/-- Every path leads where it led, after a file has been made or changed. -/
theorem follow_update {target : Target} (h : fs.follow path = .ok target) :
    (fs.update location node).follow path = .ok target := by
  simp only [follow, start_update] at h ⊢
  split_ifs at h ⊢
  cases hlast : (path.segments.filter (· ≠ [])).getLast? with
  | none => simpa only [hlast] using h
  | some last =>
    simp only [hlast, bind_eq_ok] at h ⊢
    obtain ⟨directory, hway, hend⟩ := h
    exact ⟨directory, foldlM_step_update hlocation hway, hend⟩

omit hlocation

/-! ### What a path holds -/

/-- A path leads to a name in a directory, where a file of the given content is, or nothing yet. -/
def Holds (fs : FileSystem) (path : FilePath) (content? : Option ByteArray) : Prop :=
  ∃ directory name, fs.follow path = .ok (.name directory name false) ∧
    name.length ≤ maxNameLength ∧ fs.node? (name :: directory) = content?.map .file

/-- Nothing is at a path, and a file can be made there. -/
structure IsNew (fs : FileSystem) (path : FilePath) : Prop where
  /-- Reading finds nothing. -/
  missing : fs.read path = .error .notFound
  /-- Appending succeeds. -/
  writable : ∃ files, fs.append path .empty = .ok files

variable {content? : Option ByteArray} {content : ByteArray}

/-- Reading finds what a path holds. -/
theorem Holds.read_of_some (h : fs.Holds path (some content)) : fs.read path = .ok content := by
  obtain ⟨directory, name, hfollow, hlength, hnode⟩ := h
  rw [read, hfollow]
  exact bind_eq_ok.2 ⟨_, rfl, bind_eq_ok.2 ⟨_, child?_eq_ok_iff.2 ⟨hlength, hnode⟩, rfl⟩⟩

/-- Reading finds nothing where nothing is held. -/
theorem Holds.read_of_none (h : fs.Holds path none) : fs.read path = .error .notFound := by
  obtain ⟨directory, name, hfollow, hlength, hnode⟩ := h
  have hchild := child?_eq_ok_iff.2 ⟨hlength, hnode⟩
  simp only [read, hfollow, hchild, bind, Except.bind, Option.map_none]

/-- A file or nothing is not on the way to anything else. -/
theorem node?_ne_directory (h : fs.node? location = content?.map .file) :
    fs.node? location ≠ some .directory := by
  rw [h]
  cases content? <;> simp

/-- Appending to what a path holds puts the bytes at the end. -/
theorem Holds.append (h : fs.Holds path content?) (bytes : ByteArray) :
    ∃ files, fs.append path bytes = .ok files ∧
      files.Holds path (some (content?.getD .empty ++ bytes)) := by
  obtain ⟨directory, name, hfollow, hlength, hnode⟩ := h
  refine ⟨fs.update (name :: directory) (.file (content?.getD .empty ++ bytes)), ?_,
    directory, name, follow_update (node?_ne_directory hnode) hfollow, hlength, node?_update_self⟩
  rw [FileSystem.append, hfollow]
  refine bind_eq_ok.2 ⟨_, rfl, bind_eq_ok.2 ⟨_, child?_eq_ok_iff.2 ⟨hlength, hnode⟩, ?_⟩⟩
  cases content? with
  | none => rw [Option.getD_none, ByteArray.empty_append]; rfl
  | some content => rfl

/-- A path where nothing is and a file can be made leads to a name that is not too long. -/
theorem isNew_iff : fs.IsNew path ↔ fs.Holds path none := by
  constructor
  · rintro ⟨hmissing, files, hfiles⟩
    rw [FileSystem.append, bind_eq_ok] at hfiles
    obtain ⟨target, hfollow, hfiles⟩ := hfiles
    split at hfiles
    · exact nomatch hfiles
    · exact nomatch hfiles
    next directory name =>
    obtain ⟨found, hchild, -⟩ := bind_eq_ok.1 hfiles
    obtain ⟨hlength, hnode⟩ := child?_eq_ok_iff.1 hchild
    refine ⟨directory, name, hfollow, hlength, ?_⟩
    -- reading would tell whatever else is there from nothing
    simp only [read, hfollow, hchild, bind, Except.bind] at hmissing
    split at hmissing
    · exact hnode
    · exact nomatch hmissing
    · exact nomatch hmissing
    · next isReadable => cases isReadable <;> exact nomatch hmissing
    · exact nomatch hmissing
  · intro h
    obtain ⟨files, hfiles, -⟩ := h.append .empty
    exact ⟨h.read_of_none, files, hfiles⟩

/-- A fresh file system has no history yet, and one can be made. -/
theorem isNew_fresh : fresh.IsNew (.ofString "history.txt") := by
  have hfollow : fresh.follow (.ofString "history.txt") =
      .ok (.name fresh.workingDirectory (nameOf "history.txt") false) := by with_unfolding_all rfl
  have hnone : fresh.node? (nameOf "history.txt" :: fresh.workingDirectory) = none := by
    with_unfolding_all rfl
  exact isNew_iff.2 ⟨_, _, hfollow, by decide +kernel, hnone⟩

end TextCalculator.FileSystem
