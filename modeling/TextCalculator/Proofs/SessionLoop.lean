import Mathlib.Logic.Function.Iterate
import Mathlib.Tactic.SplitIfs
import TextCalculator.Main

/-!
# Sessions as loops

On a machine a session is a loop of turns (`Session.serve`), and a line is read in a loop over bytes
(`CommandLine.readStretch`). `Session.run` has no loop: it is given what the attempts to read yield.
This module shows that the two are the same, and so what is proved of `Session.run` and of
`CommandLine.run` is proved of the program.

Of a loop all that is used is that it may be unfolded (`LoopsUnfold`). Computations of the operating
system have this property, and so have those of a machine that is a value. Unfolding goes on for
ever; what ends is the input. So the reader is a state, and `Session.Supplies` lists what it yields
from a state on; the proof is by induction on this list (`Session.serve_modifyGet`). A session does
nothing to the state of the reader, so it is a session of the machine below, lifted
(`Session.handle_lift`).

`CommandLine.start_eq_run` puts the two loops together, on a standard input of given bytes. That the
bytes of a stream of the operating system are given in this way is not part of it.
-/

namespace TextCalculator

variable {m : Type → Type} [Monad m] [Machine m] {σ ε : Type}

/-- A machine with a further state, which its effects leave alone. -/
instance : Machine (StateT σ m) where
  appendFile path bytes := liftM (Machine.appendFile path bytes : m _)
  readFile path := liftM (Machine.readFile path : m _)
  print stream text := liftM (Machine.print stream text : m _)
  flush stream := liftM (Machine.flush stream : m _)
  note line := liftM (Machine.note line : m _)

/-! ### A further state is left alone -/

section Lift

variable [LawfulMonad m] (history : History)

/-- Printing a line leaves a further state alone. -/
theorem Machine.printLine_lift (stream : Stream) (line : String) :
    (printLine stream line : StateT σ m Unit) = liftM (printLine stream line : m Unit) := by
  simp only [printLine, liftM, monadLift_bind, monadLift_pure]
  rfl

omit [Machine m] in
/-- So does carrying out an action that does for each item of a list. -/
theorem forM_lift {α : Type} {act : α → StateT σ m Unit} {act' : α → m Unit}
    (h : ∀ a, act a = liftM (act' a)) (as : List α) : as.forM act = liftM (as.forM act') := by
  induction as with
  | nil => exact (monadLift_pure _).symm
  | cons a as ih =>
    rw [List.forM, List.forM, h, ih]
    exact (monadLift_bind _ _).symm

/-- So does recording an evaluation. -/
theorem History.append_lift (expression : String) (value : Binary64) :
    (history.append expression value : StateT σ m _) =
      liftM (history.append expression value : m _) := by
  simp only [append, liftM, monadLift_bind]
  refine bind_congr fun answer ↦ ?_
  cases answer with
  | ok _ => simp only [monadLift_bind, monadLift_pure]; rfl
  | error e => exact (monadLift_pure _).symm

/-- So does reading the records. -/
theorem History.readAll_lift :
    (history.readAll : StateT σ m _) = liftM (history.readAll : m _) := by
  simp only [readAll, liftM, monadLift_bind]
  refine bind_congr fun answer ↦ ?_
  split
  · split <;> exact (monadLift_pure _).symm
  · exact (monadLift_pure _).symm
  · exact (monadLift_pure _).symm

namespace Session

theorem showBanner_lift : (showBanner : StateT σ m Unit) = liftM (showBanner : m Unit) := by
  simp only [showBanner, Machine.printLine_lift, liftM, monadLift_bind, monadLift_pure]
  rfl

theorem showHistory_lift :
    (showHistory history : StateT σ m Unit) = liftM (showHistory history : m Unit) := by
  simp only [showHistory, History.readAll_lift, liftM, monadLift_bind]
  refine bind_congr fun answer ↦ ?_
  split
  · exact forM_lift (Machine.printLine_lift _) _
  · exact Machine.printLine_lift _ _
  · exact Machine.printLine_lift _ _

theorem showValue_lift (expression : String) :
    (showValue history expression : StateT σ m Unit) =
      liftM (showValue history expression : m Unit) := by
  simp only [showValue, liftM, monadLift_bind]
  rw [forM_lift fun line ↦ (rfl : Machine.note line = liftM (Machine.note line : m Unit))]
  refine bind_congr fun _ ↦ ?_
  split
  · exact Machine.printLine_lift _ _
  · simp only [Machine.printLine_lift, History.append_lift, liftM, monadLift_bind]
    refine bind_congr fun _ ↦ bind_congr fun answer ↦ ?_
    cases answer with
    | ok _ => exact (monadLift_pure _).symm
    | error e => rw [monadLift_bind]; rfl

/-- Handling a line does to the machine what it does without the further state. -/
theorem handle_lift (line : String) :
    (handle history line : StateT σ m Flow) = liftM (handle history line : m Flow) := by
  rw [handle, handle]
  split
  · exact (monadLift_pure _).symm
  · simp only [showHistory_lift, liftM, monadLift_bind, monadLift_pure]
  · simp only [showValue_lift, liftM, monadLift_bind, monadLift_pure]

end Session

end Lift

/-! ### Loops -/

/-- A loop in a monad is its first round and then the loop again. -/
def LoopsUnfold (m : Type → Type) [Monad m] : Prop :=
  ∀ {α β : Type} [Nonempty β] (f : α → m (α ⊕ β)) (a : α),
    repeatM f a = repeatM.body f (repeatM f) a

/-- Loops unfold on a real machine. -/
theorem loopsUnfold_io : LoopsUnfold IO := fun _ a ↦ repeatM_eq_of_monadTail a

/-- Loops unfold on a machine that is a value, with or without a further state. -/
theorem loopsUnfold_world [Nonempty σ] : LoopsUnfold (StateT σ (StateM World)) :=
  have : Nonempty World := ⟨⟨.fresh, ⟨true, ""⟩, ⟨true, ""⟩, []⟩⟩
  fun _ a ↦ repeatM_eq_of_monadTail a

/-! ### The loop of turns -/

namespace Session

/-- A session takes a turn, and then it is over or goes on as before. -/
theorem serve_eq [LawfulMonad m] (hloops : LoopsUnfold m) (history : History)
    (read : m (Reading ε)) :
    serve history read = turn history read >>= fun outcome ↦
      outcome.elim (serve history read) pure := by
  refine (hloops _ ()).trans ?_
  rw [repeatM.body, bind_assoc]
  refine bind_congr fun outcome ↦ ?_
  cases outcome <;> simp [serve]

/-- What a source yields from a state on: either nothing more, and the source stays at the end of
the input, or one reading and then what it yields from the next state on. -/
def Supplies (source : σ → Reading ε × σ) (readings : σ → List (Reading ε)) : Prop :=
  ∀ s, readings s = [] ∧ source s = (.endOfInput, s) ∨
    readings s = (source s).1 :: readings (source s).2

variable [LawfulMonad m] {source : σ → Reading ε × σ} {readings : σ → List (Reading ε)}

/-- A turn that reads from a source is the turn with this reading, and the source moves on. -/
theorem run_turn_modifyGet (history : History) (source : σ → Reading ε × σ) (s : σ) :
    (turn history (modifyGet source) : StateT σ m _).run s = do
      let outcome ← turn history (pure (source s).1)
      return (outcome, (source s).2) := by
  simp only [turn, showBanner_lift, handle_lift, bind_assoc, pure_bind, StateT.run_bind,
    StateT.run_monadLift, StateT.run_modifyGet, monadLift_self]
  refine bind_congr fun _ ↦ ?_
  split
  · simp
  · simp
  · next line =>
    simp only [StateT.run_bind, StateT.run_monadLift, monadLift_self, bind_assoc, pure_bind]
    refine bind_congr fun flow ↦ ?_
    cases flow <;> simp

/-- **The loop of turns is the session on the readings.** A session that reads from a source does
what `run` does on the list of what the source yields, and leaves the source after as many readings
as `run` counts. -/
theorem serve_modifyGet (hloops : LoopsUnfold (StateT σ m)) (hsource : Supplies source readings)
    (history : History) (s : σ) :
    (serve history (modifyGet source) : StateT σ m _).run s = do
      let (outcome, count) ← run history (readings s)
      return (outcome, (Prod.snd ∘ source)^[count] s) := by
  generalize hlist : readings s = list
  induction list generalizing s with
  | nil =>
    obtain ⟨-, hend⟩ | hcons := hsource s
    · -- at the end of the input the turn is the last one
      rw [serve_eq hloops, StateT.run_bind, run_turn_modifyGet, hend, turn, run]
      simp
    · exact nomatch hlist.symm.trans hcons
  | cons reading rest ih =>
    obtain ⟨hnil, -⟩ | hcons := hsource s
    · exact nomatch hlist.symm.trans hnil
    obtain ⟨rfl, hrest⟩ := List.cons.inj (hlist.symm.trans hcons)
    rw [serve_eq hloops, StateT.run_bind, run_turn_modifyGet, run, bind_assoc, bind_assoc]
    refine bind_congr fun outcome ↦ ?_
    cases outcome with
    | some outcome => simp
    | none => simp [ih _ hrest.symm, Function.iterate_succ_apply]

end Session

/-! ### The loop over bytes -/

namespace CommandLine

/-- The first byte of an input and the rest. -/
def takeByte : List UInt8 → Option UInt8 × List UInt8
  | [] => (none, [])
  | byte :: rest => (some byte, rest)

/-- The bytes of an input up to a line feed, whether there is one, and the rest. -/
def takeStretch : List UInt8 → (List UInt8 × Bool) × List UInt8
  | [] => (([], false), [])
  | byte :: rest =>
    if byte = 0x0a then (([], true), rest)
    else
      let ((line, ended), rest) := takeStretch rest
      ((byte :: line, ended), rest)

/-- What an attempt to read yields on an input, and the rest. -/
def takeReading (input : List UInt8) : Reading String × List UInt8 :=
  let (stretch, rest) := takeStretch input
  (readingOf stretch, rest)

section Reader

variable {n : Type → Type} [Monad n] [LawfulMonad n]

/-- Reading a stretch is reading a byte, and then it is over or goes on as before. -/
theorem readStretch_eq (hloops : LoopsUnfold n) (readByte : n (Option UInt8))
    (line : Array UInt8) : readStretch readByte line = (do
      match ← readByte with
      | none => return (line.toList, false)
      | some byte =>
        if byte = 0x0a then return (line.toList, true)
        else readStretch readByte (line.push byte)) := by
  refine (hloops _ line).trans ?_
  rw [repeatM.body, bind_assoc]
  refine bind_congr fun byte ↦ ?_
  cases byte with
  | none => simp
  | some byte => by_cases hfeed : byte = 0x0a <;> simp [hfeed, readStretch]

/-- On given bytes, a stretch is what they have up to the line feed. -/
theorem run_readStretch (hloops : LoopsUnfold (StateT (List UInt8) n)) (line : Array UInt8)
    (input : List UInt8) :
    (readStretch (modifyGet takeByte) line : StateT (List UInt8) n _).run input =
      pure ((line.toList ++ (takeStretch input).1.1, (takeStretch input).1.2),
        (takeStretch input).2) := by
  induction input generalizing line with
  | nil =>
    rw [readStretch_eq hloops]
    simp [takeByte, takeStretch]
  | cons byte rest ih =>
    rw [readStretch_eq hloops, takeStretch]
    by_cases hfeed : byte = 0x0a
    · simp [takeByte, hfeed]
    · simp [takeByte, hfeed, ih]

/-- Attempting to read a line takes the reading. -/
theorem readLine_modifyGet (hloops : LoopsUnfold (StateT (List UInt8) n)) :
    (readLine (modifyGet takeByte) : StateT (List UInt8) n _) = modifyGet takeReading := by
  refine StateT.ext fun input ↦ ?_
  rw [readLine, StateT.run_map, run_readStretch hloops, map_pure, StateT.run_modifyGet]
  rfl

end Reader

/-- The first stretch of an input is the one that is taken, and the others are those of the rest. -/
theorem stretches_eq_cons {input : List UInt8} (h : input ≠ []) :
    Text.stretches 0x0a input =
      (takeStretch input).1 :: Text.stretches 0x0a (takeStretch input).2 := by
  induction input with
  | nil => exact absurd rfl h
  | cons byte rest ih =>
    rw [Text.stretches, takeStretch]
    split_ifs with hfeed
    · rfl
    · cases rest with
      | nil => rfl
      | cons next rest => rw [ih (List.cons_ne_nil next rest)]

/-- Before the end of the input a stretch is a line. -/
theorem readingOf_takeStretch {input : List UInt8} (h : input ≠ []) :
    readingOf (takeStretch input).1 = reading (Text.lineOf 0x0d (takeStretch input).1) := by
  cases input with
  | nil => exact absurd rfl h
  | cons byte rest =>
    rw [takeStretch]
    split_ifs <;> rfl

/-- One attempt to read after the other yields what a standard input yields. -/
theorem supplies_takeReading : Session.Supplies takeReading readings := by
  intro input
  by_cases hinput : input = []
  · subst hinput
    exact .inl ⟨rfl, rfl⟩
  · right
    have hreading : (takeReading input).1 = reading (Text.lineOf 0x0d (takeStretch input).1) :=
      readingOf_takeStretch hinput
    rw [hreading, readings, Text.lines, stretches_eq_cons hinput]
    rfl

variable [LawfulMonad m]

theorem finish_lift (outcome : Except String Unit) :
    (finish outcome : StateT σ m UInt32) = liftM (finish outcome : m UInt32) := by
  cases outcome with
  | ok _ => exact (monadLift_pure _).symm
  | error e => simp only [finish, Machine.printLine_lift, liftM, monadLift_bind, monadLift_pure]

/-- **The program on a machine is the program on given bytes.** Let its session be the loop of turns
that read lines in the loop over the bytes of the standard input. The program then says in the log
where the history is and does what `run` does: the same effects, and the same exit code. -/
theorem start_eq_run (hloops : LoopsUnfold (StateT (List UInt8) m)) (history : History)
    (arguments : List String) (input : List UInt8) :
    let session : StateT (List UInt8) m _ := Session.serve history (readLine (modifyGet takeByte))
    Prod.fst <$> (start history arguments session).run input = (do
      Machine.note (located history)
      run history arguments input) := by
  intro session
  have hsession : session.run input = (do
      let (outcome, count) ← Session.run history (readings input)
      return (outcome, (Prod.snd ∘ takeReading)^[count] input)) := by
    rw [← Session.serve_modifyGet hloops supplies_takeReading, ← readLine_modifyGet hloops]
  have hnote : (Machine.note (located history) : StateT (List UInt8) m Unit) =
      liftM (Machine.note (located history) : m Unit) := rfl
  rw [start, run, dispatch, dispatch, hnote]
  cases line? arguments with
  | some line => simp [Session.handle_lift]
  | none => simp [hsession, finish_lift]

/-- On a machine that is a value, all that the loops and the log line before them make different from
`run` is this line. -/
theorem run_start (history : History) (arguments : List String) (input : List UInt8) (w : World) :
    let session : StateT (List UInt8) (StateM World) _ :=
      Session.serve history (readLine (modifyGet takeByte))
    (Prod.fst <$> (start history arguments session).run input : StateM World UInt32).run w =
      (run history arguments input : StateM World UInt32).run
        { w with log := w.log ++ [located history] } := by
  intro session
  rw [start_eq_run loopsUnfold_world]
  rfl

end CommandLine

namespace Main

/-- Computations of the operating system may be regrouped. -/
theorem lawfulMonad_io : LawfulMonad IO :=
  .mk' _
    (fun x ↦ funext fun world ↦ by
      change EST.bind x (fun a ↦ EST.pure a) world = x world
      delta EST.bind
      dsimp only
      cases x world <;> rfl)
    (fun _ _ ↦ rfl)
    fun x f g ↦ funext fun world ↦ by
      change EST.bind (EST.bind x f) g world = EST.bind x (fun a ↦ EST.bind (f a) g) world
      delta EST.bind
      dsimp only
      cases x world <;> rfl

/-- The session of the program takes a turn, and then it is over or goes on as before. -/
theorem serve_readLine (history : History) :
    Session.serve history readLine = Session.turn history readLine >>= fun outcome ↦
      outcome.elim (Session.serve history readLine) pure :=
  have := lawfulMonad_io
  Session.serve_eq loopsUnfold_io history readLine

/-- The program reads a line byte by byte. -/
theorem readStretch_readByte (input : IO.FS.Stream) (line : Array UInt8) :
    CommandLine.readStretch (readByte input) line = (do
      match ← readByte input with
      | none => return (line.toList, false)
      | some byte =>
        if byte = 0x0a then return (line.toList, true)
        else CommandLine.readStretch (readByte input) (line.push byte)) :=
  have := lawfulMonad_io
  CommandLine.readStretch_eq loopsUnfold_io (readByte input) line

end Main

end TextCalculator
