import TextCalculator.Proofs.Oblivious

/-!
# The loop over the lines

A session that reads lines is handling these lines one after the other, up to the first reading that
ends it: the word for it, the end of the input, or a failure (`Session.run_eq_after`). Between the
lines it prints the banner, once for each attempt to read, and that is all it adds.

The lines are handled in worlds in which the banner has been printed, and `Session.after` handles
them without it. That this makes no difference is `Session.respond_withOutput`; the induction
(`Session.run_withOutput`) therefore carries along any sink for the results.
-/

namespace TextCalculator

variable {ε : Type}

namespace Reading

/-- Whether a session is over with what an attempt to read a line yields. -/
def ends : Reading ε → Bool
  | line text => Command.ofLine text = .exit
  | endOfInput | failure _ => true

/-- The outcome of a session that is over with what an attempt to read a line yields. -/
def outcome : Reading ε → Except ε Unit
  | line _ | endOfInput => .ok ()
  | failure e => .error e

/-- The line, if there is one. -/
def line? : Reading ε → Option String
  | line text => some text
  | endOfInput | failure _ => none

end Reading

namespace Session

/-- The lines that come before the end of a session. -/
def linesBeforeEnd (readings : List (Reading ε)) : List String :=
  (readings.takeWhile (!·.ends)).filterMap Reading.line?

/-- The outcome that what ends a session gives it. Without anything else it is the end of the
input. -/
def outcomeOf (readings : List (Reading ε)) : Except ε Unit :=
  ((readings.find? Reading.ends).getD .endOfInput).outcome

/-- The number of attempts to read a line that are made, the last of them being the one that ends
the session. -/
def readingsMade (readings : List (Reading ε)) : Nat :=
  min (readings.findIdx Reading.ends + 1) readings.length

/-- What is printed to the results while lines are taken: for each the banner, and what handling it
shows. -/
def transcript (history : History) : List String → World → String
  | [], _ => ""
  | line :: lines, w =>
    banner ++ "\n" ++ shown history line w ++ transcript history lines (respond history line w).2

variable {history : History} {w : World} {reading : Reading ε} {line : String}

/-- A reading that does not end a session is a line. -/
theorem exists_line_of_not_ends (h : reading.ends = false) :
    ∃ line, reading = .line line ∧ Command.ofLine line ≠ .exit := by
  cases reading with
  | line text => exact ⟨text, rfl, of_decide_eq_false h⟩
  | endOfInput => exact nomatch h
  | failure e => exact nomatch h

/-- Only the word for it ends a session, and handling it does nothing else. -/
theorem respond_of_exit (h : Command.ofLine line = .exit) :
    respond history line w = (.exit, w) := by
  rw [respond, handle, h]
  rfl

/-- Whatever else a line asks for, the session goes on after it. -/
theorem flow_respond_of_ne_exit (history : History) (h : Command.ofLine line ≠ .exit) (w : World) :
    (respond history line w).1 = .continue := by
  rw [respond, handle]
  split
  · next hexit => exact absurd hexit h
  · rfl
  · rfl

/-! ### One turn -/

/-- A turn that ends the session prints the banner and nothing else. -/
theorem run_turn_of_ends (h : reading.ends = true) :
    (turn history (pure reading) : StateM World _).run w =
      (some reading.outcome, w.print .output (banner ++ "\n")) := by
  rw [turn, run_bind_of_eq (run_showBanner w), pure_bind]
  cases reading with
  | endOfInput => rfl
  | failure e => rfl
  | line text =>
    have hexit : Command.ofLine text = .exit := of_decide_eq_true h
    exact run_bind_of_eq (respond_of_exit hexit)

/-- Any other turn prints the banner and handles the line. -/
theorem run_turn_of_line (h : Command.ofLine line ≠ .exit) :
    (turn history (pure (.line line) : StateM World (Reading ε))).run w =
      (none, (respond history line (w.print .output (banner ++ "\n"))).2) := by
  rw [turn, run_bind_of_eq (run_showBanner w), pure_bind]
  have hflow := flow_respond_of_ne_exit history h (w.print .output (banner ++ "\n"))
  exact run_bind_of_eq (Prod.ext hflow rfl)

/-! ### All turns -/

theorem linesBeforeEnd_of_ends (rest : List (Reading ε)) (h : reading.ends = true) :
    linesBeforeEnd (reading :: rest) = [] := by
  rw [linesBeforeEnd, List.takeWhile_cons_of_neg (by simp [h]), List.filterMap_nil]

theorem linesBeforeEnd_of_line (rest : List (Reading ε)) (h : Command.ofLine line ≠ .exit) :
    linesBeforeEnd (.line line :: rest) = line :: linesBeforeEnd rest := by
  rw [linesBeforeEnd, List.takeWhile_cons_of_pos (by simp [Reading.ends, h])]
  rfl

theorem outcomeOf_of_ends (rest : List (Reading ε)) (h : reading.ends = true) :
    outcomeOf (reading :: rest) = reading.outcome := by
  rw [outcomeOf, List.find?_cons_of_pos h, Option.getD_some]

theorem outcomeOf_of_line (rest : List (Reading ε)) (h : Command.ofLine line ≠ .exit) :
    outcomeOf (.line line :: rest) = outcomeOf rest := by
  rw [outcomeOf, List.find?_cons_of_neg (by simp [Reading.ends, h])]
  rfl

theorem readingsMade_of_ends (rest : List (Reading ε)) (h : reading.ends = true) :
    readingsMade (reading :: rest) = 1 := by
  rw [readingsMade, List.findIdx_cons, h]
  simp

/-- A line that does not end the session is one more attempt to read. -/
theorem readingsMade_of_line (rest : List (Reading ε)) (h : Command.ofLine line ≠ .exit) :
    readingsMade (.line line :: rest) = readingsMade rest + 1 := by
  have hends : (Reading.line line : Reading ε).ends = false := decide_eq_false h
  rw [readingsMade, List.findIdx_cons, hends, List.length_cons]
  exact Nat.add_min_add_right _ _ 1

/-- No line before the end of a session is the word for it. -/
theorem ofLine_ne_exit_of_mem_linesBeforeEnd {readings : List (Reading ε)}
    (h : line ∈ linesBeforeEnd readings) : Command.ofLine line ≠ .exit := by
  obtain ⟨reading, hmem, hline⟩ := List.mem_filterMap.1 h
  have hends := List.all_eq_true.1 List.all_takeWhile reading hmem
  cases reading with
  | line text =>
    obtain rfl := Option.some.inj hline
    simpa [Reading.ends] using hends
  | endOfInput => exact nomatch hline
  | failure e => exact nomatch hline

/-- The outcome of a session is an error exactly if lines that do not end it are followed by a
failure with this error. -/
theorem outcomeOf_eq_error_iff {readings : List (Reading ε)} {e : ε} :
    outcomeOf readings = .error e ↔
      ∃ unread, readings = (linesBeforeEnd readings).map .line ++ .failure e :: unread := by
  induction readings with
  | nil => simp [outcomeOf, Reading.outcome]
  | cons reading rest ih =>
    cases hends : reading.ends with
    | true =>
      rw [outcomeOf_of_ends rest hends, linesBeforeEnd_of_ends rest hends]
      cases reading with
      | line text => simp [Reading.outcome]
      | endOfInput => simp [Reading.outcome]
      | failure e' => simp [Reading.outcome]
    | false =>
      obtain ⟨line, rfl, hline⟩ := exists_line_of_not_ends hends
      rw [outcomeOf_of_line rest hline, linesBeforeEnd_of_line rest hline, ih]
      simp

/-- A failure ends a session with its error, after all lines before it if none of them ends it. -/
theorem summary_of_failure {lines : List String}
    (h : ∀ line ∈ lines, Command.ofLine line ≠ .exit) (e : ε) (unread : List (Reading ε)) :
    linesBeforeEnd (lines.map .line ++ .failure e :: unread) = lines ∧
      outcomeOf (lines.map .line ++ .failure e :: unread) = .error e := by
  induction lines with
  | nil => exact ⟨linesBeforeEnd_of_ends unread rfl, outcomeOf_of_ends unread rfl⟩
  | cons line lines ih =>
    obtain ⟨hline, hrest⟩ := List.forall_mem_cons.1 h
    obtain ⟨hlines, houtcome⟩ := ih hrest
    rw [List.map_cons, List.cons_append, linesBeforeEnd_of_line _ hline, outcomeOf_of_line _ hline,
      hlines, houtcome]
    exact ⟨rfl, rfl⟩

/-- What comes after the reading that ends a session has no part in it. -/
theorem summary_append {readings : List (Reading ε)} (h : readings.any Reading.ends = true)
    (unread : List (Reading ε)) :
    linesBeforeEnd (readings ++ unread) = linesBeforeEnd readings ∧
      outcomeOf (readings ++ unread) = outcomeOf readings ∧
      readingsMade (readings ++ unread) = readingsMade readings := by
  induction readings with
  | nil => exact nomatch h
  | cons reading rest ih =>
    rw [List.cons_append]
    cases hends : reading.ends with
    | true =>
      simp only [linesBeforeEnd_of_ends _ hends, outcomeOf_of_ends _ hends,
        readingsMade_of_ends _ hends, and_self]
    | false =>
      obtain ⟨line, rfl, hline⟩ := exists_line_of_not_ends hends
      rw [List.any_cons, hends, Bool.false_or] at h
      obtain ⟨hlines, houtcome, hmade⟩ := ih h
      simp only [linesBeforeEnd_of_line _ hline, outcomeOf_of_line _ hline,
        readingsMade_of_line _ hline, hlines, houtcome, hmade, and_self]

/-- A session does what handling its lines does, whatever the sink for the results. -/
theorem run_withOutput (history : History) (readings : List (Reading ε)) (w : World) (sink : Sink) :
    (run history readings : StateM World _).run { w with output := sink } =
      ((outcomeOf readings, readingsMade readings),
        { after history (linesBeforeEnd readings) w with
          output := sink.print
            (transcript history (linesBeforeEnd readings) w ++ (banner ++ "\n")) }) := by
  induction readings generalizing w sink with
  | nil =>
    rw [run, run_bind_of_eq (run_showBanner _)]
    rw [linesBeforeEnd, List.takeWhile_nil, List.filterMap_nil, transcript, String.empty_append]
    rfl
  | cons reading rest ih =>
    cases hends : reading.ends with
    | true =>
      rw [run, run_bind_of_eq (run_turn_of_ends hends), linesBeforeEnd_of_ends rest hends,
        outcomeOf_of_ends rest hends, readingsMade_of_ends rest hends]
      exact congrArg (fun text ↦ ((reading.outcome, 1), { w with output := sink.print text }))
        String.empty_append.symm
    | false =>
      obtain ⟨line, rfl, hline⟩ := exists_line_of_not_ends hends
      -- the line is handled behind the banner, and the rest behind what it shows
      have hworld := congrArg Prod.snd
        (respond_withOutput history line w (sink.print (banner ++ "\n")))
      have hrest := ih (respond history line w).2
        ((sink.print (banner ++ "\n")).print (shown history line w))
      rw [run, run_bind_of_eq (run_turn_of_line hline)]
      refine (run_bind_of_eq ((congrArg _ hworld).trans hrest)).trans ?_
      simp only [linesBeforeEnd_of_line rest hline, outcomeOf_of_line rest hline,
        readingsMade_of_line rest hline, Sink.print_print, transcript, String.append_assoc]
      rfl

/-- **A session is handling its lines one after the other**, up to the first reading that ends it. It
makes the attempts to read up to this one and none after it, and its outcome is an error exactly if
this one is a failure, which has this error. For each attempt it prints the banner to the results,
and what handling the line shows if the session goes on with one. Everything else in the world is as
handling the lines leaves it. -/
theorem run_eq_after (history : History) (readings : List (Reading ε)) (w : World) :
    let lines := linesBeforeEnd readings
    (run history readings : StateM World _).run w =
        ((outcomeOf readings, readingsMade readings),
          { after history lines w with
            output := w.output.print (transcript history lines w ++ (banner ++ "\n")) }) ∧
      (readings.any Reading.ends = true → ∀ unread,
        (run history (readings ++ unread) : StateM World _).run w =
          (run history readings : StateM World _).run w) := by
  intro lines
  refine ⟨run_withOutput history readings w w.output, fun hends unread ↦ ?_⟩
  obtain ⟨hlines, houtcome, hmade⟩ := summary_append hends unread
  have hrun := run_withOutput history (readings ++ unread) w w.output
  rw [hlines, houtcome, hmade] at hrun
  exact hrun.trans (run_withOutput history readings w w.output).symm

/-- The third of five readings is the word for the end: three attempts to read are made, and neither
the expression nor the failure after it is looked at. -/
theorem run_eq_after_at_exit :
    let history : History := ⟨.ofString "history.txt"⟩
    let start : World := ⟨.fresh, ⟨true, ""⟩, ⟨true, ""⟩, []⟩
    let readings : List (Reading String) := [.line "2^3", .line " History ", .line "Exit\t"]
    let unread : List (Reading String) := [.line "1+1", .failure "unreadable"]
    let final := after history ["2^3", " History "] start
    readings.any Reading.ends = true ∧
      (run history (readings ++ unread) : StateM World _).run start =
        ((.ok (), 3), { final with
          output := start.output.print
            (transcript history ["2^3", " History "] start ++ (banner ++ "\n")) }) := by
  intro history start readings unread final
  have hends : readings.any Reading.ends = true := by decide
  have hlines : linesBeforeEnd readings = ["2^3", " History "] := by decide
  have hfind : readings.find? Reading.ends = some (.line "Exit\t") := by decide
  have houtcome : outcomeOf readings = .ok () := by rw [outcomeOf, hfind]; rfl
  have hmade : readingsMade readings = 3 := by decide
  obtain ⟨hrun, hunread⟩ := run_eq_after history readings start
  rw [hlines, houtcome, hmade] at hrun
  exact ⟨hends, (hunread hends unread).trans hrun⟩

end Session

end TextCalculator
