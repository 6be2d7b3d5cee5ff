import Mathlib.Data.List.Forall2
import TextCalculator.Proofs.Division
import TextCalculator.Proofs.ReadLoop
import TextCalculator.Session.CommandLine

/-!
# The program on its arguments and on its standard input

Without arguments the program is a session on the lines of its standard input
(`CommandLine.run_agrees`). The lines are what splitting the bytes at every line feed gives, with a
carriage return before a line feed dropped and an empty last piece left out
(`CommandLine.readings_eq`). A line that is no text ends the session with a failure, and only then
is the exit code 1; it is reached if no line before it ends the session, and all of these are handled.

With arguments the program handles one line, never looks at the standard input, and ends with 0.
-/

namespace TextCalculator.CommandLine

variable {history : History} {w : World} {bytes : List UInt8} {text : String}

/-! ### Lines of bytes -/

/-- Bytes are those of a text. -/
def Encodes (bytes : List UInt8) (text : String) : Prop := text.toUTF8 = ⟨bytes.toArray⟩

/-- What reading the bytes of a line yields: the text that they are the bytes of, or a failure if
they are those of no text. -/
inductive Yields : List UInt8 → Reading String → Prop
  /-- Bytes of a text. -/
  | line {bytes : List UInt8} {text : String} (h : Encodes bytes text) : Yields bytes (.line text)
  /-- Bytes of no text. -/
  | failure {bytes : List UInt8} (h : ∀ text, ¬Encodes bytes text) :
    Yields bytes (.failure FileError.notText.message)

/-- The lines of a standard input. -/
def inputLines (input : List UInt8) : List (List UInt8) :=
  let pieces := input.splitOn 0x0a
  pieces.dropLast.map (Text.dropReturn 0x0d) ++ pieces.getLast?.toList.filter (· ≠ [])

theorem readings_eq (input : List UInt8) : readings input = (inputLines input).map reading := by
  rw [readings, Text.lines_eq_splitOn]
  rfl

/-- Bytes are taken for a text exactly if they encode it. -/
theorem fromUTF8?_eq_some_iff :
    String.fromUTF8? ⟨bytes.toArray⟩ = some text ↔ Encodes bytes text := by
  constructor
  · intro h
    rw [String.fromUTF8?] at h
    split at h
    · exact (congrArg String.toUTF8 (Option.some.inj h)).symm
    · cases h
  · intro h
    rw [← show text.toUTF8 = _ from h, fromUTF8?_toUTF8]

/-- A line of bytes yields a text exactly if it encodes this text. -/
theorem reading_eq_line_iff : reading bytes = .line text ↔ Encodes bytes text := by
  rw [reading, ← fromUTF8?_eq_some_iff]
  split
  · next text' h => rw [h, Reading.line.injEq, Option.some.injEq]
  · next h => simp [h]

/-- It yields a failure exactly if it encodes no text. -/
theorem reading_eq_failure_iff {e : String} :
    reading bytes = .failure e ↔ e = FileError.notText.message ∧ ∀ text, ¬Encodes bytes text := by
  simp only [reading, ← fromUTF8?_eq_some_iff]
  split
  · next text h => simp [h]
  · next h => simp [h, eq_comm]

theorem yields_reading (bytes : List UInt8) : Yields bytes (reading bytes) := by
  cases h : reading bytes with
  | line text => exact .line (reading_eq_line_iff.1 h)
  | failure e =>
    obtain ⟨rfl, htext⟩ := reading_eq_failure_iff.1 h
    exact .failure htext
  | endOfInput =>
    rw [reading] at h
    split at h <;> exact nomatch h

/-! ### The line that is no text -/

/-- A standard input begins with the lines of texts, none of which ends a session, and then has a
line that is no text. -/
def FailsAfter (input : List UInt8) (texts : List String) : Prop :=
  ∃ before bad rest, inputLines input = before ++ bad :: rest ∧
    List.Forall₂ Encodes before texts ∧ (∀ text ∈ texts, Command.ofLine text ≠ .exit) ∧
    ∀ text, ¬Encodes bad text

/-- Lines of bytes yield texts exactly if they encode them, one by one. -/
theorem map_reading_eq_map_line_iff {lines : List (List UInt8)} {texts : List String} :
    lines.map reading = texts.map .line ↔ List.Forall₂ Encodes lines texts := by
  rw [← List.forall₂_eq_eq_eq, List.forall₂_map_left_iff, List.forall₂_map_right_iff]
  simp only [reading_eq_line_iff]

/-- The session on such a standard input takes the texts and is then over with a failure. -/
theorem FailsAfter.summary {input : List UInt8} {texts : List String} (h : FailsAfter input texts) :
    Session.linesBeforeEnd (readings input) = texts ∧
      Session.outcomeOf (readings input) = .error FileError.notText.message := by
  obtain ⟨before, bad, rest, hinput, htexts, hexit, hbad⟩ := h
  rw [readings_eq, hinput, List.map_append, List.map_cons, map_reading_eq_map_line_iff.2 htexts,
    reading_eq_failure_iff.2 ⟨rfl, hbad⟩]
  exact Session.summary_of_failure hexit _ _

/-- Nothing else makes a session on a standard input fail. -/
theorem failsAfter_of_outcomeOf {input : List UInt8} {e : String}
    (h : Session.outcomeOf (readings input) = .error e) :
    FailsAfter input (Session.linesBeforeEnd (readings input)) := by
  obtain ⟨unread, hreadings⟩ := Session.outcomeOf_eq_error_iff.1 h
  obtain ⟨before, tail, hinput, hbefore, htail⟩ :=
    List.map_eq_append_iff.1 ((readings_eq input).symm.trans hreadings)
  obtain ⟨bad, rest, rfl, hbad, -⟩ := List.map_eq_cons_iff.1 htail
  exact ⟨before, bad, rest, hinput, map_reading_eq_map_line_iff.1 hbefore,
    fun text ↦ Session.ofLine_ne_exit_of_mem_linesBeforeEnd, (reading_eq_failure_iff.1 hbad).2⟩

/-! ### The program -/

/-- Without arguments the program is a session, and its exit code is 1 if the session fails, which
is then reported. -/
theorem run_without_arguments (input : List UInt8) :
    let session := (Session.run history (readings input) : StateM World _).run w
    (run history [] input : StateM World UInt32).run w =
      match session.1.1 with
      | .ok () => (0, session.2)
      | .error e => (1, session.2.print .error (report e ++ "\n")) := by
  intro session
  have hprogram : (run history [] input : StateM World UInt32).run w =
      (finish session.1.1 : StateM World UInt32).run session.2 := rfl
  rw [hprogram]
  split
  · next houtcome => rw [houtcome]; rfl
  · next e houtcome => rw [houtcome]; rfl

theorem run_with_arguments {arguments : List String} (h : arguments ≠ []) (input : List UInt8) :
    (run history arguments input : StateM World UInt32).run w =
      (0, (Session.respond history (" ".intercalate arguments) w).2) := by
  rw [run, dispatch, line?, if_neg h]
  exact run_bind_of_eq rfl

/-- **The program is a session on the lines of its standard input, or else handles one line.**
Without arguments it does what the session does that is given what its lines yield. If a line that
is no text is reached, it handles the lines before it, reports the failure and ends with 1; otherwise
it ends with 0. With arguments it handles these as one line, whatever the standard input and whatever
comes of the line, and ends with 0. -/
theorem run_agrees (history : History) (w : World) :
    (∀ input, ∃ readings, List.Forall₂ Yields (inputLines input) readings ∧
      let session := (Session.run history readings : StateM World _).run w
      let program := (run history [] input : StateM World UInt32).run w
      (program = match session.1.1 with
        | .ok () => (0, session.2)
        | .error e => (1, session.2.print .error (report e ++ "\n"))) ∧
      ((∃ texts, FailsAfter input texts) ∧ program.1 = 1 ∨
        (¬∃ texts, FailsAfter input texts) ∧ program.1 = 0) ∧
      ∀ texts, FailsAfter input texts →
        session.2 = { Session.after history texts w with
          output := w.output.print
            (Session.transcript history texts w ++ (Session.banner ++ "\n")) }) ∧
    ∀ arguments input, arguments ≠ [] →
      (run history arguments input : StateM World UInt32).run w =
        (0, (Session.respond history (" ".intercalate arguments) w).2) := by
  refine ⟨fun input ↦ ⟨readings input, ?_, ?_⟩, fun arguments input h ↦ run_with_arguments h input⟩
  · rw [readings_eq, List.forall₂_map_right_iff, List.forall₂_same]
    exact fun bytes _ ↦ yields_reading bytes
  intro session program
  have hprogram : program = match session.1.1 with
      | .ok () => (0, session.2)
      | .error e => (1, session.2.print .error (report e ++ "\n")) := run_without_arguments input
  -- the exit code is decided by the outcome of the readings, whatever the world is
  have hsession : session = _ := Session.run_withOutput history (readings input) w w.output
  have houtcome : session.1.1 = Session.outcomeOf (readings input) := by rw [hsession]
  refine ⟨hprogram, ?_, fun texts htexts ↦ ?_⟩
  · cases hcase : session.1.1 with
    | ok _ =>
      refine .inr ⟨?_, by rw [hprogram, hcase]⟩
      rintro ⟨texts, htexts⟩
      exact nomatch hcase.symm.trans (houtcome.trans htexts.summary.2)
    | error e =>
      exact .inl ⟨⟨_, failsAfter_of_outcomeOf (houtcome.symm.trans hcase)⟩, by rw [hprogram, hcase]⟩
  · rw [hsession, htexts.summary.1]

/-- A line with a value, then a line that is no text, then the word that ends a session. The session
fails at the second line; two arguments make one line, and the standard input is left alone. -/
theorem run_agrees_at_bad_line :
    let history : History := ⟨.ofString "history.txt"⟩
    let start : World := ⟨.fresh, ⟨true, ""⟩, ⟨true, ""⟩, []⟩
    let input : List UInt8 := "1+2\r\n".toUTF8.toList ++ 0xff :: "\nexit\n".toUTF8.toList
    FailsAfter input ["1+2"] ∧ ((run history [] input : StateM World UInt32).run start).1 = 1 ∧
      ["6", "* 7"] ≠ [] ∧ (run history ["6", "* 7"] input : StateM World UInt32).run start =
        (0, (Session.respond history "6 * 7" start).2) := by
  intro history start input
  have hfails : FailsAfter input ["1+2"] := by
    have htext : "1+2".toUTF8 = ⟨"1+2".toUTF8.toList.toArray⟩ := by decide +kernel
    have hbad : String.fromUTF8? ⟨[(0xff : UInt8)].toArray⟩ = none := by decide +kernel
    refine ⟨["1+2".toUTF8.toList], [0xff], ["exit".toUTF8.toList], by decide +kernel,
      .cons htext .nil, by decide +kernel, fun text hencodes ↦ ?_⟩
    exact nomatch hbad.symm.trans (fromUTF8?_eq_some_iff.2 hencodes)
  obtain ⟨hinput, harguments⟩ := run_agrees history start
  obtain ⟨readings, -, -, hcode, -⟩ := hinput input
  have hcode := hcode.resolve_right fun h ↦ h.1 ⟨_, hfails⟩
  exact ⟨hfails, hcode.2, by decide, harguments _ input (by decide)⟩

end TextCalculator.CommandLine
