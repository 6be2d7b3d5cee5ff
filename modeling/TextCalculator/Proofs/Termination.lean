import TextCalculator.Expression.EvaluationLog
import TextCalculator.Proofs.Run

/-!
# Evaluation ends

A round leaves fewer seams than there were, so the seams of a text bound the rounds that can follow
it. The bound holds of every run of rounds (`length_le_seams_of_isChain`), and the rounds of an
evaluation are such a run (`isChain_rewrites_ofText`). Its log reports each round once
(`countP_reportsRound_log`), so the same number bounds the reports.
-/

namespace TextCalculator.Evaluation

/-! ### Runs of rounds -/

/-- A round leaves fewer seams, whatever number it writes. -/
theorem seams_lt_of_rewrites {cs ds : List Char} (h : Rewrites cs ds) : seams ds < seams cs := by
  obtain ⟨redex, value, hdue, -, rfl⟩ := h
  exact Round.seams_after_lt (r := ⟨redex, value⟩) hdue

/-- A run of rounds is no longer than there are seams where it begins. -/
theorem length_le_seams_of_isChain {cs : List Char} {run : List (List Char)}
    (h : (cs :: run).IsChain Rewrites) : run.length ≤ seams cs := by
  induction run generalizing cs with
  | nil => exact Nat.zero_le _
  | cons ds run ih =>
    rw [List.isChain_cons_cons] at h
    have hstep := seams_lt_of_rewrites h.1
    have hrest := ih h.2
    rw [List.length_cons]
    omega

/-- So a text with this many seams takes at most as many rounds. -/
theorem length_rounds_ofText_le (cs : List Char) : (ofText cs).rounds.length ≤ seams cs := by
  simpa using length_le_seams_of_isChain (isChain_rewrites_ofText cs)

/-! ### The log -/

/-- Whether a line of the log reports a round. -/
def reportsRound (line : LogLine) : Bool := "reduced".toList.isPrefixOf line.message.toList

theorem reportsRound_miss (text : List Char) (op : Operator) :
    reportsRound (miss text op) = false := by
  simp [reportsRound, miss, List.isPrefixOf]

theorem reportsRound_reduced (r : Round) : reportsRound (reduced r) = true := by
  simp [reportsRound, reduced, List.isPrefixOf]

/-- Operators that are not found are no rounds. -/
theorem countP_reportsRound_misses (text : List Char) (ops : List Operator) :
    (ops.map (miss text)).countP reportsRound = 0 := by
  rw [List.countP_eq_zero]
  intro line hline
  obtain ⟨op, -, rfl⟩ := List.mem_map.1 hline
  simp [reportsRound_miss]

/-- The lines about a round report one, after the operators that were not found. -/
theorem countP_reportsRound_roundLog (r : Round) : (roundLog r).countP reportsRound = 1 := by
  rw [roundLog, misses, List.countP_append, countP_reportsRound_misses]
  simp [reportsRound_reduced]

/-- The lines about the end report none. -/
theorem countP_reportsRound_endingLog (ending : Ending) :
    (endingLog ending).countP reportsRound = 0 := by
  cases ending with
  | absolute inner => rfl
  | normal text => exact countP_reportsRound_misses text _
  | failed redex error => exact countP_reportsRound_misses redex.text _

/-- The log reports each completed round once. -/
theorem countP_reportsRound_log (e : Evaluation) : e.log.countP reportsRound = e.rounds.length := by
  rw [log, List.countP_append, countP_reportsRound_endingLog, Nat.add_zero]
  induction e.rounds with
  | nil => rfl
  | cons r rounds ih =>
    rw [List.flatMap_cons, List.countP_append, countP_reportsRound_roundLog, ih, List.length_cons,
      Nat.add_comm]

/-! ### The bound -/

/-- **Evaluation ends.** A written result in place of the redex that is due leaves fewer seams,
whatever the result is; so a run of rounds from any text is no longer than there are seams in it;
so the rounds of an evaluation, and the reports in its log, are no more than there are seams in the
expression without its blanks. -/
theorem rounds_le_seams :
    (∀ (cs : List Char) (redex : Redex) (value : Binary64), Redex.first? cs = some redex →
      seams (redex.replace (Numeral.write value)) < seams cs) ∧
    (∀ (cs : List Char) (run : List (List Char)), (cs :: run).IsChain Rewrites →
      run.length ≤ seams cs) ∧
    ∀ expression : String,
      (ofExpression expression).rounds.length ≤ seams (Text.dropBlanks expression.toList) ∧
      (ofExpression expression).log.countP reportsRound ≤
        seams (Text.dropBlanks expression.toList) := by
  refine ⟨fun cs redex value hdue ↦ Round.seams_after_lt (r := ⟨redex, value⟩) hdue,
    fun cs run ↦ length_le_seams_of_isChain, fun expression ↦ ?_⟩
  have hrounds := length_rounds_ofText_le (Text.dropBlanks expression.toList)
  exact ⟨hrounds, by rwa [countP_reportsRound_log]⟩

/-- The redex that is due begins with the second of two minus signs, and all three seams are used
up. -/
theorem rounds_le_seams_at_mixed_signs :
    (∃ redex, Redex.first? "9-2--5*-3".toList = some redex ∧
      redex.before = "9-2-".toList ∧
      ∀ value, seams (redex.replace (Numeral.write value)) < seams "9-2--5*-3".toList) ∧
    ((exhaust "9-2--5*-3".toList).rounds.map Round.after).length ≤ seams "9-2--5*-3".toList ∧
    (ofExpression "9-2--5*-3").rounds.length = seams "9-2--5*-3".toList := by
  have hdue : Redex.first? "9-2--5*-3".toList =
      some ⟨"9-2-".toList, "-5".toList, .product, "-3".toList, []⟩ := by decide
  exact ⟨⟨_, hdue, rfl, fun value ↦ rounds_le_seams.1 _ _ value hdue⟩,
    rounds_le_seams.2.1 _ _ (isChain_rewrites_exhaust _), by decide +kernel⟩

end TextCalculator.Evaluation
