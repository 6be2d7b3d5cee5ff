import Mathlib.Data.List.Chain
import TextCalculator.Proofs.Exhaustion

/-!
# The texts of an evaluation

An evaluation goes from text to text (`Evaluation.texts`), each one round after the one before it
(`isChain_rewrites_ofText`). So what a round keeps holds of every text (`forall_mem_texts`).

The last text decides how the evaluation ends (`endsAt_ofText`): it is an absolute value, or no
redex is left in it, or the redex that is due in it has no value.
-/

namespace TextCalculator.Evaluation

/-- A round turns one text into the other. -/
def Rewrites (cs ds : List Char) : Prop :=
  ∃ redex value, Redex.first? cs = some redex ∧ redex.value = .ok value ∧
    ds = redex.replace (Numeral.write value)

/-- The texts of an evaluation that begins with a text: this one and the one after each round. -/
def texts (cs : List Char) (e : Evaluation) : List (List Char) := cs :: e.rounds.map Round.after

theorem texts_cons (cs : List Char) (r : Round) (e : Evaluation) :
    texts cs (e.cons r) = cs :: texts r.after e := rfl

/-- Without a round there is one text, the one at the start. -/
theorem texts_of_rounds_eq_nil {cs : List Char} {e : Evaluation} (h : e.rounds = []) :
    texts cs e = [cs] := by
  rw [texts, h, List.map_nil]

/-! ### From text to text -/

/-- The texts of an evaluation, one after each round, are a run of rounds. -/
theorem isChain_rewrites_exhaust (cs : List Char) :
    (texts cs (exhaust cs)).IsChain Rewrites := by
  induction cs using exhaust_induction with
  | normal cs hdue => rw [exhaust_of_none hdue]; exact .singleton cs
  | failed cs redex error hdue hvalue => rw [exhaust_of_error hdue hvalue]; exact .singleton cs
  | round cs redex value hdue hvalue ih =>
    rw [exhaust_of_ok hdue hvalue]
    exact List.isChain_cons_cons.2 ⟨⟨redex, value, hdue, hvalue, rfl⟩, ih⟩

/-- Of an evaluation, each text is rewritten to the next. -/
theorem isChain_rewrites_ofText (cs : List Char) : (texts cs (ofText cs)).IsChain Rewrites := by
  cases hform : absoluteForm? cs with
  | some inner => rw [ofText_of_some hform]; exact .singleton cs
  | none => rw [ofText_of_none hform]; exact isChain_rewrites_exhaust cs

/-- What a round keeps holds of every text of a run of rounds. -/
theorem forall_mem_texts {P : List Char → Prop} (hround : ∀ ⦃cs ds⦄, Rewrites cs ds → P cs → P ds)
    {cs : List Char} {e : Evaluation} (hrun : (texts cs e).IsChain Rewrites) (hcs : P cs) :
    ∀ ds ∈ texts cs e, P ds :=
  List.forall_mem_cons.2 ⟨hcs, hrun.cons_induction P _ hround hcs⟩

/-! ### The last text -/

/-- How an evaluation ends, from its last text. -/
inductive EndsAt : List Char → Ending → Prop
  /-- The text is an absolute value. -/
  | absolute {cs inner : List Char} (hform : absoluteForm? cs = some inner) :
      EndsAt cs (.absolute inner)
  /-- The text is none, and no redex is left in it. -/
  | normal {cs : List Char} (hform : absoluteForm? cs = none) (hdue : Redex.first? cs = none) :
      EndsAt cs (.normal cs)
  /-- The redex that is due in the text has no value. -/
  | failed {cs : List Char} {redex : Redex} {error : EvalError}
      (hdue : Redex.first? cs = some redex) (hvalue : redex.value = .error error) :
      EndsAt cs (.failed redex error)

/-- Rewriting ends at a text that no round rewrites, or at one whose redex fails. -/
theorem endsAt_exhaust {cs : List Char} (hform : absoluteForm? cs = none) :
    ∃ last, (texts cs (exhaust cs)).getLast? = some last ∧ EndsAt last (exhaust cs).ending := by
  induction cs using exhaust_induction with
  | normal cs hdue => rw [exhaust_of_none hdue]; exact ⟨cs, rfl, .normal hform hdue⟩
  | failed cs redex error hdue hvalue =>
    rw [exhaust_of_error hdue hvalue]
    exact ⟨cs, rfl, .failed hdue hvalue⟩
  | round cs redex value hdue hvalue ih =>
    obtain ⟨last, hlast, hends⟩ := ih (absoluteForm?_replace_write redex value)
    rw [exhaust_of_ok hdue hvalue, texts_cons]
    exact ⟨last, List.getLast?_cons_cons.trans hlast, hends⟩

/-- The last text of an evaluation decides how it ends. -/
theorem endsAt_ofText (cs : List Char) :
    ∃ last, (texts cs (ofText cs)).getLast? = some last ∧ EndsAt last (ofText cs).ending := by
  cases hform : absoluteForm? cs with
  | some inner => rw [ofText_of_some hform]; exact ⟨cs, rfl, .absolute hform⟩
  | none => rw [ofText_of_none hform]; exact endsAt_exhaust hform

theorem ending_exhaust_ne_absolute (cs inner : List Char) :
    (exhaust cs).ending ≠ .absolute inner := by
  induction cs using exhaust_induction with
  | normal cs hdue => rw [exhaust_of_none hdue]; simp
  | failed cs redex error hdue hvalue => rw [exhaust_of_error hdue hvalue]; simp
  | round cs redex value hdue hvalue ih => rw [exhaust_of_ok hdue hvalue]; exact ih

/-- An evaluation ends in an absolute value only if it begins with one. -/
theorem absoluteForm?_of_ending {cs inner : List Char}
    (h : (ofText cs).ending = .absolute inner) :
    absoluteForm? cs = some inner ∧ (ofText cs).rounds = [] := by
  cases hform : absoluteForm? cs with
  | some form =>
    rw [ofText_of_some hform] at h ⊢
    exact ⟨congrArg some (Ending.absolute.inj h), rfl⟩
  | none =>
    rw [ofText_of_none hform] at h
    exact absurd h (ending_exhaust_ne_absolute cs inner)

end TextCalculator.Evaluation
