import TextCalculator.Operator

/-!
# Chains and their reduction

A *chain* is a sequence of operands joined by operators. `Chain.reduce` evaluates a chain of numbers
without any text: for one operator after the other it contracts the leftmost pair that the operator
joins, for as long as there is one.

A contraction removes one operator and leaves the others as they are (`operators_contract`). So the
reduction ends, and if nothing fails it computes one number for each operator
(`length_computed_of_ok`).
-/

namespace TextCalculator

/-- Operands joined by operators. -/
inductive Chain (α : Type) where
  /-- One operand. -/
  | term (x : α)
  /-- An operand, the operator on its right, and the chain that follows. -/
  | link (x : α) (op : Operator) (rest : Chain α)
deriving DecidableEq

namespace Chain

variable {α β : Type}

/-! ### Pairs and contractions -/

/-- The chain with every operand replaced by its image. -/
def map (f : α → β) : Chain α → Chain β
  | term x => term (f x)
  | link x op rest => link (f x) op (rest.map f)

/-- The operators of a chain, from left to right. -/
def operators : Chain α → List Operator
  | term _ => []
  | link _ op rest => op :: rest.operators

/-- The first operand. -/
def head : Chain α → α
  | term x => x
  | link x _ _ => x

/-- The chain with another first operand. -/
def setHead (z : α) : Chain α → Chain α
  | term _ => term z
  | link _ op rest => link z op rest

/-- The leftmost two operands that an operator joins. -/
def pair? (op : Operator) : Chain α → Option (α × α)
  | term _ => none
  | link x p rest => if p = op then some (x, rest.head) else rest.pair? op

/-- The chain with one operand in place of the leftmost two that an operator joins. -/
def contract (op : Operator) (z : α) : Chain α → Chain α
  | term x => term x
  | link x p rest => if p = op then rest.setHead z else link x p (rest.contract op z)

variable {op : Operator} {c : Chain α}

/-- Another first operand leaves the operators as they are. -/
theorem operators_setHead (z : α) (c : Chain α) : (c.setHead z).operators = c.operators := by
  cases c <;> rfl

/-- An operator joins no pair exactly if it does not occur. -/
theorem pair?_eq_none_iff : c.pair? op = none ↔ op ∉ c.operators := by
  induction c with
  | term x => simp [pair?, operators]
  | link x p rest ih =>
    by_cases hp : p = op
    · simp [pair?, operators, hp]
    · simp [pair?, operators, hp, ih, Ne.symm hp]

/-- A contraction removes the operator where it stands leftmost. -/
theorem operators_contract (op : Operator) (z : α) (c : Chain α) :
    (c.contract op z).operators = c.operators.erase op := by
  induction c with
  | term x => rfl
  | link x p rest ih =>
    by_cases hp : p = op
    · simp [contract, operators, hp, operators_setHead]
    · simp [contract, operators, hp, ih]

/-- An operator that joins a pair occurs. -/
theorem mem_operators_of_pair? {pair : α × α} (h : c.pair? op = some pair) : op ∈ c.operators := by
  apply Classical.byContradiction
  intro hmem
  rw [pair?_eq_none_iff.2 hmem] at h
  simp at h

/-- A contraction leaves one operator fewer. This is what the reduction ends by. -/
theorem length_operators_contract {pair : α × α} (h : c.pair? op = some pair) (z : α) :
    (c.contract op z).operators.length + 1 = c.operators.length := by
  have hmem := mem_operators_of_pair? h
  have hpos := List.length_pos_of_mem hmem
  rw [operators_contract, List.length_erase_of_mem hmem]
  omega

/-- The contraction of the only pair leaves one operand. -/
theorem contract_eq_term {pair : α × α} (h : c.pair? op = some pair)
    (hlength : c.operators.length = 1) (z : α) : c.contract op z = term z := by
  match c with
  | link x p (term y) =>
    by_cases hp : p = op
    · rw [contract, if_pos hp, setHead]
    · simp [pair?, hp] at h

/-- No operator but the difference stands on the right of a difference. -/
def DifferencesLast (c : Chain α) : Prop :=
  c.operators.Pairwise fun p q ↦ p = .difference → q = .difference

/-- A contraction keeps the differences on the right, since it only takes an operator away. -/
theorem DifferencesLast.contract (h : c.DifferencesLast) (op : Operator) (z : α) :
    (c.contract op z).DifferencesLast := by
  rw [DifferencesLast, operators_contract]
  exact h.sublist List.erase_sublist

/-- Without its first operand and operator, a chain keeps its differences on the right. -/
theorem DifferencesLast.rest {x : α} {p : Operator} {rest : Chain α}
    (h : (link x p rest).DifferencesLast) : rest.DifferencesLast :=
  (List.pairwise_cons.1 h).2

/-! ### Images -/

section Map

variable (f : α → β)

/-- The operators are no part of what is replaced. -/
theorem operators_map (c : Chain α) : (c.map f).operators = c.operators := by
  induction c with
  | term x => rfl
  | link x op rest ih => simp [map, operators, ih]

/-- The first operand of the image is the image of the first operand. -/
theorem head_map (c : Chain α) : (c.map f).head = f c.head := by cases c <;> rfl

/-- It makes no difference whether the first operand is replaced before or after the images are
taken. -/
theorem setHead_map (z : α) (c : Chain α) : (c.map f).setHead (f z) = (c.setHead z).map f := by
  cases c <;> rfl

/-- The leftmost pair of the image is the image of the leftmost pair. -/
theorem pair?_map (op : Operator) (c : Chain α) :
    (c.map f).pair? op = (c.pair? op).map (Prod.map f f) := by
  induction c with
  | term x => rfl
  | link x p rest ih =>
    simp only [map, pair?, ih, head_map]
    split <;> rfl

variable {f} in
/-- A pair that is joined in the image comes from a pair that is joined in the chain. -/
theorem exists_of_pair?_map {op : Operator} {c : Chain α} {a b : β}
    (h : (c.map f).pair? op = some (a, b)) :
    ∃ x y, c.pair? op = some (x, y) ∧ f x = a ∧ f y = b := by
  rw [pair?_map] at h
  obtain ⟨⟨x, y⟩, hjoined, himages⟩ := Option.map_eq_some_iff.1 h
  obtain ⟨hx, hy⟩ := Prod.mk.inj himages
  exact ⟨x, y, hjoined, hx, hy⟩

/-- It makes no difference whether a pair is contracted before or after the images are taken. -/
theorem contract_map (op : Operator) (z : α) (c : Chain α) :
    (c.map f).contract op (f z) = (c.contract op z).map f := by
  induction c with
  | term x => rfl
  | link x p rest ih =>
    simp only [map, contract, ih, setHead_map]
    split <;> rfl

end Map

/-! ### Reduction -/

/-- The course of the reduction of a chain of numbers. -/
structure Reduction where
  /-- The numbers computed, in order. -/
  computed : List Binary64
  /-- What comes out in the end. -/
  outcome : Except EvalError Binary64

/-- The reduction with one more number computed before it. -/
def Reduction.cons (z : Binary64) (r : Reduction) : Reduction :=
  { r with computed := z :: r.computed }

/-- Contracts, for each of the operators in turn, the leftmost pair that it joins for as long as
there is one. -/
def reduce : List Operator → Chain Binary64 → Reduction
  | [], c => ⟨[], .ok c.head⟩
  | op :: ops, c =>
    match _joined : c.pair? op with
    | none => reduce ops c
    | some (x, y) =>
      match op.apply x y with
      | .error error => ⟨[], .error error⟩
      | .ok z => (reduce (op :: ops) (c.contract op z)).cons z
termination_by ops c => c.operators.length + ops.length
decreasing_by
  · exact Nat.lt_succ_self _
  · have hlength := length_operators_contract ‹_› z
    omega

/-- One operand is its own reduction, whatever operators are tried. -/
theorem reduce_term (ops : List Operator) (z : Binary64) : reduce ops (term z) = ⟨[], .ok z⟩ := by
  induction ops with
  | nil => rw [reduce]; rfl
  | cons op ops ih =>
    rw [reduce]
    show reduce ops (term z) = _
    exact ih

/-- A chain of one operator is reduced by applying it. -/
theorem outcome_reduce_link {ops : List Operator} {op : Operator} (hop : op ∈ ops)
    (x y : Binary64) : (reduce ops (link x op (term y))).outcome = op.apply x y := by
  induction ops with
  | nil => exact absurd hop List.not_mem_nil
  | cons p ops ih =>
    rw [reduce]
    by_cases hp : p = op
    · subst hp
      have hpair : pair? p (link x p (term y)) = some (x, y) := if_pos rfl
      have hcontract (z : Binary64) : contract p z (link x p (term y)) = term z := if_pos rfl
      rw [hpair]
      rcases happly : p.apply x y with error | z
      · simp only [happly]
      · simp only [happly, hcontract, reduce_term, Reduction.cons]
    · have hpair : pair? p (link x op (term y)) = none := if_neg (Ne.symm hp)
      rw [hpair]
      exact ih ((List.mem_cons.1 hop).resolve_left (Ne.symm hp))

/-- A reduction that does not fail computes one number for each operator. -/
theorem length_computed_of_ok {ops : List Operator} {c : Chain Binary64} {x : Binary64}
    (hops : ∀ op ∈ c.operators, op ∈ ops) (h : (c.reduce ops).outcome = .ok x) :
    (c.reduce ops).computed.length = c.operators.length := by
  fun_induction reduce ops c with
  | case1 c => simp [List.eq_nil_iff_forall_not_mem.2 fun op hop ↦ absurd (hops op hop) (by simp)]
  | case2 op ops c hpair ih =>
    refine ih (fun p hp ↦ ?_) h
    rcases List.mem_cons.1 (hops p hp) with rfl | hmem
    · exact absurd hp (pair?_eq_none_iff.1 hpair)
    · exact hmem
  | case3 op ops c x y hpair error herror => simp at h
  | case4 op ops c x y hpair z hz ih =>
    have hlength := length_operators_contract hpair z
    have hrest := ih (fun p hp ↦ hops p ?_) h
    · simp only [Reduction.cons, List.length_cons]
      omega
    · rw [operators_contract] at hp
      exact List.mem_of_mem_erase hp

end Chain

end TextCalculator
