import Worksheet.Evaluation.Cell
import Worksheet.Proofs.Address.RoundTrip
import Worksheet.Proofs.Attempt
import Worksheet.Proofs.Evaluation.Dependency

/-!
# Evaluation without a cache

The outcome of a cell when nothing is remembered: every formula is evaluated anew wherever it is
needed. The trail, the cells whose formulas are being evaluated, is kept, because it is what ends
the search at a cycle and what an error names. This is a pure function, errors included, so what
evaluation with a cache returns can be said by an equation.

Values and derivations agree. A value comes from a derivation, whatever the trail. Conversely a cell
with a derivation has that value as its outcome, provided no cell on the trail can be reached from
it; a trail of cells that all depend on the one at its end never offends, as a derivation does not
go in circles.

## Main definitions

* `gather`, `Expression.outcome`: Expressions over cells with known outcomes.
* `Snapshot.outcomeWith`: The outcome of a formula over such cells.
* `Snapshot.outcome`: The outcome of a cell under a trail.

## Theorems

* `Snapshot.outcome_of_mem`, `Snapshot.outcome_of_isEmpty`, `Snapshot.outcome_of_value?`,
  `Snapshot.outcome_of_computes`: The four ways a cell is resolved.
* `Snapshot.trail_induction`: Induction on the cells that are not on the trail.
* `Snapshot.chain_cons`: A trail of dependencies grows by one more.
* `Snapshot.evaluates_of_outcome`: A value has a derivation.
* `Snapshot.outcome_of_evaluates`: What is derived is found.
-/

namespace Worksheet

open Relation Grammar

/-- The values of several cells with known outcomes; cells without a value are left out. -/
def gather (cell : Address → Outcome) : List Address → Except FormulaError (List Float)
  | [] => .ok []
  | a :: rest => do
    let value ← cell a
    let values ← gather cell rest
    return value.toList ++ values

/-- If every cell has a value or none, so has the list of them. -/
theorem gather_of_forall {cell : Address → Outcome} {value : Address → Option Float}
    {as : List Address} (h : ∀ a ∈ as, cell a = .ok (value a)) :
    gather cell as = .ok (as.filterMap value) := by
  induction as with
  | nil => rfl
  | cons a rest ih =>
      rw [gather, h a List.mem_cons_self, ih fun b hb => h b (List.mem_cons_of_mem _ hb)]
      cases hvalue : value a with
      | none =>
          rw [List.filterMap_cons_none hvalue]
          rfl
      | some x =>
          rw [List.filterMap_cons_some hvalue]
          rfl

/-- A list that is gathered has no cell that fails. -/
theorem exists_ok_of_gather {cell : Address → Outcome} {as : List Address} {values : List Float}
    (h : gather cell as = .ok values) : ∀ a ∈ as, ∃ x, cell a = .ok x := by
  induction as generalizing values with
  | nil => exact List.forall_mem_nil _
  | cons a rest ih =>
      rw [gather, bind_eq_ok_iff] at h
      rcases h with ⟨x, hx, h⟩
      rw [bind_eq_ok_iff] at h
      rcases h with ⟨values', hrest, _⟩
      intro b hb
      rcases List.mem_cons.1 hb with rfl | hb
      · exact ⟨x, hx⟩
      · exact ih hrest b hb

namespace Expression

/-- The outcome of an expression over cells with known outcomes. -/
def outcome (cellsOf : Range → List Address) (cell : Address → Outcome) : Expression → Outcome
  | number x => .ok (some x)
  | .cell a => cell a
  | negation operand => do
    let value ← operand.outcome cellsOf cell
    return some (0.0 - value.getD 0.0)
  | binary op left right => do
    let x ← left.outcome cellsOf cell
    let y ← right.outcome cellsOf cell
    let z ← op.apply (x.getD 0.0) (y.getD 0.0)
    return some z
  | call f args => do
    let values ← gather cell (Argument.allCells cellsOf args)
    let z ← f.apply values
    return some z
  | missing => .error .invalidExpression
  | broken e => do
    let _ ← e.outcome cellsOf cell
    .error .invalidExpression
  | brokenCall args => do
    let _ ← gather cell (Argument.allCells cellsOf args)
    .error .invalidExpression

/-- An expression with a value has all its parts. -/
theorem isComplete_of_outcome {cellsOf : Range → List Address} {cell : Address → Outcome}
    {e : Expression} {x : Option Float} (h : e.outcome cellsOf cell = .ok x) :
    e.isComplete = true := by
  induction e generalizing x with
  | number z => rfl
  | cell a => rfl
  | negation operand ih =>
      rcases bind_eq_ok_iff.1 h with ⟨y, hy, _⟩
      exact ih hy
  | binary op left right ihl ihr =>
      rcases bind_eq_ok_iff.1 h with ⟨y, hy, h⟩
      rcases bind_eq_ok_iff.1 h with ⟨z, hz, _⟩
      rw [isComplete, ihl hy, ihr hz, Bool.true_and]
  | call f args => rfl
  | missing => cases h
  | broken e _ =>
      -- What is broken ends in an error, after the part that was read.
      rcases bind_eq_ok_iff.1 h with ⟨y, _, h⟩
      cases h
  | brokenCall args =>
      rcases bind_eq_ok_iff.1 h with ⟨y, _, h⟩
      cases h

end Expression

/-- The check of a result passes exactly those that are finite, and does not change them. -/
theorem checkFinite_eq_ok_iff {x y : Option Float} :
    Snapshot.checkFinite x = .ok y ↔ x = y ∧ IsFinite x := by
  unfold IsFinite
  cases x with
  | none => simp only [Snapshot.checkFinite, Except.ok.injEq, Option.mem_def, reduceCtorEq,
      false_implies, implies_true, and_true]
  | some z =>
      by_cases hz : z.isFinite = true
      · simp only [Snapshot.checkFinite, hz, if_true, Except.ok.injEq, Option.mem_def,
          Option.some.injEq, forall_eq', and_true]
      · simp only [Snapshot.checkFinite, Bool.eq_false_of_not_eq_true hz, Bool.false_eq_true,
          if_false, reduceCtorEq, Option.mem_def, Option.some.injEq, forall_eq', and_false]

namespace Snapshot

-- Written forms stand for cells, so a trail can be searched by either.
theorem contains_map_text {trail : List Address} {a : Address} :
    (trail.map Address.text).contains a.text = true ↔ a ∈ trail := by
  rw [List.contains_iff_mem, List.mem_map]
  constructor
  · rintro ⟨b, hb, htext⟩
    exact Address.text_injective htext ▸ hb
  · exact fun ha => ⟨a, ha, rfl⟩

/-- The outcome of a formula in a cell, over cells with known outcomes. -/
def outcomeWith (s : Snapshot) (cell : Address → Outcome) (text : String) (a : Address) :
    Outcome :=
  match Formula.parse text with
  | .error cause => .error (.malformed cause)
  | .ok f =>
    if f.references a then .error .selfReference
    else do
      let value ← f.expression.outcome s.cellsOf cell
      checkFinite value

/-- The outcome of a cell, while the formulas of the cells on the trail are being evaluated. -/
def outcome (s : Snapshot) (trail : List Address) (a : Address) : Outcome :=
  if _htrail : a ∈ trail then .error (.circular a.text)
  else if !s.contains a then .ok none
  else
    match s.value? a with
    | some x => .ok (some x)
    | none =>
      match _hformula : s.formulas[a.text]? with
      | none => .ok none
      | some text => s.outcomeWith (fun b => outcome s (a :: trail) b) text a
termination_by (s.unvisited (trail.map Address.text)).length
decreasing_by
  exact length_unvisited_lt _hformula
    (Bool.eq_false_iff.2 fun hmem => _htrail (contains_map_text.1 hmem))

variable {s : Snapshot} {trail : List Address} {a : Address}

/-- A cell on the trail is a cycle. -/
theorem outcome_of_mem (h : a ∈ trail) : s.outcome trail a = .error (.circular a.text) := by
  rw [outcome, dif_pos h]

theorem outcome_of_isEmpty (h : a ∉ trail) (hempty : s.IsEmpty a) :
    s.outcome trail a = .ok none := by
  rw [outcome, dif_neg h]
  by_cases hcontains : s.contains a = true
  · rcases hempty hcontains with ⟨hvalue, hformula⟩
    unfold formula? at hformula
    simp only [hcontains, Bool.not_true, Bool.false_eq_true, if_false, hvalue]
    split
    · rfl
    · rename_i text htext
      rw [hformula] at htext
      cases htext
  · simp only [Bool.eq_false_of_not_eq_true hcontains, Bool.not_false, if_true]

theorem outcome_of_value? {x : Float} (h : a ∉ trail) (hcontains : s.contains a = true)
    (hvalue : s.value? a = some x) : s.outcome trail a = .ok (some x) := by
  rw [outcome, dif_neg h]
  simp only [hcontains, Bool.not_true, Bool.false_eq_true, if_false, hvalue]

/-- A formula cell is its text, with the cell on the trail. -/
theorem outcome_of_computes {text : String} (h : a ∉ trail) (hcomputes : s.Computes a text) :
    s.outcome trail a = s.outcomeWith (s.outcome (a :: trail)) text a := by
  have hformula : s.formulas[a.text]? = some text := hcomputes.formula?
  rw [outcome, dif_neg h]
  simp only [hcomputes.contains, Bool.not_true, Bool.false_eq_true, if_false, hcomputes.value?]
  split
  · rename_i hnone
    rw [hformula] at hnone
    cases hnone
  · rename_i text' htext'
    rw [hformula] at htext'
    cases htext'
    rfl

/-- Induction on the cells with formulas that are not on the trail: a property of trails holds of
    all of them if it can be shown from that of every trail with one more such cell. -/
theorem trail_induction {P : List Address → Prop}
    (step : ∀ trail, (∀ a text, a ∉ trail → s.Computes a text → P (a :: trail)) → P trail) :
    ∀ trail, P trail := by
  -- The measure is that of the recursion itself: formulas whose cells have not been visited.
  suffices h : ∀ (n : Nat) (trail : List Address),
      (s.unvisited (trail.map Address.text)).length = n → P trail from
    fun trail => h _ trail rfl
  intro n
  induction n using Nat.strongRecOn with
  | _ n ih =>
      intro trail hn
      refine step trail fun a text ha hcomputes => ih _ ?_ (a :: trail) rfl
      have hvisited : (trail.map Address.text).contains a.text = false :=
        Bool.eq_false_iff.2 fun hmem => ha (contains_map_text.1 hmem)
      rw [← hn]
      exact length_unvisited_lt hcomputes.formula? hvisited

/-- Cells that all depend on the last of them still do when one more step is made. -/
theorem chain_cons {b : Address} (htrail : ∀ t ∈ trail, TransGen s.Depends t a)
    (hdepends : s.Depends a b) : ∀ t ∈ a :: trail, TransGen s.Depends t b := by
  intro t ht
  rcases List.mem_cons.1 ht with rfl | ht
  · exact .single hdepends
  · exact (htrail t ht).tail hdepends

/-- The value of an expression has a derivation, if the values of its cells do. -/
theorem evaluates_of_expression {cell : Address → Outcome} {e : Expression} {x : Option Float}
    (hcell : ∀ b ∈ Argument.allCells s.cellsOf e.arguments, ∀ y, cell b = .ok y →
      s.Evaluates (.cell b) y)
    (h : e.outcome s.cellsOf cell = .ok x) : s.Evaluates e x := by
  -- The gaps `missing`, `broken` and `brokenCall` never have a value, so they need no rule.
  induction e generalizing x with
  | number z =>
      cases h
      exact .number z
  | cell b => exact hcell b (List.mem_singleton_self b) x h
  | negation operand ih =>
      rcases bind_eq_ok_iff.1 h with ⟨y, hy, h⟩
      cases h
      exact .negation (ih hcell hy)
  | binary op left right ihl ihr =>
      rcases bind_eq_ok_iff.1 h with ⟨y, hy, h⟩
      rcases bind_eq_ok_iff.1 h with ⟨z, hz, h⟩
      rcases bind_eq_ok_iff.1 h with ⟨w, hw, h⟩
      cases h
      rcases Operator.apply_eq_ok_iff.1 hw with ⟨hdivisor, rfl⟩
      exact .binary (ihl (fun b hb => hcell b (mem_allCells_binary.2 (Or.inl hb))) hy)
        (ihr (fun b hb => hcell b (mem_allCells_binary.2 (Or.inr hb))) hz) hdivisor
  | call f args =>
      rcases bind_eq_ok_iff.1 h with ⟨values, hvalues, h⟩
      rcases bind_eq_ok_iff.1 h with ⟨z, hz, h⟩
      cases h
      -- What each cell of the arguments contributes.
      have hok : ∀ b ∈ Argument.allCells s.cellsOf args, ∃ y, cell b = .ok y :=
        exists_ok_of_gather hvalues
      choose! value hfound using hok
      have hgather : values = (Argument.allCells s.cellsOf args).filterMap value := by
        have hused := gather_of_forall hfound
        rw [hvalues, Except.ok.injEq] at hused
        exact hused
      rcases Aggregate.apply_eq_ok_iff.1 hz with ⟨hneeds, rfl⟩
      rw [hgather] at hneeds ⊢
      exact .call value (fun b hb => hcell b hb _ (hfound b hb)) hneeds
  | missing => cases h
  | broken e _ =>
      rcases bind_eq_ok_iff.1 h with ⟨y, _, h⟩
      cases h
  | brokenCall args =>
      rcases bind_eq_ok_iff.1 h with ⟨y, _, h⟩
      cases h

/-- A text with a value parses, does not name its own cell, and has a finite value as an expression.
    -/
theorem outcomeWith_eq_ok {cell : Address → Outcome} {text : String} {x : Option Float}
    (h : s.outcomeWith cell text a = .ok x) :
    ∃ f, Formula.parse text = .ok f ∧ Token.cell a ∉ f.tokens ∧
      f.expression.outcome s.cellsOf cell = .ok x ∧ IsFinite x := by
  unfold outcomeWith at h
  cases hparse : Formula.parse text with
  | error cause =>
      rw [hparse] at h
      cases h
  | ok f =>
      rw [hparse] at h
      by_cases hself : f.references a = true
      · simp only [if_pos hself] at h
        cases h
      · -- Only this branch can succeed: it parses, does not name its own cell, and passes the
        -- check.
        simp only [if_neg hself] at h
        rcases bind_eq_ok_iff.1 h with ⟨y, hy, h⟩
        rcases checkFinite_eq_ok_iff.1 h with ⟨rfl, hfinite⟩
        exact ⟨f, rfl, fun hmem => hself ((f.references_iff a).2 hmem), hy, hfinite⟩

/-- A formula that names its own cell is refused, whatever else it contains. -/
theorem outcomeWith_of_names {cell : Address → Outcome} {text : String}
    (h : Formula.Names text a) : s.outcomeWith cell text a = .error .selfReference := by
  rcases h with ⟨f, hparse, hmem⟩
  unfold outcomeWith
  simp only [hparse, if_pos ((f.references_iff a).2 hmem)]

/-- The value of a formula has a derivation, if the values of the cells it uses do. -/
theorem means_of_outcomeWith {cell : Address → Outcome} {text : String} {x : Option Float}
    (hcell : ∀ b, s.Uses text b → ∀ y, cell b = .ok y → s.Evaluates (.cell b) y)
    (h : s.outcomeWith cell text a = .ok x) : s.Means text x := by
  rcases outcomeWith_eq_ok h with ⟨f, hparse, _, hvalue, hfinite⟩
  refine ⟨f, f.expression, hparse, ?_, ?_, hfinite⟩
  · exact Expression.derives_ofTokens (Expression.isComplete_of_outcome hvalue)
  · exact evaluates_of_expression
      (fun b hb => hcell b (uses_of_mem_expression hparse hb)) hvalue

/-- A formula cell has the value its text means. -/
theorem evaluates_of_means {text : String} {x : Option Float} (hcomputes : s.Computes a text)
    (h : s.Means text x) : s.Evaluates (.cell a) x := by
  rcases h with ⟨f, e, hparse, hderives, hvalue, hfinite⟩
  exact .formula hcomputes hparse hderives hvalue hfinite

/-- The value of a cell has a derivation, under any trail. -/
theorem evaluates_of_outcome : ∀ (trail : List Address) (a : Address) (x : Option Float),
    s.outcome trail a = .ok x → s.Evaluates (.cell a) x := by
  -- The trail matters only in that it may stop the search; a cell that is found follows one of the
  -- three rules for cells.
  refine trail_induction (s := s) fun trail ih a x h => ?_
  by_cases ha : a ∈ trail
  · rw [outcome_of_mem ha] at h
    cases h
  · rcases s.cell_cases a with hempty | ⟨z, hcontains, hvalue⟩ | ⟨text, hcomputes⟩
    · rw [outcome_of_isEmpty ha hempty] at h
      cases h
      exact .empty hempty
    · rw [outcome_of_value? ha hcontains hvalue] at h
      cases h
      exact .literal hcontains hvalue
    · rw [outcome_of_computes ha hcomputes] at h
      exact evaluates_of_means hcomputes
        (means_of_outcomeWith (fun b _ y hy => ih a text ha hcomputes b y hy) h)

/-- An expression with a derivation has that value over cells that have theirs. -/
theorem expression_of_evaluates {cell : Address → Outcome} {e : Expression} {x : Option Float}
    (hcell : ∀ b ∈ Argument.allCells s.cellsOf e.arguments, ∀ y, s.Evaluates (.cell b) y →
      cell b = .ok y)
    (h : s.Evaluates e x) : e.outcome s.cellsOf cell = .ok x := by
  induction e generalizing x with
  | number z =>
      cases h
      rfl
  | cell b => exact hcell b (List.mem_singleton_self b) x h
  | negation operand ih =>
      cases h with
      | negation hvalue => exact bind_eq_ok_iff.2 ⟨_, ih hcell hvalue, rfl⟩
  | binary op left right ihl ihr =>
      -- The operation succeeds: a divisor that is zero has no derivation.
      cases h with
      | @binary _ _ _ y z hleft hright hdivisor =>
          have hx := ihl (fun b hb => hcell b (mem_allCells_binary.2 (Or.inl hb))) hleft
          have hy := ihr (fun b hb => hcell b (mem_allCells_binary.2 (Or.inr hb))) hright
          have hz : op.apply (y.getD 0.0) (z.getD 0.0) =
              .ok (op.result (y.getD 0.0) (z.getD 0.0)) :=
            Operator.apply_eq_ok_iff.2 ⟨hdivisor, rfl⟩
          exact bind_eq_ok_iff.2 ⟨_, hx, bind_eq_ok_iff.2 ⟨_, hy, bind_eq_ok_iff.2 ⟨_, hz, rfl⟩⟩⟩
  | call f args =>
      -- The function has as many values as it needs.
      cases h with
      | call value hcells hneeds =>
          have hvalues := gather_of_forall fun b hb => hcell b hb _ (hcells b hb)
          have hz := Aggregate.apply_eq_ok_iff.2 ⟨hneeds, rfl⟩
          exact bind_eq_ok_iff.2 ⟨_, hvalues, bind_eq_ok_iff.2 ⟨_, hz, rfl⟩⟩
  | missing => cases h
  | broken e _ => cases h
  | brokenCall args => cases h

/-- A formula with a derivation that does not name its own cell has that value over cells that have
    theirs. -/
theorem outcomeWith_of_means {cell : Address → Outcome} {text : String} {x : Option Float}
    (hself : ¬ Formula.Names text a)
    (hcell : ∀ b, s.Uses text b → ∀ y, s.Evaluates (.cell b) y → cell b = .ok y)
    (h : s.Means text x) : s.outcomeWith cell text a = .ok x := by
  rcases h with ⟨f, e, hparse, hderives, hvalue, hfinite⟩
  -- The tree is the one that is read, since a derivation determines it.
  have htree : f.expression = e := Expression.ofTokens_of_derives hderives
  have hreferences : ¬ f.references a = true := fun h =>
    hself ⟨f, hparse, (f.references_iff a).1 h⟩
  unfold outcomeWith
  simp only [hparse, if_neg hreferences]
  refine bind_eq_ok_iff.2 ⟨x, ?_, checkFinite_eq_ok_iff.2 ⟨rfl, hfinite⟩⟩
  rw [← htree] at hvalue
  exact expression_of_evaluates (fun b hb => hcell b (uses_of_mem_expression hparse hb)) hvalue

/-- A cell with a derivation has that value, under a trail that it cannot reach. -/
theorem outcome_of_evaluates : ∀ (trail : List Address) (a : Address) (x : Option Float),
    (∀ t ∈ trail, ¬ ReflTransGen s.Depends a t) → s.Evaluates (.cell a) x →
      s.outcome trail a = .ok x := by
  refine trail_induction (s := s) fun trail ih a x htrail h => ?_
  have ha : a ∉ trail := fun hmem => htrail a hmem .refl
  have hacyclic := not_dependsOnItself_of_evaluates h
  cases h with
  | empty hempty => exact outcome_of_isEmpty ha hempty
  | literal hcontains hvalue => exact outcome_of_value? ha hcontains hvalue
  | @formula _ text f e _ hcomputes hparse hderives hvalue hfinite =>
      rw [outcome_of_computes ha hcomputes]
      refine outcomeWith_of_means (fun hnames => hacyclic ?_) (fun b huses y hy => ?_)
        ⟨f, e, hparse, hderives, hvalue, hfinite⟩
      -- A formula that names its own cell would put that cell on a cycle of one step.
      · rcases hnames with ⟨f', hparse', hmem⟩
        exact .single ⟨text, hcomputes, f', hparse', Or.inl hmem⟩
      · -- From a cell of the formula neither the trail nor the cell itself is within reach.
        have hdepends : s.Depends a b := ⟨text, hcomputes, huses⟩
        refine ih a text ha hcomputes b y (fun t ht hreach => ?_) hy
        rcases List.mem_cons.1 ht with rfl | ht
        · exact hacyclic (TransGen.head' hdepends hreach)
        · exact htrail t ht (ReflTransGen.head hdepends hreach)

end Snapshot

end Worksheet
