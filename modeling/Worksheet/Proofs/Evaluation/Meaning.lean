import Worksheet.Evaluation.Basic
import Worksheet.Formula.Basic
import Worksheet.Proofs.Formula.Reading
import Worksheet.Proofs.Snapshot.Walk

/-!
# What formulas mean

The value of a formula as a set of rules, with no cache and no list of cells being resolved. A cell
that is outside the snapshot, or has neither a number nor a formula, is empty; a number is its own
value; a cell with a formula has the value of that formula. Operators, negation, parentheses and
functions combine values as the grammar says. Nothing is said about errors: what has no value by
the rules simply has no derivation, be it a division by zero, the mean of nothing, a value that is
not finite or a cell that depends on itself.

Which cells of a range a function is applied to is left open by the rules. Evaluation applies it to
those that a walk over the range visits. Cells outside the snapshot are empty and may be left out or
put in as one likes (`EvaluatesOver.of_filter_eq`), so in a snapshot that fits the grid it comes to
the same to apply functions to all cells of their ranges.

## Main definitions

* `Operator.result`, `Aggregate.result`: What operators and functions make of numbers.
* `Snapshot.IsEmpty`, `Snapshot.Computes`: A cell without a value, and a cell with a formula.
* `Snapshot.EvaluatesOver`: The rules, given the cells that stand for a range.
* `Snapshot.Evaluates`: The rules over the cells that walks visit.
* `Snapshot.MeansOver`, `Snapshot.Means`: The value of the text of a formula.

## Theorems

* `Snapshot.evaluates_unique`: An expression has at most one value.
* `Snapshot.Fits.evaluatesOver_cells_iff`: A range may stand for all of its cells.
-/

namespace Worksheet

namespace Operator

/-- The number that an operator makes of two; a division is meant for divisors other than zero. -/
def result : Operator → Float → Float → Float
  | add, x, y => x + y
  | subtract, x, y => x - y
  | multiply, x, y => x * y
  | divide, x, y => x / y

-- Only a division can fail, so it is the one operator that asks something of its operands.
theorem apply_eq_ok_iff {op : Operator} {x y z : Float} :
    op.apply x y = .ok z ↔ (op = divide → (y == 0.0) = false) ∧ op.result x y = z := by
  cases op with
  | divide =>
      by_cases hy : (y == 0.0) = true
      · simp only [apply, hy, if_true, reduceCtorEq, Bool.true_eq_false, imp_false,
          not_true_eq_false, false_and]
      · simp only [apply, Bool.eq_false_of_not_eq_true hy, Bool.false_eq_true, if_false,
          Except.ok.injEq, implies_true, true_and, result]
  | add | subtract | multiply =>
      simp only [apply, Except.ok.injEq, reduceCtorEq, false_implies, true_and, result]

end Operator

namespace Aggregate

/-- Whether the function has no result for no values. -/
def needsValues : Aggregate → Bool
  | sum | count => false
  | avg | min | max => true

/-- The number that a function makes of several. -/
def result : Aggregate → List Float → Float
  | sum, values => total values
  | count, values => values.length.toFloat
  | avg, values => total values / values.length.toFloat
  | min, values => values.foldl lesser (1.0 / 0.0)
  | max, values => values.foldl greater (-1.0 / 0.0)

-- A sum and a count exist for no values; the others look at the list before they compute.
theorem apply_eq_ok_iff {f : Aggregate} {values : List Float} {z : Float} :
    f.apply values = .ok z ↔ (f.needsValues = true → values ≠ []) ∧ f.result values = z := by
  cases f with
  | sum | count =>
      simp only [apply, Except.ok.injEq, needsValues, Bool.false_eq_true, false_implies, true_and,
        result]
  | avg | min | max =>
      cases values with
      | nil =>
          simp only [apply, List.isEmpty_nil, if_true, reduceCtorEq, needsValues, ne_eq,
            not_true_eq_false, imp_false, false_and]
      | cons x rest =>
          simp only [apply, List.isEmpty_cons, Bool.false_eq_true, if_false, Except.ok.injEq,
            ne_eq, reduceCtorEq, not_false_eq_true, implies_true, true_and, result]

end Aggregate

/-- The cells that a list of arguments stands for, given those of a range. -/
def Argument.allCells (cellsOf : Range → List Address) (args : List Argument) : List Address :=
  args.flatMap (Argument.cells cellsOf)

/-- A value is absent or a finite number. -/
def IsFinite (x : Option Float) : Prop := ∀ z ∈ x, z.isFinite = true

theorem isFinite_none : IsFinite none := fun z hz => absurd hz (Option.not_mem_none z)

namespace Snapshot

open Grammar

/-- A cell outside the snapshot, or with neither a number nor a formula. -/
def IsEmpty (s : Snapshot) (a : Address) : Prop :=
  s.contains a = true → s.value? a = none ∧ s.formula? a = none

/-- A cell of the snapshot with a formula and no number. -/
structure Computes (s : Snapshot) (a : Address) (text : String) : Prop where
  /-- The cell lies in the snapshot. -/
  contains : s.contains a = true
  /-- A number would hide the formula. -/
  value? : s.value? a = none
  /-- The formula. -/
  formula? : s.formula? a = some text

/-- The rules: which expressions have which values, given the cells that stand for a range. -/
inductive EvaluatesOver (s : Snapshot) (cellsOf : Range → List Address) :
    Expression → Option Float → Prop where
  | number (x : Float) : EvaluatesOver s cellsOf (.number x) (some x)
  | empty {a : Address} (hempty : s.IsEmpty a) : EvaluatesOver s cellsOf (.cell a) none
  | literal {a : Address} {x : Float} (hcontains : s.contains a = true)
      (hvalue : s.value? a = some x) : EvaluatesOver s cellsOf (.cell a) (some x)
  | formula {a : Address} {text : String} {f : Formula} {e : Expression} {x : Option Float}
      (hcomputes : s.Computes a text) (hparse : Formula.parse text = .ok f)
      (hderives : Derives .sum f.tokens e) (hvalue : EvaluatesOver s cellsOf e x)
      (hfinite : IsFinite x) : EvaluatesOver s cellsOf (.cell a) x
  | negation {e : Expression} {x : Option Float} (hvalue : EvaluatesOver s cellsOf e x) :
      EvaluatesOver s cellsOf (.negation e) (some (0.0 - x.getD 0.0))
  | binary {op : Operator} {left right : Expression} {x y : Option Float}
      (hleft : EvaluatesOver s cellsOf left x) (hright : EvaluatesOver s cellsOf right y)
      (hdivisor : op = .divide → (y.getD 0.0 == 0.0) = false) :
      EvaluatesOver s cellsOf (.binary op left right) (some (op.result (x.getD 0.0) (y.getD 0.0)))
  | call {f : Aggregate} {args : List Argument} (value : Address → Option Float)
      (hcells : ∀ a ∈ Argument.allCells cellsOf args, EvaluatesOver s cellsOf (.cell a) (value a))
      (hneeds : f.needsValues = true → (Argument.allCells cellsOf args).filterMap value ≠ []) :
      EvaluatesOver s cellsOf (.call f args)
        (some (f.result ((Argument.allCells cellsOf args).filterMap value)))

/-- The rules, where functions are applied to the cells that walks over their ranges visit. -/
abbrev Evaluates (s : Snapshot) : Expression → Option Float → Prop := s.EvaluatesOver s.cellsOf

/-- A formula has a value, given the cells that stand for a range: its text is well-formed, its
    tokens form an expression, and the value of that is finite. -/
def MeansOver (s : Snapshot) (cellsOf : Range → List Address) (text : String) (x : Option Float) :
    Prop :=
  ∃ f e, Formula.parse text = .ok f ∧ Derives .sum f.tokens e ∧ s.EvaluatesOver cellsOf e x ∧
    IsFinite x

/-- The value of a formula over the cells that walks visit. -/
abbrev Means (s : Snapshot) (text : String) (x : Option Float) : Prop :=
  s.MeansOver s.cellsOf text x

/-- A cell is empty, holds a number or has a formula. -/
theorem cell_cases (s : Snapshot) (a : Address) :
    s.IsEmpty a ∨ (∃ x, s.contains a = true ∧ s.value? a = some x) ∨
      ∃ text, s.Computes a text := by
  by_cases hcontains : s.contains a = true
  · cases hvalue : s.value? a with
    | some x => exact Or.inr (Or.inl ⟨x, hcontains, rfl⟩)
    | none =>
        cases hformula : s.formula? a with
        | some text => exact Or.inr (Or.inr ⟨text, hcontains, hvalue, hformula⟩)
        | none => exact Or.inl fun _ => ⟨hvalue, hformula⟩
  · exact Or.inl fun h => absurd h hcontains

/-- A cell that computes something is not empty. -/
theorem Computes.not_isEmpty {s : Snapshot} {a : Address} {text : String}
    (h : s.Computes a text) : ¬ s.IsEmpty a := by
  intro hempty
  have hformula := (hempty h.contains).2
  rw [h.formula?] at hformula
  cases hformula

/-- A cell computes at most one text. -/
theorem Computes.unique {s : Snapshot} {a : Address} {text other : String}
    (h : s.Computes a text) (h' : s.Computes a other) : text = other := by
  have hformula := h.formula?
  rw [h'.formula?, Option.some.injEq] at hformula
  exact hformula.symm

/-- An empty cell has no value. -/
theorem value?_eq_none_of_evaluates {s : Snapshot} {cellsOf : Range → List Address} {a : Address}
    {x : Option Float} (h : s.EvaluatesOver cellsOf (.cell a) x) (hempty : s.IsEmpty a) :
    x = none := by
  cases h with
  | empty _ => rfl
  | literal hcontains hvalue =>
      rw [(hempty hcontains).1] at hvalue
      cases hvalue
  | formula hcomputes => exact absurd hempty hcomputes.not_isEmpty

/-- An expression has at most one value. -/
theorem evaluates_unique {s : Snapshot} {cellsOf : Range → List Address} {e : Expression}
    {x y : Option Float} (hx : s.EvaluatesOver cellsOf e x) (hy : s.EvaluatesOver cellsOf e y) :
    x = y := by
  -- By induction on the first derivation. The rule of the second is forced: by the form of the
  -- expression, or for a cell by what it holds, which is nothing, a number or a formula.
  induction hx generalizing y with
  | number x =>
      cases hy
      rfl
  | empty hempty => exact (value?_eq_none_of_evaluates hy hempty).symm
  | literal hcontains hvalue =>
      cases hy with
      | empty hempty =>
          rw [(hempty hcontains).1] at hvalue
          cases hvalue
      | literal _ hvalue' => exact hvalue.symm.trans hvalue'
      | formula hcomputes =>
          rw [hcomputes.value?] at hvalue
          cases hvalue
  | formula hcomputes hparse hderives _ _ ih =>
      cases hy with
      | empty hempty => exact absurd hempty hcomputes.not_isEmpty
      | literal _ hvalue =>
          rw [hcomputes.value?] at hvalue
          cases hvalue
      | formula hcomputes' hparse' hderives' hvalue' _ =>
          -- One text has one formula, and one formula has one tree.
          rw [← hcomputes.unique hcomputes', hparse] at hparse'
          cases hparse'
          rw [← Expression.ofTokens_of_derives hderives',
            Expression.ofTokens_of_derives hderives] at hvalue'
          exact ih hvalue'
  | negation _ ih =>
      cases hy with
      | negation hvalue => rw [ih hvalue]
  | binary _ _ _ ihl ihr =>
      cases hy with
      | binary hleft hright _ => rw [ihl hleft, ihr hright]
  | call value _ _ ih =>
      cases hy with
      | call value' hcells' _ =>
          rw [List.filterMap_congr fun a ha => ih a ha (hcells' a ha)]

/-! ## Cells outside the snapshot -/

-- Single cells are never dropped, so arguments differ in nothing that the ranges do not differ in.
theorem filter_allCells {cellsOf cellsOf' : Range → List Address} {p : Address → Bool}
    (h : ∀ r, (cellsOf r).filter p = (cellsOf' r).filter p) (args : List Argument) :
    (Argument.allCells cellsOf args).filter p = (Argument.allCells cellsOf' args).filter p := by
  unfold Argument.allCells
  rw [List.filter_flatMap, List.filter_flatMap]
  refine List.flatMap_congr fun arg _ => ?_
  cases arg with
  | cell a => rfl
  | range r => exact h r

-- What a filter drops may as well be given no value.
theorem filterMap_filter_of_none {value : Address → Option Float} {p : Address → Bool}
    {as : List Address} (h : ∀ a ∈ as, p a = false → value a = none) :
    (as.filter p).filterMap value = as.filterMap value := by
  rw [List.filterMap_filter]
  refine List.filterMap_congr fun a ha => ?_
  by_cases hp : p a = true
  · rw [if_pos hp]
  · rw [if_neg hp, h a ha (Bool.eq_false_of_not_eq_true hp)]

variable {s : Snapshot} {cellsOf cellsOf' : Range → List Address} {e : Expression} {text : String}
  {x : Option Float}

/-- It does not matter which cells outside the snapshot stand for a range besides those inside. -/
theorem EvaluatesOver.of_filter_eq
    (hsame : ∀ r, (cellsOf r).filter s.contains = (cellsOf' r).filter s.contains)
    (h : s.EvaluatesOver cellsOf e x) : s.EvaluatesOver cellsOf' e x := by
  induction h with
  | number x => exact .number x
  | empty hempty => exact .empty hempty
  | literal hcontains hvalue => exact .literal hcontains hvalue
  | formula hcomputes hparse hderives _ hfinite ih =>
      exact .formula hcomputes hparse hderives ih hfinite
  | negation _ ih => exact .negation ih
  | binary _ _ hdivisor ihl ihr => exact .binary ihl ihr hdivisor
  | @call f args value hcells hneeds ih =>
      -- Cells outside have no value, also those that were not among the cells before.
      let value' := fun a => if s.contains a = true then value a else none
      have hinside := filter_allCells hsame args
      have hempty : ∀ {a}, s.contains a = false → s.IsEmpty a := by
        intro a houtside hcontains
        rw [houtside] at hcontains
        cases hcontains
      have hvalues : (Argument.allCells cellsOf args).filterMap value =
          (Argument.allCells cellsOf' args).filterMap value' := by
        calc (Argument.allCells cellsOf args).filterMap value
            = ((Argument.allCells cellsOf args).filter s.contains).filterMap value :=
              (filterMap_filter_of_none fun a ha houtside =>
                value?_eq_none_of_evaluates (hcells a ha) (hempty houtside)).symm
          _ = ((Argument.allCells cellsOf' args).filter s.contains).filterMap value' := by
              rw [hinside]
              refine List.filterMap_congr fun a ha => ?_
              exact (if_pos (List.mem_filter.1 ha).2).symm
          _ = (Argument.allCells cellsOf' args).filterMap value' :=
              filterMap_filter_of_none fun a _ houtside =>
                if_neg (Bool.eq_false_iff.1 houtside)
      rw [hvalues] at hneeds ⊢
      refine .call value' (fun a ha => ?_) hneeds
      by_cases hcontains : s.contains a = true
      · have hmem : a ∈ (Argument.allCells cellsOf args).filter s.contains := by
          rw [hinside]
          exact List.mem_filter.2 ⟨ha, hcontains⟩
        have hvalue : value' a = value a := if_pos hcontains
        rw [hvalue]
        exact ih a (List.mem_filter.1 hmem).1
      · have hvalue : value' a = none := if_neg hcontains
        rw [hvalue]
        exact .empty (hempty (Bool.eq_false_of_not_eq_true hcontains))

/-- In a snapshot that fits the grid, functions may be applied to all cells of their ranges. -/
theorem Fits.evaluatesOver_cells_iff (h : s.Fits) :
    s.EvaluatesOver Range.cells e x ↔ s.Evaluates e x := by
  have hsame : ∀ r, (s.cellsOf r).filter s.contains = r.cells.filter s.contains := by
    intro r
    rw [h.cellsOf_eq, List.filter_filter]
    simp only [Bool.and_self]
  exact ⟨EvaluatesOver.of_filter_eq fun r => (hsame r).symm, EvaluatesOver.of_filter_eq hsame⟩

/-- Where a snapshot fits the grid, it makes no difference whether ranges are cut off at its edges:
    the cells beyond have no value. -/
theorem Fits.meansOver_cells_iff (h : s.Fits) : s.MeansOver Range.cells text x ↔ s.Means text x := by
  unfold Means MeansOver
  simp only [h.evaluatesOver_cells_iff]

end Snapshot

end Worksheet
