import Mathlib.Logic.Relation
import Worksheet.Proofs.Evaluation.Meaning

/-!
# Dependencies between cells

A cell with a formula depends on the cells that its formula names, one by one or in a range, as far
as a walk over the range goes. What a cell depends on need not have a formula itself.

Every cell that the value of a formula rests on has a value of its own, and a cell that depends on
itself has none: its derivation would have to contain itself. So nothing that can be reached from a
formula with a value lies on a cycle.

## Main definitions

* `Formula.arguments`: The cells and ranges that a formula names.
* `Formula.Names`: The text of a formula names a cell by itself.
* `Snapshot.Uses`: The text of a formula names a cell.
* `Snapshot.Depends`, `Snapshot.DependsOnItself`: One step between cells, and a cycle of them.
* `Snapshot.Reaches`: A cell is named by a formula, or depended on by one that is.

## Theorems

* `Formula.mem_cells_iff`, `Formula.mem_ranges_iff`: The cells and the ranges listed for a formula
  are those its tokens name.
* `Snapshot.evaluates_of_depends`: What a cell with a value depends on has a value.
* `Snapshot.not_dependsOnItself_of_evaluates`: A cell on a cycle has no value.
-/

namespace Worksheet

open Relation Grammar

namespace Formula

-- Collecting what certain tokens name, token by token.
theorem mem_foldl_iff {α : Type} {step : List α → Token → List α} {x : α} {token : Token}
    (hstep : ∀ seen t, x ∈ step seen t ↔ x ∈ seen ∨ token = t) (ts : List Token)
    (seen : List α) : x ∈ ts.foldl step seen ↔ x ∈ seen ∨ token ∈ ts := by
  induction ts generalizing seen with
  | nil => exact (or_iff_left List.not_mem_nil).symm
  | cons t rest ih => rw [List.foldl_cons, ih, hstep, List.mem_cons, or_assoc]

/-- The cells of a formula are those among its tokens. -/
theorem mem_cells_iff (f : Formula) (a : Address) : a ∈ f.cells ↔ Token.cell a ∈ f.tokens := by
  unfold cells
  rw [mem_foldl_iff]
  · exact or_iff_right List.not_mem_nil
  · intro seen t
    cases t with
    | cell b =>
        by_cases hb : b ∈ seen
        · simp only [if_pos hb, Token.cell.injEq]
          exact ⟨Or.inl, fun h => h.elim id fun h => h ▸ hb⟩
        · simp only [if_neg hb, List.mem_append, List.mem_singleton, Token.cell.injEq]
    | range r | function f | operator op | number x | opening | closing =>
        simp only [reduceCtorEq, or_false]

theorem mem_ranges_iff (f : Formula) (r : Range) : r ∈ f.ranges ↔ Token.range r ∈ f.tokens := by
  unfold ranges
  rw [mem_foldl_iff]
  · exact or_iff_right List.not_mem_nil
  · intro seen t
    cases t with
    | range t =>
        by_cases ht : t ∈ seen
        · simp only [if_pos ht, Token.range.injEq]
          exact ⟨Or.inl, fun h => h.elim id fun h => h ▸ ht⟩
        · simp only [if_neg ht, List.mem_append, List.mem_singleton, Token.range.injEq]
    | cell a | function f | operator op | number x | opening | closing =>
        simp only [reduceCtorEq, or_false]

/-- A formula names a cell if the cell is one of its tokens. -/
theorem references_iff (f : Formula) (a : Address) :
    f.references a = true ↔ Token.cell a ∈ f.tokens := by
  unfold references
  rw [List.contains_iff_mem, mem_cells_iff]

/-- The cells and ranges that the tokens name, from left to right. -/
def arguments (f : Formula) : List Argument := f.tokens.filterMap Token.argument?

theorem mem_arguments_iff (f : Formula) (arg : Argument) :
    arg ∈ f.arguments ↔ arg.token ∈ f.tokens := by
  unfold arguments
  rw [List.mem_filterMap]
  constructor
  · rintro ⟨t, ht, harg⟩
    cases t <;> cases harg <;> exact ht
  · intro h
    exact ⟨arg.token, h, argument?_token arg⟩

/-- The text of a formula names a cell by itself. -/
def Names (text : String) (a : Address) : Prop :=
  ∃ f, parse text = .ok f ∧ Token.cell a ∈ f.tokens

end Formula

namespace Snapshot

/-- The text of a formula names a cell: by itself, where it need not lie in the snapshot, or in a
    range, where a walk visits it. In a snapshot that fits the grid, a walk visits the cells of its
    range that lie inside. -/
def Uses (s : Snapshot) (text : String) (b : Address) : Prop :=
  ∃ f, Formula.parse text = .ok f ∧
    (Token.cell b ∈ f.tokens ∨ ∃ r, Token.range r ∈ f.tokens ∧ b ∈ s.cellsOf r)

/-- The formula of a cell names another cell. -/
def Depends (s : Snapshot) (a b : Address) : Prop := ∃ text, s.Computes a text ∧ s.Uses text b

/-- A cell lies on a cycle of one or more dependencies. -/
def DependsOnItself (s : Snapshot) (a : Address) : Prop := TransGen s.Depends a a

/-- A cell is named by a formula, or depended on by one that is, over any number of steps. -/
def Reaches (s : Snapshot) (text : String) (b : Address) : Prop :=
  ∃ a, s.Uses text a ∧ ReflTransGen s.Depends a b

/-- The cells of a list of arguments are the single ones and those of the ranges. -/
theorem mem_allCells_iff {cellsOf : Range → List Address} {args : List Argument} {b : Address} :
    b ∈ Argument.allCells cellsOf args ↔
      .cell b ∈ args ∨ ∃ r, .range r ∈ args ∧ b ∈ cellsOf r := by
  unfold Argument.allCells
  rw [List.mem_flatMap]
  constructor
  · rintro ⟨arg, harg, hb⟩
    cases arg with
    | cell a =>
        rw [Argument.cells, List.mem_singleton] at hb
        rw [hb]
        exact Or.inl harg
    | range r => exact Or.inr ⟨r, harg, hb⟩
  · rintro (h | ⟨r, hr, hb⟩)
    · exact ⟨_, h, List.mem_singleton_self b⟩
    · exact ⟨_, hr, hb⟩

/-- An operation takes the cells of both its sides. -/
theorem mem_allCells_binary {cellsOf : Range → List Address} {op : Operator}
    {left right : Expression} {b : Address} :
    b ∈ Argument.allCells cellsOf (Expression.binary op left right).arguments ↔
      b ∈ Argument.allCells cellsOf left.arguments ∨
        b ∈ Argument.allCells cellsOf right.arguments := by
  unfold Argument.allCells
  rw [Expression.arguments, List.flatMap_append, List.mem_append]

/-- A text uses the cells of its arguments, ranges cut off at the edges. -/
theorem uses_iff_mem_allCells {s : Snapshot} {text : String} {f : Formula} {b : Address}
    (hparse : Formula.parse text = .ok f) :
    s.Uses text b ↔ b ∈ Argument.allCells s.cellsOf f.arguments := by
  rw [mem_allCells_iff, Formula.mem_arguments_iff]
  simp only [Formula.mem_arguments_iff]
  constructor
  · rintro ⟨f', hparse', hnamed⟩
    rw [hparse] at hparse'
    cases hparse'
    exact hnamed
  · intro hnamed
    exact ⟨f, hparse, hnamed⟩

/-- What an expression may resolve, its text uses, whether the expression has gaps or not. -/
theorem uses_of_mem_expression {s : Snapshot} {text : String} {f : Formula} {b : Address}
    (hparse : Formula.parse text = .ok f)
    (hb : b ∈ Argument.allCells s.cellsOf f.expression.arguments) : s.Uses text b := by
  rw [uses_iff_mem_allCells hparse]
  rw [mem_allCells_iff] at hb ⊢
  rcases hb with hb | ⟨r, hr, hb⟩
  · exact Or.inl ((f.mem_arguments_iff _).2 (Expression.token_mem_of_mem_arguments hb))
  · exact Or.inr ⟨r, (f.mem_arguments_iff _).2 (Expression.token_mem_of_mem_arguments hr), hb⟩

/-- A derivation evaluates whatever the text uses. -/
theorem mem_expression_of_uses {s : Snapshot} {text : String} {f : Formula} {e : Expression}
    {b : Address} (hparse : Formula.parse text = .ok f) (hderives : Derives .sum f.tokens e)
    (h : s.Uses text b) : b ∈ Argument.allCells s.cellsOf e.arguments := by
  rw [uses_iff_mem_allCells hparse] at h
  have hargs : f.arguments = e.arguments := arguments_of_derives hderives
  rw [← hargs]
  exact h

/-- If an expression has a value, so has every cell among its arguments. -/
theorem evaluates_of_mem_arguments {s : Snapshot} {e : Expression} {x : Option Float}
    (h : s.Evaluates e x) :
    ∀ b ∈ Argument.allCells s.cellsOf e.arguments, ∃ y, s.Evaluates (.cell b) y := by
  -- A single cell is among its own cells, so the rules for cells need no induction.
  have hcell : ∀ {a : Address} {x : Option Float}, s.Evaluates (.cell a) x →
      ∀ b ∈ Argument.allCells s.cellsOf (Expression.arguments (.cell a)),
        ∃ y, s.Evaluates (.cell b) y := by
    intro a x ha b hb
    rw [List.mem_singleton.1 hb]
    exact ⟨x, ha⟩
  induction h with
  | number x => exact List.forall_mem_nil _
  | empty hempty => exact hcell (.empty hempty)
  | literal hcontains hvalue => exact hcell (.literal hcontains hvalue)
  | formula hcomputes hparse hderives hvalue hfinite _ =>
      exact hcell (.formula hcomputes hparse hderives hvalue hfinite)
  | negation _ ih => exact ih
  | binary _ _ _ ihl ihr =>
      intro b hb
      rcases mem_allCells_binary.1 hb with hb | hb
      · exact ihl b hb
      · exact ihr b hb
  | call value hcells _ _ => exact fun b hb => ⟨value b, hcells b hb⟩

/-- What a formula with a value uses has a value. -/
theorem evaluates_of_uses {s : Snapshot} {text : String} {x : Option Float} {b : Address}
    (h : s.Means text x) (huses : s.Uses text b) : ∃ y, s.Evaluates (.cell b) y := by
  rcases h with ⟨f, e, hparse, hderives, hvalue, _⟩
  exact evaluates_of_mem_arguments hvalue b (mem_expression_of_uses hparse hderives huses)

/-- What a cell with a value depends on has a value. -/
theorem evaluates_of_depends {s : Snapshot} {a b : Address} {x : Option Float}
    (h : s.Evaluates (.cell a) x) (hdepends : s.Depends a b) :
    ∃ y, s.Evaluates (.cell b) y := by
  rcases hdepends with ⟨text, hcomputes, huses⟩
  -- Only the rule for formulas applies to a cell that depends on anything.
  cases h with
  | empty hempty => exact absurd hempty hcomputes.not_isEmpty
  | literal _ hvalue =>
      rw [hcomputes.value?] at hvalue
      cases hvalue
  | formula hcomputes' hparse hderives hvalue hfinite =>
      rw [hcomputes.unique hcomputes'] at huses
      exact evaluates_of_uses ⟨_, _, hparse, hderives, hvalue, hfinite⟩ huses

/-- A derivation never rests on a cell that depends on itself. -/
theorem not_dependsOnItself_of_mem {s : Snapshot} {e : Expression} {x : Option Float}
    (h : s.Evaluates e x) :
    ∀ b ∈ Argument.allCells s.cellsOf e.arguments, ¬ s.DependsOnItself b := by
  -- By induction on the derivation: the value of a cell on a cycle contains that of the next cell
  -- on the same cycle, and a derivation is finite.
  induction h with
  | number x => exact List.forall_mem_nil _
  | @empty a hempty =>
      intro b hb hcycle
      rw [List.mem_singleton.1 hb] at hcycle
      rcases TransGen.head'_iff.1 hcycle with ⟨c, ⟨text, hcomputes, _⟩, _⟩
      exact hcomputes.not_isEmpty hempty
  | @literal a x hcontains hvalue =>
      intro b hb hcycle
      rw [List.mem_singleton.1 hb] at hcycle
      rcases TransGen.head'_iff.1 hcycle with ⟨c, ⟨text, hcomputes, _⟩, _⟩
      rw [hcomputes.value?] at hvalue
      cases hvalue
  | @formula a text f e x hcomputes hparse hderives _ _ ih =>
      intro b hb hcycle
      rw [List.mem_singleton.1 hb] at hcycle
      -- The first cell on the cycle is used by the formula, and lies on the cycle as well.
      rcases TransGen.head'_iff.1 hcycle with ⟨c, hac, hca⟩
      have hdepends : s.Depends a c := hac
      rcases hac with ⟨text', hcomputes', huses⟩
      rw [hcomputes'.unique hcomputes] at huses
      exact ih c (mem_expression_of_uses hparse hderives huses) (TransGen.tail' hca hdepends)
  | negation _ ih => exact ih
  | binary _ _ _ ihl ihr =>
      intro b hb
      rcases mem_allCells_binary.1 hb with hb | hb
      · exact ihl b hb
      · exact ihr b hb
  | call value _ _ ih => exact fun b hb => ih b hb b (List.mem_singleton_self b)

/-- A cell with a value does not depend on itself: a derivation of its value would contain a smaller
    one of the same. -/
theorem not_dependsOnItself_of_evaluates {s : Snapshot} {a : Address} {x : Option Float}
    (h : s.Evaluates (.cell a) x) : ¬ s.DependsOnItself a :=
  not_dependsOnItself_of_mem h a (List.mem_singleton_self a)

/-- Nothing that is reached from a formula with a value depends on itself. -/
theorem not_dependsOnItself_of_reaches {s : Snapshot} {text : String} {x : Option Float}
    {b : Address} (h : s.Means text x) (hreaches : s.Reaches text b) :
    ¬ s.DependsOnItself b := by
  rcases hreaches with ⟨a, huses, hpath⟩
  -- Values are handed down the path, one dependency at a time.
  have hvalue : ∃ y, s.Evaluates (.cell b) y := by
    induction hpath with
    | refl => exact evaluates_of_uses h huses
    | tail _ hdepends ih =>
        rcases ih with ⟨y, hy⟩
        exact evaluates_of_depends hy hdepends
  rcases hvalue with ⟨y, hy⟩
  exact not_dependsOnItself_of_evaluates hy

end Snapshot

end Worksheet
