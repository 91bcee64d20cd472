import Worksheet.Proofs.Evaluation.Agreement
import Worksheet.Proofs.Evaluation.Session
import Worksheet.Proofs.Snapshot.Extraction

/-!
# Formulas without a value

An evaluation may end well and yet give no value. This happens to references only. A formula without
a value is the name of one cell, in any number of parentheses, and that cell has no value either:
it is empty, or its own formula is of the same kind. Following these references from cell to cell
ends at an empty one.

Everything else that a formula may do brings a number about: operators and negations count nothing
as zero, functions leave it out. So a formula in which any of these stands, or a number, has a
number as its value, or fails.

## Main definitions

* `Grammar.enclosed`: A cell in parentheses.
* `Token.yieldsNumber`: The tokens that bring a number about.
* `Snapshot.RefersTo`: The formula of a cell is a bare reference to another.

## Theorems

* `Grammar.derives_cell_iff`: The tokens of a bare reference.
* `Snapshot.evaluates_none_iff`: A cell without a value.
* `Snapshot.means_none_iff`: A formula without a value.
* `Snapshot.evaluates_none_iff_refersTo`: Bare references end at an empty cell.
* `Snapshot.evaluate_eq_none_iff_bare`: What is evaluated to no value, and what never is.
-/

namespace Worksheet

open Relation Grammar

/-- Whether a token brings a number about, whatever the cells hold. -/
def Token.yieldsNumber : Token → Bool
  | operator _ | number _ | function _ => true
  | cell _ | range _ | opening | closing => false

namespace Grammar

/-- A cell in so many pairs of parentheses. -/
def enclosed (n : Nat) (b : Address) : List Token :=
  List.replicate n .opening ++ .cell b :: List.replicate n .closing

variable {n : Nat} {a b : Address} {ts : List Token}

theorem enclosed_succ (n : Nat) (b : Address) :
    enclosed (n + 1) b = .opening :: (enclosed n b ++ [.closing]) := by
  rw [enclosed, List.replicate_succ, List.replicate_succ', enclosed, List.cons_append,
    List.append_assoc, List.cons_append]

/-- Around a cell in parentheses there is nothing but parentheses. -/
theorem mem_enclosed {t : Token} (h : t ∈ enclosed n b) :
    t = .cell b ∨ t = .opening ∨ t = .closing := by
  rw [enclosed, List.mem_append, List.mem_cons] at h
  rcases h with h | h | h
  · exact Or.inr (Or.inl (List.eq_of_mem_replicate h))
  · exact Or.inl h
  · exact Or.inr (Or.inr (List.eq_of_mem_replicate h))

theorem cell_mem_enclosed_iff : Token.cell a ∈ enclosed n b ↔ a = b := by
  constructor
  · intro h
    rcases mem_enclosed h with h | h | h
    · exact Token.cell.inj h
    · cases h
    · cases h
  · rintro rfl
    exact List.mem_append_right _ List.mem_cons_self

/-- A cell in parentheses is a tree with the cell alone. -/
theorem derives_enclosed (n : Nat) (b : Address) : Derives .operand (enclosed n b) (.cell b) := by
  induction n with
  | zero => exact .cell b
  | succ n ih =>
      rw [enclosed_succ]
      exact .group (.ofProduct (.ofOperand ih))

/-- Only a cell in parentheses has the cell alone as its tree. -/
theorem exists_enclosed_of_derives {level : Level} (h : Derives level ts (.cell b)) :
    ∃ n, ts = enclosed n b := by
  -- By induction on the derivation. Parentheses are the one thing that leaves no trace in a tree.
  generalize htree : Expression.cell b = e at h
  induction h with
  | cell a =>
      cases htree
      exact ⟨0, rfl⟩
  | group _ ih =>
      rcases ih htree with ⟨n, rfl⟩
      exact ⟨n + 1, (enclosed_succ n b).symm⟩
  | ofOperand _ ih => exact ih htree
  | ofProduct _ ih => exact ih htree
  | number | negation | call | factor | term => cases htree

/-- A bare reference is written as a cell in parentheses. -/
theorem derives_cell_iff : Derives .sum ts (.cell b) ↔ ∃ n, ts = enclosed n b := by
  constructor
  · exact exists_enclosed_of_derives
  · rintro ⟨n, rfl⟩
    exact .ofProduct (.ofOperand (derives_enclosed n b))

end Grammar

namespace Snapshot

variable {s : Snapshot} {c d : Cache} {text : String} {a b : Address}

/-- A cell is empty outside the grid, and inside it without a number and a formula. -/
theorem isEmpty_iff : s.IsEmpty b ↔
    s.contains b = false ∨ (s.value? b = none ∧ s.formula? b = none) := by
  unfold IsEmpty
  rw [← Bool.not_eq_true, ← imp_iff_not_or]

/-- Only a reference has no value. -/
theorem eq_cell_of_evaluates_none {e : Expression} (h : s.Evaluates e none) :
    ∃ b, e = .cell b := by
  cases h with
  | empty | formula => exact ⟨_, rfl⟩

/-- A cell without a value is empty, or its formula has none. -/
theorem evaluates_none_iff : s.Evaluates (.cell b) none ↔
    s.IsEmpty b ∨ ∃ g, s.Computes b g ∧ s.Means g none := by
  constructor
  · intro h
    cases h with
    | empty hempty => exact Or.inl hempty
    | formula hcomputes hparse hderives hvalue hfinite =>
        exact Or.inr ⟨_, hcomputes, _, _, hparse, hderives, hvalue, hfinite⟩
  · rintro (hempty | ⟨g, hcomputes, hmeans⟩)
    · exact .empty hempty
    · exact evaluates_of_means hcomputes hmeans

/-- A formula without a value is a bare reference to a cell without one. -/
theorem means_none_iff : s.Means text none ↔
    ∃ f n b, Formula.parse text = .ok f ∧ f.tokens = enclosed n b ∧ s.Evaluates (.cell b) none := by
  constructor
  · rintro ⟨f, e, hparse, hderives, hvalue, -⟩
    rcases eq_cell_of_evaluates_none hvalue with ⟨b, rfl⟩
    rcases derives_cell_iff.1 hderives with ⟨n, htokens⟩
    exact ⟨f, n, b, hparse, htokens, hvalue⟩
  · rintro ⟨f, n, b, hparse, htokens, hvalue⟩
    exact ⟨f, _, hparse, derives_cell_iff.2 ⟨n, htokens⟩, hvalue, isFinite_none⟩

/-- The formula of a cell is a bare reference to another cell. -/
def RefersTo (s : Snapshot) (a b : Address) : Prop :=
  ∃ g f n, s.Computes a g ∧ Formula.parse g = .ok f ∧ f.tokens = enclosed n b

/-- A cell without a value leads to an empty one by bare references, in any number of steps. -/
theorem evaluates_none_iff_refersTo : s.Evaluates (.cell a) none ↔
    ∃ b, ReflTransGen s.RefersTo a b ∧ s.IsEmpty b := by
  constructor
  · intro h
    -- By induction on the derivation, which is one of a reference at each step.
    generalize hcell : Expression.cell a = e, hnone : (none : Option Float) = x at h
    induction h generalizing a with
    | empty hempty =>
        cases hcell
        exact ⟨_, .refl, hempty⟩
    | formula hcomputes hparse hderives hvalue _ ih =>
        cases hcell
        cases hnone
        rcases eq_cell_of_evaluates_none hvalue with ⟨d, rfl⟩
        rcases derives_cell_iff.1 hderives with ⟨n, htokens⟩
        rcases ih rfl rfl with ⟨b, hpath, hempty⟩
        exact ⟨b, .head ⟨_, _, n, hcomputes, hparse, htokens⟩ hpath, hempty⟩
    | literal => cases hnone
    | number | negation | binary | call => cases hcell
  · rintro ⟨b, hpath, hempty⟩
    induction hpath using ReflTransGen.head_induction_on with
    | refl => exact .empty hempty
    | head hrefers _ ih =>
        rcases hrefers with ⟨g, f, n, hcomputes, hparse, htokens⟩
        exact .formula hcomputes hparse (derives_cell_iff.2 ⟨n, htokens⟩) ih isFinite_none

/-- A formula that is one cell in parentheses names that cell alone. -/
theorem names_iff_of_enclosed {f : Formula} {n : Nat} (hparse : Formula.parse text = .ok f)
    (htokens : f.tokens = enclosed n b) : Formula.Names text a ↔ a = b := by
  rw [← cell_mem_enclosed_iff (n := n), ← htokens]
  constructor
  · rintro ⟨f', hparse', hmem⟩
    rw [hparse] at hparse'
    cases hparse'
    exact hmem
  · exact fun hmem => ⟨f, hparse, hmem⟩

/-- A formula is evaluated to no value exactly if it is a bare reference to another cell that is
    empty or has a formula that is evaluated to no value there. What the caches hold does not
    matter, as long as they are sound. -/
theorem evaluate_eq_none_iff (hc : s.Sound c) (hd : s.Sound d) :
    (s.evaluate text a c).1 = .ok none ↔
      ∃ f n b, Formula.parse text = .ok f ∧ f.tokens = enclosed n b ∧ b ≠ a ∧
        (s.IsEmpty b ∨ ∃ g, s.Computes b g ∧ (s.evaluate g b d).1 = .ok none) := by
  rw [evaluate_eq_ok_iff hc, means_none_iff]
  constructor
  · -- The one cell of the formula is another than its own, as the text does not name that.
    rintro ⟨hnames, f, n, b, hparse, htokens, hvalue⟩
    have hother : b ≠ a := fun h => hnames ((names_iff_of_enclosed hparse htokens).2 h.symm)
    refine ⟨f, n, b, hparse, htokens, hother, (evaluates_none_iff.1 hvalue).imp_right ?_⟩
    rintro ⟨g, hcomputes, hmeans⟩
    exact ⟨g, hcomputes, (evaluate_of_computes hd hcomputes).2 hmeans⟩
  · rintro ⟨f, n, b, hparse, htokens, hother, hvalue⟩
    have hnames : ¬ Formula.Names text a := fun h =>
      hother ((names_iff_of_enclosed hparse htokens).1 h).symm
    refine ⟨hnames, f, n, b, hparse, htokens, evaluates_none_iff.2 (hvalue.imp_right ?_)⟩
    rintro ⟨g, hcomputes, houtcome⟩
    exact ⟨g, hcomputes, (evaluate_of_computes hd hcomputes).1 houtcome⟩

/-- A formula with an operator, a number or a function is never evaluated to no value. -/
theorem evaluate_ne_none {f : Formula} {t : Token} (hc : s.Sound c)
    (hparse : Formula.parse text = .ok f) (ht : t ∈ f.tokens) (hyields : t.yieldsNumber = true) :
    (s.evaluate text a c).1 ≠ .ok none := by
  intro h
  rcases (evaluate_eq_none_iff hc hc).1 h with ⟨f', n, b, hparse', htokens, -⟩
  rw [hparse] at hparse'
  cases hparse'
  rw [htokens] at ht
  -- A bare reference has no such token.
  rcases mem_enclosed ht with rfl | rfl | rfl <;> cases hyields

/-- In any session, a formula is evaluated to no value exactly if it is the name of another cell in
    parentheses, and that cell is outside the snapshot, has neither a number nor a formula, or has
    a formula that is evaluated to no value in its cell. A formula with an operator, a number or a
    function gives a number or fails. -/
theorem evaluate_eq_none_iff_bare (s : Snapshot) (calls others : List Call) (text : String)
    (a : Address) :
    ((s.evaluate text a (s.after ∅ calls)).1 = .ok none ↔
      ∃ f n b, Formula.parse text = .ok f ∧
        f.tokens = List.replicate n .opening ++ .cell b :: List.replicate n .closing ∧ b ≠ a ∧
          (s.contains b = false ∨ (s.value? b = none ∧ s.formula? b = none) ∨
            ∃ g, s.Computes b g ∧ (s.evaluate g b (s.after ∅ others)).1 = .ok none)) ∧
      ∀ f, Formula.parse text = .ok f → (∃ t ∈ f.tokens, t.yieldsNumber = true) →
        (∃ x, (s.evaluate text a (s.after ∅ calls)).1 = .ok (some x)) ∨
          ∃ e, (s.evaluate text a (s.after ∅ calls)).1 = .error e := by
  have hc := sound_after (s := s) sound_empty calls
  refine ⟨?_, fun f hparse hyields => ?_⟩
  · simp only [evaluate_eq_none_iff hc (sound_after sound_empty others), isEmpty_iff, or_assoc,
      enclosed]
  · -- A token that yields a number leaves no way to have no value.
    rcases hyields with ⟨t, ht, hyields⟩
    have hne := evaluate_ne_none (a := a) hc hparse ht hyields
    cases houtcome : (s.evaluate text a (s.after ∅ calls)).1 with
    | error e => exact Or.inr ⟨e, rfl⟩
    | ok x =>
        cases x with
        | some x => exact Or.inl ⟨x, rfl⟩
        | none => exact absurd houtcome hne

-- `A1` refers to a cell outside the table. In two pairs of parentheses it has no value either, also
-- after it has been remembered, but its negation is a number or an error.
theorem evaluate_eq_none_iff_bare_twice_enclosed :
    let s : Snapshot := ofRows [[none]] (.ofList [("A1", "=B1")])
    let b : Address := ⟨1, 0, by decide, by decide⟩
    let calls : List Call := [.evaluate "=A1" b, .evaluate "=1/A1" b]
    (s.evaluate "=((A1))" b (s.after ∅ calls)).1 = .ok none ∧
      (s.evaluate "=-A1" b (s.after ∅ calls)).1 ≠ .ok none := by
  intro s b calls
  let a : Address := ⟨0, 0, by decide, by decide⟩
  have hparse : Formula.parse "=((A1))" =
      .ok ⟨[.opening, .opening, .cell a, .closing, .closing]⟩ := by cbv
  have hnegated : Formula.parse "=-A1" = .ok ⟨[.operator .subtract, .cell a]⟩ := by cbv
  have hother : a ≠ b := by decide
  have htext : a.text = "A1" := by cbv
  have hcomputes : s.Computes a "=B1" :=
    computes_ofRows (by decide) (by decide) (by decide) (htext ▸ List.mem_cons_self)
  -- The formula inside has no value either, since its cell lies outside the grid.
  have hinner : (s.evaluate "=B1" a (s.after ∅ calls)).1 = .ok none :=
    (evaluate_eq_none_iff_bare s calls calls _ _).1.2
      ⟨_, 0, b, by cbv, rfl, hother.symm, Or.inl (by decide)⟩
  constructor
  · exact (evaluate_eq_none_iff_bare s calls calls _ _).1.2
      ⟨_, 2, a, hparse, rfl, hother, Or.inr (Or.inr ⟨_, hcomputes, hinner⟩)⟩
  · intro hnone
    rcases (evaluate_eq_none_iff_bare s calls calls "=-A1" b).2 _ hnegated
      ⟨_, List.mem_cons_self, rfl⟩ with ⟨x, hx⟩ | ⟨e, he⟩
    · rw [hnone] at hx
      cases hx
    · rw [hnone] at he
      cases he

end Snapshot

end Worksheet
