import Mathlib
import Worksheet.Proofs.Evaluation.Cache

/-!
# The evaluator agrees with the rules

A formula evaluated with no cache to begin with has a value exactly when the rules derive one, and
it is the same. The evaluator adds a cache, a list of the cells it is resolving and a check that a
formula does not name its own cell; only the check shows, and only in formulas that do.

## Theorems

* `Snapshot.evaluate_eq_ok_iff`: The values that evaluation finds, from any sound cache.
* `Snapshot.evaluate_of_names`: A formula that names its own cell is refused.
* `Snapshot.evaluates_iff_means`, `Snapshot.evaluate_of_computes`: A formula in its own cell.
* `Snapshot.evaluate_agrees`: Evaluation without a cache finds what the rules derive.
-/

namespace Worksheet

open Relation Grammar

namespace Snapshot

variable {s : Snapshot} {c : Cache} {text : String} {a : Address}

theorem evaluate_of_names (hc : s.Sound c) (h : Formula.Names text a) :
    (s.evaluate text a c).1 = .error .selfReference := by
  rw [evaluate_eq hc, outcomeWith_of_names h]

theorem evaluate_eq_ok_iff {x : Option Float} (hc : s.Sound c) :
    (s.evaluate text a c).1 = .ok x ↔ ¬ Formula.Names text a ∧ s.Means text x := by
  rw [evaluate_eq hc]
  constructor
  · intro h
    constructor
    · intro hnames
      rw [outcomeWith_of_names hnames] at h
      cases h
    · exact means_of_outcomeWith (fun b _ y hy => evaluates_of_outcome [] b y hy) h
  · rintro ⟨hnames, hmeans⟩
    exact outcomeWith_of_means hnames
      (fun b _ y hy => outcome_of_evaluates [] b y (List.forall_mem_nil _) hy) hmeans

/-- A cell with a formula has the value of that formula. -/
theorem evaluates_iff_means {x : Option Float} (hcomputes : s.Computes a text) :
    s.Evaluates (.cell a) x ↔ s.Means text x := by
  constructor
  · intro h
    cases h with
    -- A cell that computes a text is neither empty nor a number.
    | empty hempty => exact absurd hempty hcomputes.not_isEmpty
    | literal _ hnumber =>
        rw [hcomputes.value?] at hnumber
        cases hnumber
    | formula hcomputes' hparse hderives hvalue hfinite =>
        rw [hcomputes'.unique hcomputes] at hparse
        exact ⟨_, _, hparse, hderives, hvalue, hfinite⟩
  · exact evaluates_of_means hcomputes

/-- A formula is evaluated in its own cell to the value of that cell; if there is one, the formula
    does not name the cell. -/
theorem evaluate_of_computes {x : Option Float} (hc : s.Sound c) (hcomputes : s.Computes a text) :
    (s.evaluate text a c).1 = .ok x ↔ s.Means text x := by
  rw [evaluate_eq_ok_iff hc]
  refine and_iff_right_of_imp fun hmeans => ?_
  rintro ⟨f, hparse, hmem⟩
  refine not_dependsOnItself_of_evaluates ((evaluates_iff_means hcomputes).2 hmeans) ?_
  exact .single ⟨text, hcomputes, f, hparse, Or.inl hmem⟩

/-- In a snapshot that fits the grid, evaluation without a cache finds exactly the values that the
    rules derive when functions are applied to all cells of their ranges, unless the formula names
    the cell it stands in; then it is refused. -/
theorem evaluate_agrees (s : Snapshot) (hfits : s.Fits) (text : String) (a : Address) :
    (¬ Formula.Names text a →
        ∀ x, (s.evaluate text a ∅).1 = .ok x ↔ s.MeansOver Range.cells text x) ∧
      (Formula.Names text a → (s.evaluate text a ∅).1 = .error .selfReference) := by
  constructor
  · intro hnames x
    rw [evaluate_eq_ok_iff sound_empty, hfits.meansOver_cells_iff]
    exact and_iff_right hnames
  · exact evaluate_of_names sound_empty

-- `A1` holds the formula `=B1`, and `B1` lies outside the table.
theorem evaluate_agrees_on_reference :
    ((ofRows [[none]] (.ofList [("A1", "=B1")])).evaluate "=A1"
        ⟨1, 0, by decide, by decide⟩ ∅).1 = .ok none ∧
      ((ofRows [[none]] (.ofList [("A1", "=B1")])).evaluate "=A1"
        ⟨0, 0, by decide, by decide⟩ ∅).1 = .error .selfReference := by
  -- Neither evaluation is run: `=A1` has a derivation, and it names the cell `A1`.
  let s : Snapshot := ofRows [[none]] (.ofList [("A1", "=B1")])
  let a : Address := ⟨0, 0, by decide, by decide⟩
  let b : Address := ⟨1, 0, by decide, by decide⟩
  have hfits : s.Fits := ⟨by decide, by decide⟩
  have hparse : Formula.parse "=A1" = .ok ⟨[.cell a]⟩ := by cbv
  constructor
  · have hcomputes : s.Computes a "=B1" := by
      refine ⟨by decide, by decide, ?_⟩
      have htext : a.text = "A1" := by cbv
      unfold formula?
      rw [htext]
      exact Std.HashMap.getElem?_ofList_of_mem rfl (by decide) List.mem_cons_self
    have hempty : s.IsEmpty b := fun h => absurd h (by decide)
    have hvalue : s.EvaluatesOver Range.cells (.cell a) none :=
      .formula hcomputes (by cbv) (.ofProduct (.ofOperand (.cell b))) (.empty hempty)
        isFinite_none
    refine ((evaluate_agrees s hfits _ _).1 ?_ none).2 ⟨_, _, hparse, .ofProduct (.ofOperand (.cell a)),
      hvalue, isFinite_none⟩
    rintro ⟨f, hf, hmem⟩
    rw [hparse] at hf
    cases hf
    rw [List.mem_singleton, Token.cell.injEq] at hmem
    exact absurd hmem (by decide)
  · exact (evaluate_agrees s hfits _ _).2 ⟨_, hparse, List.mem_singleton_self _⟩

end Snapshot

end Worksheet
