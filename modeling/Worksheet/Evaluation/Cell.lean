import Worksheet.Evaluation.Basic
import Worksheet.Formula.Basic

/-!
# Evaluating formulas

The value of a formula against a snapshot. A cell with a formula is resolved by evaluating that
formula in turn. The cells being resolved are remembered on the way down: meeting one of them again
is a circular reference. Each branch has its own way down, so two siblings may use the same cell.

Besides this, a formula that names the cell it stands in is refused at once. Values are remembered
in the cache only when they are complete, so what is found there is never part of a cycle.

## Main definitions

* `Snapshot.unvisited`: The formula cells not being resolved; each step down leaves fewer.
* `Snapshot.evaluateWith`: The value of a formula, given how to resolve a cell.
* `Snapshot.resolve`: The value of a cell.
* `Snapshot.evaluate`: The value of a formula, and the cache after it.

## Theorems

* `Snapshot.length_unvisited_lt`: Resolving a formula cell leaves fewer cells to be resolved.
-/

namespace Worksheet

namespace Snapshot

/-- The formula cells that are not being resolved, under the written forms of their addresses. -/
def unvisited (s : Snapshot) (visited : List String) : List String :=
  s.formulas.keys.filter fun reference => !visited.contains reference

theorem length_unvisited_lt {s : Snapshot} {visited : List String} {reference formula : String}
    (hformula : s.formulas[reference]? = some formula)
    (hvisited : visited.contains reference = false) :
    (s.unvisited (reference :: visited)).length < (s.unvisited visited).length := by
  have hkey : reference ∈ s.formulas.keys := by
    rw [Std.HashMap.mem_keys, Std.HashMap.mem_iff_isSome_getElem?, hformula]
    rfl
  rw [unvisited, unvisited, ← List.countP_eq_length_filter, ← List.countP_eq_length_filter]
  -- Nothing becomes unvisited, and the reference itself no longer is.
  have hrest : ∀ keys : List String, reference ∈ keys →
      keys.countP (fun r => !(reference :: visited).contains r) <
        keys.countP (fun r => !visited.contains r) := by
    intro keys hmem
    have hle : ∀ ks : List String,
        ks.countP (fun r => !(reference :: visited).contains r) ≤
          ks.countP (fun r => !visited.contains r) := fun ks =>
      List.countP_mono_left fun r _ hr => by
        simp only [List.contains_cons, Bool.not_or, Bool.and_eq_true] at hr
        exact hr.2
    induction keys with
    | nil => exact nomatch hmem
    | cons k rest ih =>
      rw [List.countP_cons, List.countP_cons]
      rcases List.mem_cons.1 hmem with rfl | hmem
      · have hnow : (!(reference :: visited).contains reference) = false := by simp
        have hbefore : (!visited.contains reference) = true := by rw [hvisited]; rfl
        rw [hnow, hbefore]
        exact Nat.lt_succ_of_le (hle rest)
      · have hlt := ih hmem
        have hhead : (if (!(reference :: visited).contains k) = true then 1 else 0) ≤
            (if (!visited.contains k) = true then 1 else 0) := by
          have := hle [k]
          simpa only [List.countP_cons, List.countP_nil, Nat.zero_add] using this
        omega
  exact hrest _ hkey

/-- A value that is infinite or not a number is no value of a formula. -/
def checkFinite : Option Float → Except FormulaError (Option Float)
  | some x => if x.isFinite then .ok (some x) else .error .notFinite
  | none => .ok none

/-- The value of a formula in a cell, given how to resolve other cells. -/
def evaluateWith (s : Snapshot) (resolve : Address → Computation (Option Float)) (formula : String)
    (a : Address) : Computation (Option Float) :=
  match Formula.parse formula with
  | .error cause => throw (.malformed cause)
  | .ok f =>
    if f.references a then throw .selfReference
    else do
      let value ← f.expression.evaluate s.cellsOf resolve
      checkFinite value

/-- The value of a cell, while the formulas of the cells in `visited` are being evaluated. -/
def resolve (s : Snapshot) (visited : List String) (a : Address) : Computation (Option Float) := do
  let reference := a.text
  match (← get)[reference]? with
  | some value => return value
  | none =>
    if _hvisited : visited.contains reference then throw (.circular reference)
    else if !s.contains a then return none
    else
      match s.value? a with
      | some x => return some x
      | none =>
        match _hformula : s.formulas[reference]? with
        | none => return none
        | some formula => do
          let value ← s.evaluateWith (fun b => resolve s (reference :: visited) b) formula a
          modify fun cache => cache.insert reference value
          return value
termination_by (s.unvisited visited).length
decreasing_by exact length_unvisited_lt _hformula (by simpa using _hvisited)

/-- The value of a formula that stands in a cell, and the cache after its evaluation. -/
def evaluate (s : Snapshot) (formula : String) (a : Address) (cache : Cache) : Outcome × Cache :=
  (s.evaluateWith (s.resolve []) formula a).run.run cache

end Snapshot

end Worksheet
