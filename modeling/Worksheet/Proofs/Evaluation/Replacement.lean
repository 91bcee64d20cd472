import Worksheet.Proofs.Evaluation.Locality

/-!
# A formula can be replaced by its value

A cell whose formula has a value can be given this value as its number, or nothing if the formula
only refers to an empty cell. No formula then evaluates to anything else than before, and none
fails in another way.

A cell with a value lies on no cycle. Whenever it is resolved, no cell on the trail is within its
reach, so it has the same value under every trail that leads to it. The cells in between are
resolved in the same order as before, so the first error that is met is the same one.

## Main definitions

* `Snapshot.withValue`: A snapshot with a value in place of a formula.

## Theorems

* `Snapshot.entry_withValue`: Nothing else changes.
* `Snapshot.outcome_withValue`: Every cell has its old outcome.
* `Snapshot.evaluate_withValue`: Every formula has its old outcome.
-/

namespace Worksheet

open Relation Grammar

namespace Snapshot

/-- The snapshot with a value, which may be missing, in place of whatever a cell had. -/
def withValue (s : Snapshot) (a : Address) (x : Option Float) : Snapshot where
  rows := s.rows.modify a.row (·.set a.col x)
  width := s.width
  formulas := s.formulas.erase a.text
  length_eq := by
    intro row hrow
    rcases List.mem_iff_getElem?.1 hrow with ⟨i, hi⟩
    rw [List.getElem?_modify] at hi
    rcases Option.map_eq_some_iff.1 hi with ⟨given, hgiven, rfl⟩
    have hlength := s.length_eq given (List.mem_of_getElem? hgiven)
    split
    · rw [List.length_set, hlength]
    · exact hlength

variable {s t : Snapshot} {trail : List Address} {a b : Address} {x : Option Float}
  {text : String}

theorem contains_withValue (s : Snapshot) (a : Address) (x : Option Float) :
    (s.withValue a x).contains = s.contains := by
  funext b
  rw [Bool.eq_iff_iff, contains_iff, contains_iff]
  unfold height withValue
  rw [List.length_modify]

theorem value?_withValue_self (h : s.contains a = true) : (s.withValue a x).value? a = x := by
  rw [contains_iff] at h
  have hrow := List.getElem?_eq_getElem h.1
  have hcol := h.2
  rw [← s.length_eq _ (List.mem_of_getElem? hrow)] at hcol
  unfold value? withValue
  dsimp only
  rw [List.getElem?_modify_eq, hrow]
  simp only [Option.map_eq_map, Option.map_some, Option.bind_eq_bind, Option.bind_some,
    List.getElem?_set_self hcol]

/-- Other cells keep their numbers. -/
theorem value?_withValue_of_ne (h : b ≠ a) : (s.withValue a x).value? b = s.value? b := by
  unfold value? withValue
  dsimp only
  rw [List.getElem?_modify]
  cases s.rows[b.row]? with
  | none => rfl
  | some row =>
      simp only [Option.map_eq_map, Option.map_some, Option.bind_eq_bind, Option.bind_some]
      by_cases hrow : a.row = b.row
      · -- In the row of the replaced cell the column is another one.
        have hcol : a.col ≠ b.col := fun hcol => h (Address.ext hcol.symm hrow.symm)
        rw [if_pos hrow, List.getElem?_set_ne hcol]
      · rw [if_neg hrow]

/-- The cell loses its formula and others keep theirs. -/
theorem formula?_withValue (s : Snapshot) (a b : Address) (x : Option Float) :
    (s.withValue a x).formula? b = if b = a then none else s.formula? b := by
  change (s.formulas.erase a.text)[b.text]? = _
  rw [Std.HashMap.getElem?_erase]
  by_cases h : b = a
  · rw [if_pos h, h, if_pos (beq_self_eq_true a.text)]
  · have hne : ¬ (a.text == b.text) = true := fun heq =>
      h (Address.text_injective (beq_iff_eq.1 heq)).symm
    rw [if_neg h, if_neg hne]
    rfl

/-- The cell has the value and no formula, and nothing else has changed. -/
theorem entry_withValue (h : s.contains a = true) (b : Address) :
    (s.withValue a x).entry b = if b = a then (x, none) else s.entry b := by
  unfold entry
  rw [contains_withValue, formula?_withValue]
  by_cases hb : b = a
  · rw [if_pos hb, if_pos hb, hb, if_pos h, value?_withValue_self h]
  · rw [if_neg hb, if_neg hb, value?_withValue_of_ne hb]

theorem cellsOf_withValue (s : Snapshot) (a : Address) (x : Option Float) :
    (s.withValue a x).cellsOf = s.cellsOf := by
  -- Walks go by the number of rows and columns alone.
  have hheight : (s.withValue a x).height = s.height := List.length_modify ..
  funext r
  unfold cellsOf
  rw [hheight]
  rfl

/-- The outcome of a formula is the same in two snapshots of one size if the cells that it uses have
    the same outcomes. -/
theorem outcomeWith_eq_of_uses {cell cell' : Address → Outcome} (hcellsOf : t.cellsOf = s.cellsOf)
    (h : ∀ b, s.Uses text b → cell' b = cell b) :
    t.outcomeWith cell' text a = s.outcomeWith cell text a := by
  refine outcomeWith_congr fun f hparse => ?_
  rw [hcellsOf]
  refine Expression.outcome_congr (fun b hb => ?_) fun args hargs => gather_congr fun b hb => ?_
  · exact h b (uses_of_mem_expression hparse (mem_allCells_iff.2 (Or.inl hb)))
  · exact h b (uses_of_mem_expression hparse (mem_allCells_mono hargs hb))

/-- Every cell has its old outcome, if the trail is a chain of cells that depend on it. -/
theorem outcome_withValue (hcomputes : s.Computes a text) (hvalue : s.Evaluates (.cell a) x) :
    ∀ (trail : List Address) (b : Address), (∀ t ∈ trail, TransGen s.Depends t b) →
      (s.withValue a x).outcome trail b = s.outcome trail b := by
  refine trail_induction (s := s) fun trail ih b htrail => ?_
  have hentry := entry_withValue (x := x) hcomputes.contains b
  by_cases hb : b = a
  · -- The replaced cell is on no cycle, so nothing on the trail is within its reach.
    rw [hb] at htrail
    have hreach : ∀ t ∈ trail, ¬ ReflTransGen s.Depends a t := fun t ht hpath =>
      not_dependsOnItself_of_evaluates hvalue (TransGen.trans_right hpath (htrail t ht))
    have ha : a ∉ trail := fun hmem => hreach a hmem .refl
    rw [if_pos hb] at hentry
    rw [hb] at hentry ⊢
    rw [outcome_of_evaluates trail a x hreach hvalue]
    cases x with
    | none => exact outcome_of_isEmpty ha (isEmpty_iff_entry.2 hentry)
    | some z =>
        have hliteral := literal_iff_entry.2 (congrArg Prod.fst hentry)
        exact outcome_of_value? ha hliteral.1 hliteral.2
  · rw [if_neg hb] at hentry
    by_cases hmem : b ∈ trail
    · rw [outcome_of_mem hmem, outcome_of_mem hmem]
    · rcases s.cell_cases b with hempty | ⟨z, hliteral⟩ | ⟨text', hcomputes'⟩
      · rw [outcome_of_isEmpty hmem hempty, outcome_of_isEmpty hmem]
        rw [isEmpty_iff_entry, hentry, ← isEmpty_iff_entry]
        exact hempty
      · have hliteral' := hliteral
        rw [literal_iff_entry, ← hentry, ← literal_iff_entry] at hliteral'
        rw [outcome_of_value? hmem hliteral.1 hliteral.2,
          outcome_of_value? hmem hliteral'.1 hliteral'.2]
      · have hcomputes'' := hcomputes'
        rw [computes_iff_entry, ← hentry, ← computes_iff_entry] at hcomputes''
        rw [outcome_of_computes hmem hcomputes', outcome_of_computes hmem hcomputes'']
        refine outcomeWith_eq_of_uses (cellsOf_withValue s a x) fun c huses => ?_
        exact ih b text' hmem hcomputes' c (chain_cons htrail ⟨text', hcomputes', huses⟩)

/-- In any snapshot, let a cell be computed by a formula: it lies within the bounds, it has no number
    of its own, and the formula is stored under its address. If the formula has a value there, putting
    this value in the place of the formula changes the outcome of no formula anywhere, be it a value
    or an error. In the snapshot of a table that fits the grid these are all cells with a stored
    formula. In a larger one the written forms of two addresses may coincide, and a formula may be
    stored for a cell that has a number. -/
theorem evaluate_withValue :
    (∀ (s : Snapshot) (a : Address) (formula : String) (x : Option Float),
      s.Computes a formula → (s.evaluate formula a ∅).1 = .ok x →
      ∀ (text : String) (b : Address),
        ((s.withValue a x).evaluate text b ∅).1 = (s.evaluate text b ∅).1) ∧
    (∀ (v : View), v.Fits → ∀ (a : Address) (formula : String),
      v.snapshot.formula? a = some formula → v.snapshot.Computes a formula) := by
  constructor
  · intro s a formula x hcomputes hx text b
    -- What the evaluation answers is the value of the cell, which the snapshot determines.
    have hvalue : s.Evaluates (.cell a) x :=
      evaluates_of_means hcomputes ((evaluate_eq_ok_iff sound_empty).1 hx).2
    rw [evaluate_eq sound_empty, evaluate_eq sound_empty]
    refine outcomeWith_eq_of_uses (cellsOf_withValue s a x) fun c _ => ?_
    exact outcome_withValue hcomputes hvalue [] c (List.forall_mem_nil _)
  · intro v hfits a formula h
    exact (View.computes_snapshot_iff hfits).2 ((View.formula?_snapshot_iff hfits).1 h)

-- `A1` refers to the number in `B1` and is replaced by it; `C1` refers to itself.
theorem evaluate_withValue_beside_cycle :
    let v : View := ⟨[⟨false, [⟨some "=B1", ""⟩, ⟨none, "5"⟩, ⟨some "=C1", ""⟩]⟩]⟩
    let a : Address := ⟨0, 0, by decide, by decide⟩
    let s : Snapshot := v.snapshot.withValue a (some (Decimal.toFloat ['5'] []))
    v.snapshot.Computes a "=B1" ∧
      (v.snapshot.evaluate "=B1" a ∅).1 = .ok (some (Decimal.toFloat ['5'] [])) ∧
      ∀ text b, (s.evaluate text b ∅).1 = (v.snapshot.evaluate text b ∅).1 := by
  intro v a s
  let b : Address := ⟨1, 0, by decide, by decide⟩
  have hfits : v.Fits := ⟨by decide, by decide⟩
  have hcomputes : v.snapshot.Computes a "=B1" :=
    evaluate_withValue.2 v hfits a "=B1"
      ((View.formula?_snapshot_iff hfits).2 ⟨⟨some "=B1", ""⟩, rfl, by cbv⟩)
  have hliteral : v.snapshot.value? b = some (Decimal.toFloat ['5'] []) := by
    rw [View.value?_snapshot]
    rfl
  have hfinite : IsFinite (some (Decimal.toFloat ['5'] [])) := by
    intro z hz
    cases hz
    decide
  have hparse : Formula.parse "=B1" = .ok ⟨[.cell b]⟩ := by cbv
  -- The value is that of the cell beside it; the cycle on its other side is not reached.
  have hvalue : (v.snapshot.evaluate "=B1" a ∅).1 = .ok (some (Decimal.toFloat ['5'] [])) := by
    rw [evaluate_eq_ok_iff sound_empty]
    refine ⟨?_, _, _, hparse, .ofProduct (.ofOperand (.cell b)), .literal (by decide) hliteral,
      hfinite⟩
    rintro ⟨f, hf, hmem⟩
    rw [hparse, Except.ok.injEq] at hf
    rw [← hf, List.mem_singleton, Token.cell.injEq] at hmem
    exact absurd hmem (by decide)
  exact ⟨hcomputes, hvalue, evaluate_withValue.1 _ a "=B1" _ hcomputes hvalue⟩

end Snapshot

end Worksheet
