import Worksheet.Proofs.Evaluation.Agreement
import Worksheet.Proofs.Snapshot.Gap

/-!
# Formulas keep their values

Putting blank rows or columns into a snapshot changes no value, if the references in all formulas
move along and none is pushed out of the grid. The snapshot before and the one after simulate each
other: what the rules derive in one they derive in the other, with moved references. The check that
a formula does not name its own cell comes to the same too, as no two cells move to one place.

## Theorems

* `Snapshot.Simulates.evaluate`: Evaluation along a simulation.
* `Snapshot.simulates_withGap`, `Snapshot.withGap_simulates`: The two simulations.
* `Snapshot.evaluate_withGap`: Blank rows and columns change no value.
-/

namespace Worksheet

open Grammar

namespace Snapshot

section Simulation

variable {s s' : Snapshot} {C : Address → Address → Prop} {R : Range → Range → Prop}
  {text text' : String} {a b : Address} {x : Option Float}

/-- What evaluation finds in the first snapshot it finds in the second, if both fit the grid. -/
theorem Simulates.evaluate (h : s.Simulates s' C R) (hfits : s.Fits) (hfits' : s'.Fits)
    (hcorresponds : Corresponds C R text text') (hcell : ∀ c, C c b → c = a)
    (hx : (s.evaluate text a ∅).1 = .ok x) : (s'.evaluate text' b ∅).1 = .ok x := by
  rw [evaluate_eq_ok_iff sound_empty, ← hfits.meansOver_cells_iff] at hx
  rw [evaluate_eq_ok_iff sound_empty, ← hfits'.meansOver_cells_iff]
  refine ⟨?_, h.means hcorresponds hx.2⟩
  rintro ⟨f', hparse', hmem⟩
  -- If the second formula names its own cell, so does the first.
  rcases hx.2 with ⟨f, e, hparse, hderives, _⟩
  rcases hcorresponds f e hparse hderives with ⟨f'', hparse'', hrelated⟩
  rw [hparse', Except.ok.injEq] at hparse''
  rw [← hparse''] at hrelated
  rcases exists_left_of_forall₂ hrelated hmem with ⟨t, ht, hnamed⟩
  rcases exists_argument_of_related (x := .cell b) hnamed.flip with ⟨y, rfl, hy⟩
  cases hy with
  | @cell _ c hc =>
      rw [hcell c hc] at ht
      exact hx.1 ⟨f, hparse, ht⟩

end Simulation

theorem corresponds_shiftText {sh : Shift} {text : String} (h : sh.Keeps text.toList) :
    Corresponds sh.MovesCell sh.MovesRange text (sh.shiftText text) :=
  fun _ _ hparse hderives => Shift.exists_parse_shiftText h hparse hderives

theorem corresponds_of_shiftText {sh : Shift} {text : String} (h : sh.Keeps text.toList) :
    Corresponds (flip sh.MovesCell) (flip sh.MovesRange) (sh.shiftText text) text := by
  intro f e hparse hderives
  rcases Shift.exists_parse_of_shiftText h hparse hderives with ⟨f', hparse', hrelated⟩
  exact ⟨f', hparse', hrelated.flip.imp fun _ _ htoken => htoken.flip⟩

variable {s : Snapshot} {g : Gap} {a b : Address} {text : String}

/-- No stored formula has a reference that the gap pushes out of the grid. -/
def KeepsStored (s : Snapshot) (sh : Shift) : Prop :=
  ∀ ref text : String, s.formulas[ref]? = some text → sh.Keeps text.toList

theorem isEmpty_withGap_iff (h : g.index ≤ s.extent g.axis) (hkeyed : s.IsKeyed)
    (hmove : g.shift.move a = some b) : (s.withGap g).IsEmpty b ↔ s.IsEmpty a := by
  rw [← isOccupied_eq_false_iff, ← isOccupied_eq_false_iff, isOccupied_withGap h hkeyed hmove]

/-- The snapshot is simulated by the one with the gap. -/
theorem simulates_withGap (h : g.index ≤ s.extent g.axis)
    (hlimit : s.extent g.axis + g.count ≤ Column.limit) (hkeyed : s.IsKeyed)
    (hstored : s.KeepsStored g.shift) :
    s.Simulates (s.withGap g) g.shift.MovesCell g.shift.MovesRange where
  empty hmove hempty := (isEmpty_withGap_iff h hkeyed hmove).2 hempty
  literal hmove hcontains hvalue := by
    rw [contains_withGap h hmove, value?_withGap h hmove]
    exact ⟨hcontains, hvalue⟩
  formula hmove hcomputes := by
    refine ⟨_, ⟨?_, ?_, ?_⟩, corresponds_shiftText (hstored _ _ hcomputes.formula?)⟩
    · rw [contains_withGap h hmove]
      exact hcomputes.contains
    · rw [value?_withGap h hmove]
      exact hcomputes.value?
    · exact (formula?_withGap hkeyed).2 ⟨_, _, hcomputes.formula?, hmove, rfl⟩
  range hrange := forall₂_occupied_withGap h hlimit hkeyed hrange

/-- The snapshot with the gap is simulated by the one without. -/
theorem withGap_simulates (h : g.index ≤ s.extent g.axis)
    (hlimit : s.extent g.axis + g.count ≤ Column.limit) (hkeyed : s.IsKeyed)
    (hstored : s.KeepsStored g.shift) :
    (s.withGap g).Simulates s (flip g.shift.MovesCell) (flip g.shift.MovesRange) where
  empty hmove hempty := (isEmpty_withGap_iff h hkeyed hmove).1 hempty
  literal hmove hcontains hvalue := by
    rw [← contains_withGap h hmove, ← value?_withGap h hmove]
    exact ⟨hcontains, hvalue⟩
  formula {b a text} hmove hcomputes := by
    -- A formula behind the gap was moved there from somewhere, which can only be this cell.
    rcases (formula?_withGap hkeyed).1 hcomputes.formula? with ⟨a', old, hold, hmove', rfl⟩
    rw [Gap.move_injective hmove' hmove] at hold
    refine ⟨old, ⟨?_, ?_, hold⟩, corresponds_of_shiftText (hstored _ _ hold)⟩
    · rw [← contains_withGap h hmove]
      exact hcomputes.contains
    · rw [← value?_withGap h hmove]
      exact hcomputes.value?
  range hrange := (forall₂_occupied_withGap h hlimit hkeyed hrange).flip

/-- A snapshot that fits the grid still does with a gap for which there is room. -/
theorem Fits.withGap (hfits : s.Fits) (hlimit : s.extent g.axis + g.count ≤ Column.limit) :
    (s.withGap g).Fits := by
  have hextent : ∀ axis, s.extent axis ≤ Column.limit → (s.withGap g).extent axis ≤ Column.limit := by
    intro axis hold
    rw [extent_withGap]
    by_cases haxis : g.axis = axis
    · rw [if_pos haxis, ← haxis]
      exact hlimit
    · rw [if_neg haxis]
      exact hold
  exact ⟨hextent .rows hfits.height_le, hextent .columns hfits.width_le⟩

/-- Blank rows or columns put into the snapshot of a table that fits the grid, with all references
    moved along, change the value of no formula. -/
theorem evaluate_withGap (v : View) (hfits : v.snapshot.Fits) (g : Gap)
    (h : g.index ≤ v.snapshot.extent g.axis)
    (hlimit : v.snapshot.extent g.axis + g.count < Column.limit)
    (hstored : v.snapshot.KeepsStored g.shift) (text : String) (hkeeps : g.shift.Keeps text.toList)
    (a b : Address) (hmove : g.shift.move a = some b) (x : Option Float) :
    (v.snapshot.evaluate text a ∅).1 = .ok x ↔
      ((v.snapshot.withGap g).evaluate (g.shift.shiftText text) b ∅).1 = .ok x := by
  have hroom := Nat.le_of_lt hlimit
  have hgap := hfits.withGap hroom
  have hkeyed := v.isKeyed_snapshot
  constructor
  -- The formula is well-formed in both, and names its own cell in both or in neither.
  · refine (simulates_withGap h hroom hkeyed hstored).evaluate hfits hgap
      (corresponds_shiftText hkeeps) ?_
    exact fun c hc => Gap.move_injective hc hmove
  · refine (withGap_simulates h hroom hkeyed hstored).evaluate hgap hfits
      (corresponds_of_shiftText hkeeps) ?_
    intro c hc
    have hsame : some c = some b := hc.symm.trans hmove
    exact Option.some.inj hsame

-- `A1` holds the formula `=B1`, with nothing to the right of it, and moves down to `A2`.
theorem evaluate_withGap_above_reference :
    (((View.snapshot ⟨[⟨false, [⟨some "=B1", ""⟩]⟩]⟩).withGap ⟨.rows, 0, 1⟩).evaluate "=A2"
      ⟨2, 1, by decide, by decide⟩ ∅).1 = .ok none := by
  let v : View := ⟨[⟨false, [⟨some "=B1", ""⟩]⟩]⟩
  let g : Gap := ⟨.rows, 0, 1⟩
  let a : Address := ⟨0, 0, by decide, by decide⟩
  let a' : Address := ⟨0, 1, by decide, by decide⟩
  let b : Address := ⟨1, 0, by decide, by decide⟩
  let b' : Address := ⟨1, 1, by decide, by decide⟩
  let c : Address := ⟨2, 0, by decide, by decide⟩
  have ha : "=A1".toList = '=' :: a.chars := by cbv
  have hb : "=B1".toList = '=' :: b.chars := by cbv
  have hmove : g.shift.move a = some a' := Gap.move_eq_some_iff.2 ⟨rfl, rfl⟩
  have hmove' : g.shift.move b = some b' := Gap.move_eq_some_iff.2 ⟨rfl, rfl⟩
  -- The text is rewritten by the rules for a reference alone, not by running the rewriter.
  have hshifted : g.shift.shiftText "=A1" = "=A2" := by
    rw [Shift.shiftText, ha, Shift.shiftChars_reference hmove]
    cbv
  have hformulas : v.formulas = [("A1", "=B1")] := by cbv
  have hstored : v.snapshot.KeepsStored g.shift := by
    intro ref text hentry
    have hmem : (ref, text) ∈ v.formulas := mem_of_getElem?_ofList hentry
    rw [hformulas, List.mem_singleton, Prod.mk.injEq] at hmem
    rw [hmem.2, hb]
    exact Shift.keeps_reference hmove'
  have hparse : Formula.parse "=A1" = .ok ⟨[.cell a]⟩ := by cbv
  have hcomputes : v.snapshot.Computes a "=B1" :=
    (View.computes_snapshot_iff ⟨by decide, by decide⟩).2 ⟨⟨some "=B1", ""⟩, rfl, by cbv⟩
  have hvalue : v.snapshot.Evaluates (.cell a) none :=
    .formula hcomputes (by cbv) (.ofProduct (.ofOperand (.cell b)))
      (.empty fun h => absurd h (by decide)) isFinite_none
  rw [← hshifted]
  refine (evaluate_withGap v ⟨by decide, by decide⟩ g (by decide) (by decide) hstored "=A1" ?_ c _
    ?_ none).1 ?_
  · rw [ha]
    exact Shift.keeps_reference hmove
  · exact Gap.move_eq_some_iff.2 ⟨rfl, rfl⟩
  · rw [evaluate_eq_ok_iff sound_empty]
    refine ⟨?_, _, _, hparse, .ofProduct (.ofOperand (.cell a)), hvalue, isFinite_none⟩
    rintro ⟨f, hf, hmem⟩
    rw [hparse] at hf
    cases hf
    rw [List.mem_singleton, Token.cell.injEq] at hmem
    exact absurd hmem (by decide)

end Snapshot

end Worksheet
