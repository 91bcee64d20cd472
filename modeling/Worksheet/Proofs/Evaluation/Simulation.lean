import Worksheet.Proofs.Evaluation.Meaning
import Worksheet.Proofs.Formula.Congruence

/-!
# Simulation of snapshots

One snapshot simulates another along a correspondence of cells and ranges if corresponding cells
hold the same, formulas again corresponding in their references, and corresponding ranges have
corresponding occupied cells in the same order. The empty cells of two such ranges need not
correspond, nor be equally many. What has a value in the first snapshot then has it in the second.

Functions are applied to all cells of their ranges here, as far as the ranges go. A walk over a
range would end at the edge of each snapshot, and the edges are in different places.

## Main definitions

* `Snapshot.isOccupied`, `Snapshot.occupied`: Cells with a number or a formula.
* `Snapshot.Corresponds`: The text of a formula that another corresponds to.
* `Snapshot.Simulates`: A simulation.

## Theorems

* `Snapshot.filterMap_occupied`: Empty cells contribute nothing.
* `Snapshot.Simulates.evaluates`: Derivations are carried over.
* `Snapshot.Simulates.means`: So are the values of formulas.
-/

namespace Worksheet

open Grammar

-- Related lists contribute alike, if related elements do.
theorem filterMap_eq_of_forall₂ {α β γ : Type} {Q : α → β → Prop} {f : α → Option γ}
    {g : β → Option γ} {as : List α} {bs : List β} (h : List.Forall₂ Q as bs)
    (hfg : ∀ a ∈ as, ∀ b ∈ bs, Q a b → f a = g b) : as.filterMap f = bs.filterMap g := by
  induction h with
  | nil => rfl
  | @cons a b as bs hab _ ih =>
      have hrest := ih fun a ha b hb =>
        hfg a (List.mem_cons_of_mem _ ha) b (List.mem_cons_of_mem _ hb)
      rw [List.filterMap_cons, List.filterMap_cons, hrest,
        hfg a List.mem_cons_self b List.mem_cons_self hab]

theorem exists_left_of_forall₂ {α β : Type} {Q : α → β → Prop} {as : List α} {bs : List β}
    (h : List.Forall₂ Q as bs) {b : β} (hb : b ∈ bs) : ∃ a ∈ as, Q a b := by
  induction h with
  | nil => cases hb
  | cons hab _ ih =>
      rcases List.mem_cons.1 hb with rfl | hb
      · exact ⟨_, List.mem_cons_self, hab⟩
      · rcases ih hb with ⟨a, ha, hQ⟩
        exact ⟨a, List.mem_cons_of_mem _ ha, hQ⟩

namespace Snapshot

/-- Whether a cell lies in the snapshot and has a number or a formula. -/
def isOccupied (s : Snapshot) (a : Address) : Bool :=
  s.contains a && ((s.value? a).isSome || (s.formula? a).isSome)

/-- The occupied cells of a range, row by row. -/
def occupied (s : Snapshot) (r : Range) : List Address := r.cells.filter s.isOccupied

theorem isOccupied_eq_false_iff {s : Snapshot} {a : Address} :
    s.isOccupied a = false ↔ s.IsEmpty a := by
  unfold isOccupied IsEmpty
  cases s.contains a with
  | false => simp only [Bool.false_and, Bool.false_eq_true, false_implies]
  | true =>
      simp only [Bool.true_and, Bool.or_eq_false_iff, Option.isSome_eq_false_iff,
        Option.isNone_iff_eq_none, forall_const]

-- The cells of a range that hold anything are all that a function sees of it.
theorem filterMap_occupied {s : Snapshot} {value : Address → Option Float} {r : Range}
    (h : ∀ a ∈ r.cells, s.IsEmpty a → value a = none) :
    r.cells.filterMap value = (s.occupied r).filterMap value := by
  unfold occupied
  rw [List.filterMap_filter]
  refine List.filterMap_congr fun a ha => ?_
  -- Cells that are not occupied have no value to lose.
  by_cases hoccupied : s.isOccupied a = true
  · rw [if_pos hoccupied]
  · rw [if_neg hoccupied]
    exact h a ha (isOccupied_eq_false_iff.1 (Bool.eq_false_iff.2 hoccupied))

/-- If the text of a formula is well-formed, so is the other, with corresponding tokens. -/
def Corresponds (C : Address → Address → Prop) (R : Range → Range → Prop)
    (text text' : String) : Prop :=
  ∀ f e, Formula.parse text = .ok f → Derives .sum f.tokens e →
    ∃ f', Formula.parse text' = .ok f' ∧ List.Forall₂ (Token.Related C R) f.tokens f'.tokens

/-- What one snapshot has in a cell or a range, the other has in those that correspond. -/
structure Simulates (s s' : Snapshot) (C : Address → Address → Prop) (R : Range → Range → Prop) :
    Prop where
  /-- Empty cells are empty. -/
  empty : ∀ {a b : Address}, C a b → s.IsEmpty a → s'.IsEmpty b
  /-- Numbers are the same. -/
  literal : ∀ {a b : Address} {x : Float}, C a b → s.contains a = true → s.value? a = some x →
    s'.contains b = true ∧ s'.value? b = some x
  /-- Formulas correspond. -/
  formula : ∀ {a b : Address} {text : String}, C a b → s.Computes a text →
    ∃ text', s'.Computes b text' ∧ Corresponds C R text text'
  /-- The occupied cells of a range correspond in their order. -/
  range : ∀ {r t : Range}, R r t → List.Forall₂ C (s.occupied r) (s'.occupied t)

namespace Simulates

variable {s s' : Snapshot} {C : Address → Address → Prop} {R : Range → Range → Prop}
  {args args' : List Argument}

-- Every cell of the second list of arguments is empty or corresponds to one of the first.
theorem exists_cell (h : s.Simulates s' C R)
    (hargs : List.Forall₂ (Argument.Related C R) args args') {b : Address}
    (hb : b ∈ Argument.allCells Range.cells args') :
    s'.IsEmpty b ∨ ∃ a ∈ Argument.allCells Range.cells args, C a b := by
  rcases List.mem_flatMap.1 hb with ⟨y, hy, hb⟩
  rcases exists_left_of_forall₂ hargs hy with ⟨x, hx, hxy⟩
  cases hxy with
  | @cell a b' hab =>
      rw [Argument.cells, List.mem_singleton] at hb
      rw [hb]
      exact Or.inr ⟨a, List.mem_flatMap.2 ⟨_, hx, List.mem_singleton_self a⟩, hab⟩
  | @range r t hrt =>
      -- The occupied cells of related ranges correspond, the others are empty.
      by_cases hempty : s'.IsEmpty b
      · exact Or.inl hempty
      · have hoccupied : b ∈ s'.occupied t := by
          refine List.mem_filter.2 ⟨hb, ?_⟩
          rw [← Bool.not_eq_false, isOccupied_eq_false_iff]
          exact hempty
        rcases exists_left_of_forall₂ (h.range hrt) hoccupied with ⟨a, ha, hab⟩
        exact Or.inr ⟨a, List.mem_flatMap.2 ⟨_, hx, (List.mem_filter.1 ha).1⟩, hab⟩

-- The two lists of arguments contribute the same numbers.
theorem filterMap_eq (h : s.Simulates s' C R)
    (hargs : List.Forall₂ (Argument.Related C R) args args')
    {value value' : Address → Option Float}
    (hvalue : ∀ a ∈ Argument.allCells Range.cells args, s.EvaluatesOver Range.cells (.cell a) (value a))
    (hvalue' : ∀ b ∈ Argument.allCells Range.cells args', s'.EvaluatesOver Range.cells (.cell b) (value' b))
    (hsame : ∀ a ∈ Argument.allCells Range.cells args,
      ∀ b ∈ Argument.allCells Range.cells args', C a b → value a = value' b) :
    (Argument.allCells Range.cells args).filterMap value =
      (Argument.allCells Range.cells args').filterMap value' := by
  induction hargs with
  | nil => rfl
  | @cons x y xs ys hxy _ ih =>
      unfold Argument.allCells at hvalue hvalue' hsame ih ⊢
      simp only [List.flatMap_cons] at hvalue hvalue' hsame ⊢
      have hrest := ih (fun a ha => hvalue a (List.mem_append_right _ ha))
        (fun b hb => hvalue' b (List.mem_append_right _ hb))
        (fun a ha b hb => hsame a (List.mem_append_right _ ha) b (List.mem_append_right _ hb))
      rw [List.filterMap_append, List.filterMap_append, hrest]
      congr 1
      cases hxy with
      | @cell a b hab =>
          have hhead := hsame a (List.mem_append_left _ (List.mem_singleton_self a)) b
            (List.mem_append_left _ (List.mem_singleton_self b)) hab
          simp only [Argument.cells, List.filterMap_cons, List.filterMap_nil, hhead]
      | @range r t hrt =>
          -- Only occupied cells contribute, and these correspond.
          have hleft : ∀ a ∈ r.cells, s.IsEmpty a → value a = none := fun a ha =>
            value?_eq_none_of_evaluates (hvalue a (List.mem_append_left _ ha))
          have hright : ∀ b ∈ t.cells, s'.IsEmpty b → value' b = none := fun b hb =>
            value?_eq_none_of_evaluates (hvalue' b (List.mem_append_left _ hb))
          rw [Argument.cells, Argument.cells, filterMap_occupied hleft, filterMap_occupied hright]
          refine filterMap_eq_of_forall₂ (h.range hrt) fun a ha b hb hab => ?_
          exact hsame a (List.mem_append_left _ (List.mem_filter.1 ha).1) b
            (List.mem_append_left _ (List.mem_filter.1 hb).1) hab

/-- What has a value in the first snapshot has it in the second. -/
theorem evaluates (h : s.Simulates s' C R) {e : Expression} {x : Option Float}
    (hx : s.EvaluatesOver Range.cells e x) :
    ∀ {e' : Expression}, e.Related C R e' → s'.EvaluatesOver Range.cells e' x := by
  -- By induction on the derivation, for every related tree. A cell with a formula is where the
  -- simulation is needed: its formula corresponds to another, which forms a related tree again.
  induction hx with
  | number x =>
      intro e' he
      cases he
      exact .number x
  | empty hempty =>
      intro e' he
      cases he with
      | cell hab => exact .empty (h.empty hab hempty)
  | literal hcontains hvalue =>
      intro e' he
      cases he with
      | cell hab =>
          rcases h.literal hab hcontains hvalue with ⟨hcontains', hvalue'⟩
          exact .literal hcontains' hvalue'
  | formula hcomputes hparse hderives _ hfinite ih =>
      intro e' he
      cases he with
      | cell hab =>
          rcases h.formula hab hcomputes with ⟨text', hcomputes', hcorresponds⟩
          rcases hcorresponds _ _ hparse hderives with ⟨f', hparse', hrelated⟩
          rcases exists_derives_of_related hderives hrelated with ⟨e', hderives', he⟩
          exact .formula hcomputes' hparse' hderives' (ih he) hfinite
  | negation _ ih =>
      intro e' he
      cases he with
      | negation hoperand => exact .negation (ih hoperand)
  | binary _ _ hdivisor ihl ihr =>
      intro e' he
      cases he with
      | binary op hleft hright => exact .binary (ihl hleft) (ihr hright) hdivisor
  | @call f args value hcells hneeds ih =>
      intro e' he
      cases he with
      | @call _ _ args' hargs =>
          -- The cells of the second arguments have values too, the same ones where they count.
          have hexists : ∀ b ∈ Argument.allCells Range.cells args',
              ∃ y, s'.EvaluatesOver Range.cells (.cell b) y := by
            intro b hb
            rcases h.exists_cell hargs hb with hempty | ⟨a, ha, hab⟩
            · exact ⟨none, .empty hempty⟩
            · exact ⟨value a, ih a ha (.cell hab)⟩
          choose! value' hvalue' using hexists
          have hsame := h.filterMap_eq hargs hcells hvalue' fun a ha b hb hab =>
            evaluates_unique (ih a ha (.cell hab)) (hvalue' b hb)
          rw [hsame] at hneeds ⊢
          exact .call value' hvalue' hneeds

theorem means (h : s.Simulates s' C R) {text text' : String} {x : Option Float}
    (hcorresponds : Corresponds C R text text') (hmeans : s.MeansOver Range.cells text x) :
    s'.MeansOver Range.cells text' x := by
  rcases hmeans with ⟨f, e, hparse, hderives, hvalue, hfinite⟩
  rcases hcorresponds f e hparse hderives with ⟨f', hparse', hrelated⟩
  rcases exists_derives_of_related hderives hrelated with ⟨e', hderives', he⟩
  exact ⟨f', e', hparse', hderives', h.evaluates hvalue he, hfinite⟩

end Simulates

end Snapshot

end Worksheet
