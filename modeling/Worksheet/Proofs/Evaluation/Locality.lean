import Worksheet.Proofs.Evaluation.Agreement
import Worksheet.Proofs.Snapshot.Extraction

/-!
# What a result depends on

A formula reads the cells it names, by themselves or in ranges, and through the formulas of those
all cells that these name in turn. Its outcome, errors included, is the same in any two snapshots
that have the same in all of these cells. Cells outside a snapshot have nothing, wherever they are,
so the snapshots may differ in size.

An evaluation leaves out the cells of a range that a walk does not come to, so in two snapshots it
resolves different lists of cells. In snapshots that fit the grid the cells left out lie outside and
would contribute nothing, which is why both lists may be taken to be the whole range.

## Main definitions

* `Snapshot.entry`: What a snapshot has in a cell, inside or outside.
* `Formula.Mentions`: The text of a formula names a cell, by itself or in a range.
* `Snapshot.Reads`, `Snapshot.Touches`: One step between cells, and the cells a formula leads to.
* `Snapshot.padded`: A snapshot with blank rows and columns at its end.

## Theorems

* `Expression.outcome_congr`: The outcome of an expression rests on its cells and arguments.
* `Snapshot.gather_cellsOf`: Cells that no walk comes to may be left out.
* `Snapshot.outcome_eq_of_entries`: The outcome of a cell rests on the cells it leads to.
* `Snapshot.evaluate_depends_on_touched`: What the outcome of a formula depends on.
-/

namespace Worksheet

open Relation Grammar

-- Cells that are left out contribute nothing, if they have no value and do not fail.
theorem gather_filter {cell : Address → Outcome} {p : Address → Bool} {as : List Address}
    (h : ∀ a ∈ as, p a = false → cell a = .ok none) :
    gather cell (as.filter p) = gather cell as := by
  induction as with
  | nil => rfl
  | cons a rest ih =>
      have hrest := ih fun b hb => h b (List.mem_cons_of_mem _ hb)
      by_cases hp : p a = true
      · rw [List.filter_cons_of_pos hp, gather, gather, hrest]
      · rw [List.filter_cons_of_neg hp, hrest, gather,
          h a List.mem_cons_self (Bool.eq_false_iff.2 hp)]
        cases gather cell rest with
        | error e => rfl
        | ok values => rfl

/-- Gathering a list of cells sees nothing but the cells of the list. -/
theorem gather_congr {cell cell' : Address → Outcome} {as : List Address}
    (h : ∀ a ∈ as, cell a = cell' a) : gather cell as = gather cell' as := by
  induction as with
  | nil => rfl
  | cons a rest ih =>
      rw [gather, gather, h a List.mem_cons_self, ih fun b hb => h b (List.mem_cons_of_mem _ hb)]

/-- The outcome of an expression is the same over cells with the same outcomes, as long as any of
    its arguments together have the same values. -/
theorem Expression.outcome_congr {cellsOf cellsOf' : Range → List Address}
    {cell cell' : Address → Outcome} {e : Expression}
    (hcell : ∀ a, .cell a ∈ e.arguments → cell a = cell' a)
    (hgather : ∀ args, args ⊆ e.arguments →
      gather cell (Argument.allCells cellsOf args) =
        gather cell' (Argument.allCells cellsOf' args)) :
    e.outcome cellsOf cell = e.outcome cellsOf' cell' := by
  induction e with
  | number x => rfl
  | cell a => exact hcell a (List.mem_singleton_self _)
  | negation operand ih => rw [outcome, outcome, ih hcell hgather]
  | binary op left right ihl ihr =>
      -- The arguments of each side are among those of the whole.
      rw [outcome, outcome,
        ihl (fun a ha => hcell a (List.mem_append_left _ ha)) fun args hargs =>
          hgather args (List.subset_append_of_subset_left _ hargs),
        ihr (fun a ha => hcell a (List.mem_append_right _ ha)) fun args hargs =>
          hgather args (List.subset_append_of_subset_right _ hargs)]
  | call f args => rw [outcome, outcome, hgather args (List.Subset.refl _)]
  | missing => rfl
  | broken e ih => rw [outcome, outcome, ih hcell hgather]
  | brokenCall args => rw [outcome, outcome, hgather args (List.Subset.refl _)]

namespace Formula

/-- The text of a formula names a cell, by itself or in a range. -/
def Mentions (text : String) (b : Address) : Prop :=
  ∃ f, parse text = .ok f ∧
    (Token.cell b ∈ f.tokens ∨ ∃ r, Token.range r ∈ f.tokens ∧ r.contains b = true)

/-- A text mentions the cells of its arguments, ranges written out in full. -/
theorem mentions_iff_mem_allCells {text : String} {f : Formula} {b : Address}
    (hparse : parse text = .ok f) :
    Mentions text b ↔ b ∈ Argument.allCells Range.cells f.arguments := by
  rw [Snapshot.mem_allCells_iff, mem_arguments_iff]
  simp only [mem_arguments_iff, Range.mem_cells_iff]
  constructor
  · rintro ⟨f', hparse', hnamed⟩
    rw [hparse, Except.ok.injEq] at hparse'
    rw [hparse']
    exact hnamed
  · intro hnamed
    exact ⟨f, hparse, hnamed⟩

/-- A formula of constants mentions no cell. -/
theorem not_mentions_of_constant {text : String} {f : Formula} (hparse : parse text = .ok f)
    (hkind : f.kind = .constant) (b : Address) : ¬ Mentions text b := by
  -- The kind is settled by the tokens: no function, and no reference.
  have hempty : f.cells = [] ∧ f.ranges = [] := by
    unfold kind at hkind
    by_cases hfunction : f.tokens.any isFunction = true
    · rw [if_pos hfunction] at hkind
      cases hkind
    · rw [if_neg hfunction] at hkind
      by_cases hnone : (f.cells.isEmpty && f.ranges.isEmpty) = true
      · rw [Bool.and_eq_true, List.isEmpty_iff, List.isEmpty_iff] at hnone
        exact hnone
      · rw [if_neg hnone] at hkind
        cases hkind
  intro h
  rcases h with ⟨f', hparse', hnamed⟩
  rw [hparse, Except.ok.injEq] at hparse'
  rw [← hparse'] at hnamed
  rcases hnamed with hcell | ⟨r, hr, _⟩
  · rw [← mem_cells_iff, hempty.1] at hcell
    exact List.not_mem_nil hcell
  · rw [← mem_ranges_iff, hempty.2] at hr
    exact List.not_mem_nil hr

end Formula

namespace Snapshot

/-- The number and the formula that a snapshot has in a cell; outside it has neither. -/
def entry (s : Snapshot) (a : Address) : Option Float × Option String :=
  if s.contains a then (s.value? a, s.formula? a) else (none, none)

/-- The formula of a cell names another one, inside the snapshot or outside. -/
def Reads (s : Snapshot) (a b : Address) : Prop :=
  ∃ text, s.Computes a text ∧ Formula.Mentions text b

/-- A formula leads to a cell: it names it, or a cell whose formula leads to it. -/
def Touches (s : Snapshot) (text : String) (b : Address) : Prop :=
  ∃ a, Formula.Mentions text a ∧ ReflTransGen s.Reads a b

variable {s t : Snapshot} {trail : List Address} {a b : Address} {text : String}

/-- A cell is empty exactly when its entry is. -/
theorem isEmpty_iff_entry : s.IsEmpty a ↔ s.entry a = (none, none) := by
  unfold IsEmpty entry
  by_cases hcontains : s.contains a = true
  · rw [if_pos hcontains, Prod.mk.injEq]
    exact forall_prop_of_true hcontains
  · rw [if_neg hcontains]
    simp only [hcontains, Bool.false_eq_true, false_implies]

/-- A cell holds a number exactly when its entry does. -/
theorem literal_iff_entry {x : Float} :
    s.contains a = true ∧ s.value? a = some x ↔ (s.entry a).1 = some x := by
  unfold entry
  by_cases hcontains : s.contains a = true
  · rw [if_pos hcontains]
    exact and_iff_right hcontains
  · rw [if_neg hcontains]
    simp only [hcontains, false_and, reduceCtorEq]

/-- A cell computes a text exactly when its entry has that text and no number. -/
theorem computes_iff_entry : s.Computes a text ↔ s.entry a = (none, some text) := by
  unfold entry
  constructor
  · intro h
    rw [if_pos h.contains, h.value?, h.formula?]
  · intro h
    by_cases hcontains : s.contains a = true
    · rw [if_pos hcontains, Prod.mk.injEq] at h
      exact ⟨hcontains, h.1, h.2⟩
    · rw [if_neg hcontains, Prod.mk.injEq] at h
      exact absurd h.2 (Option.some_ne_none text).symm

/-- A walk stops at the edges, so it meets only cells that the range has. -/
theorem mem_rangeCells_of_mem_cellsOf {args : List Argument}
    (h : b ∈ Argument.allCells s.cellsOf args) : b ∈ Argument.allCells Range.cells args := by
  rw [mem_allCells_iff] at h ⊢
  exact h.imp_right fun ⟨r, hr, hb⟩ => ⟨r, hr, (r.mem_cells_iff b).2 ((s.mem_cellsOf_iff r b).1 hb).1⟩

/-- Ending walks early changes nothing, if the cells that are left out have no value and do not
    fail. -/
theorem gather_cellsOf {cell : Address → Outcome} {args : List Argument}
    (h : ∀ b ∈ Argument.allCells Range.cells args, s.walked b = false → cell b = .ok none) :
    gather cell (Argument.allCells s.cellsOf args) =
      gather cell (Argument.allCells Range.cells args) := by
  have hsame : ∀ r, (s.cellsOf r).filter s.walked = r.cells.filter s.walked := by
    intro r
    rw [cellsOf_eq_filter, List.filter_filter]
    simp only [Bool.and_self]
  rw [← gather_filter fun b hb => h b (mem_rangeCells_of_mem_cellsOf hb), filter_allCells hsame,
    gather_filter h]

/-- The outcome of a text is settled by the outcome of what it parses to. -/
theorem outcomeWith_congr {cell cell' : Address → Outcome}
    (h : ∀ f, Formula.parse text = .ok f →
      f.expression.outcome s.cellsOf cell = f.expression.outcome t.cellsOf cell') :
    s.outcomeWith cell text a = t.outcomeWith cell' text a := by
  unfold outcomeWith
  cases hparse : Formula.parse text with
  | error cause => rfl
  | ok f =>
      dsimp only
      rw [h f hparse]

theorem mem_allCells_mono {cellsOf : Range → List Address} {args args' : List Argument}
    (hargs : args ⊆ args') (hb : b ∈ Argument.allCells cellsOf args) :
    b ∈ Argument.allCells cellsOf args' := by
  rw [mem_allCells_iff] at hb ⊢
  exact hb.imp (fun h => hargs h) fun ⟨r, hr, h⟩ => ⟨r, hargs hr, h⟩

-- A cell that an expression names is one that its text names.
theorem mentions_of_mem_expression {f : Formula} (hparse : Formula.parse text = .ok f)
    (hb : b ∈ Argument.allCells Range.cells f.expression.arguments) :
    Formula.Mentions text b := by
  rw [Formula.mentions_iff_mem_allCells hparse]
  refine mem_allCells_mono (fun arg harg => ?_) hb
  exact (f.mem_arguments_iff arg).2 (Expression.token_mem_of_mem_arguments harg)

/-- The outcome of a formula is the same in two snapshots if the cells it names have the same
    outcomes, and those that no walk visits in a snapshot have no value there. -/
theorem outcomeWith_eq_of_mentions {cell cell' : Address → Outcome}
    (hcell : ∀ b, Formula.Mentions text b → cell b = cell' b)
    (hs : ∀ b, Formula.Mentions text b → s.walked b = false → cell b = .ok none)
    (ht : ∀ b, Formula.Mentions text b → t.walked b = false → cell' b = .ok none) :
    s.outcomeWith cell text a = t.outcomeWith cell' text a := by
  refine outcomeWith_congr fun f hparse => Expression.outcome_congr ?_ ?_
  · intro b hb
    exact hcell b (mentions_of_mem_expression hparse (mem_allCells_iff.2 (Or.inl hb)))
  · intro args hargs
    have hmentions : ∀ b ∈ Argument.allCells Range.cells args, Formula.Mentions text b :=
      fun b hb => mentions_of_mem_expression hparse (mem_allCells_mono hargs hb)
    -- Cells outside a walk have no value, so both walks can be replaced by the whole range.
    calc gather cell (Argument.allCells s.cellsOf args)
        = gather cell (Argument.allCells Range.cells args) :=
          gather_cellsOf fun b hb => hs b (hmentions b hb)
      _ = gather cell' (Argument.allCells Range.cells args) :=
          gather_congr fun b hb => hcell b (hmentions b hb)
      _ = gather cell' (Argument.allCells t.cellsOf args) :=
          (gather_cellsOf fun b hb => ht b (hmentions b hb)).symm

/-- Outside the grid every entry is empty. -/
theorem entry_of_not_contains (h : s.contains a = false) : s.entry a = (none, none) := by
  unfold entry
  rw [h]
  rfl

/-- The outcome of a cell is the same in two snapshots that fit the grid and have the same in every
    cell it leads to. The cells on the trail have formulas, so a cell that is empty is not one of
    them. -/
theorem outcome_eq_of_entries (hs : s.Fits) (ht : t.Fits) : ∀ (trail : List Address) (a : Address),
    (∀ x ∈ trail, ¬ s.IsEmpty x) → (∀ b, ReflTransGen s.Reads a b → s.entry b = t.entry b) →
      s.outcome trail a = t.outcome trail a := by
  refine trail_induction (s := s) fun trail ih a htrail hentries => ?_
  have hsame : s.entry a = t.entry a := hentries a .refl
  by_cases ha : a ∈ trail
  · rw [outcome_of_mem ha, outcome_of_mem ha]
  · rcases s.cell_cases a with hempty | ⟨x, hliteral⟩ | ⟨text, hcomputes⟩
    · rw [outcome_of_isEmpty ha hempty, outcome_of_isEmpty ha]
      rw [isEmpty_iff_entry, ← hsame, ← isEmpty_iff_entry]
      exact hempty
    · have hliteral' : t.contains a = true ∧ t.value? a = some x := by
        rw [literal_iff_entry, ← hsame, ← literal_iff_entry]
        exact hliteral
      rw [outcome_of_value? ha hliteral.1 hliteral.2,
        outcome_of_value? ha hliteral'.1 hliteral'.2]
    · have hcomputes' : t.Computes a text := by
        rw [computes_iff_entry, ← hsame, ← computes_iff_entry]
        exact hcomputes
      have hreads : ∀ b, Formula.Mentions text b → s.Reads a b := fun b hb => ⟨text, hcomputes, hb⟩
      have hoccupied : ∀ x ∈ a :: trail, ¬ s.IsEmpty x := by
        intro x hx
        rcases List.mem_cons.1 hx with rfl | hx
        · exact hcomputes.not_isEmpty
        · exact htrail x hx
      -- A cell that is empty in one snapshot is empty in the other, and on no trail.
      have hnone : ∀ b, Formula.Mentions text b → s.IsEmpty b → b ∉ a :: trail ∧ t.IsEmpty b := by
        intro b hb hempty
        refine ⟨fun hmem => hoccupied b hmem hempty, ?_⟩
        rw [isEmpty_iff_entry, ← hentries b (.single (hreads b hb)), ← isEmpty_iff_entry]
        exact hempty
      rw [outcome_of_computes ha hcomputes, outcome_of_computes ha hcomputes']
      refine outcomeWith_eq_of_mentions (fun b hb => ?_) (fun b hb houtside => ?_)
        fun b hb houtside => ?_
      · exact ih a text ha hcomputes b hoccupied fun c hc =>
          hentries c (ReflTransGen.head (hreads b hb) hc)
      · rw [hs.walked_eq] at houtside
        have hempty : s.IsEmpty b := isEmpty_iff_entry.2 (entry_of_not_contains houtside)
        exact outcome_of_isEmpty (hnone b hb hempty).1 hempty
      · rw [ht.walked_eq] at houtside
        have hempty : s.IsEmpty b := by
          rw [isEmpty_iff_entry, hentries b (.single (hreads b hb))]
          exact entry_of_not_contains houtside
        exact outcome_of_isEmpty (hnone b hb hempty).1 (hnone b hb hempty).2

/-- Two snapshots with the same entries at everything a text touches give it the same outcome. -/
theorem evaluate_eq_of_entries (hs : s.Fits) (ht : t.Fits)
    (h : ∀ b, s.Touches text b → s.entry b = t.entry b) :
    (s.evaluate text a ∅).1 = (t.evaluate text a ∅).1 := by
  rw [evaluate_eq sound_empty, evaluate_eq sound_empty]
  have houtside : ∀ {u : Snapshot} {b : Address}, u.Fits → u.walked b = false →
      u.outcome [] b = .ok none := by
    intro u b hu hb
    rw [hu.walked_eq] at hb
    exact outcome_of_isEmpty List.not_mem_nil (isEmpty_iff_entry.2 (entry_of_not_contains hb))
  refine outcomeWith_eq_of_mentions (fun b hb => ?_) (fun b _ => houtside hs) fun b _ => houtside ht
  exact outcome_eq_of_entries hs ht [] b (List.forall_mem_nil _) fun c hc => h c ⟨b, hb, hc⟩

/-- A formula that names no cell has the same outcome in all snapshots, of any size. -/
theorem evaluate_eq_of_not_mentions (h : ∀ b, ¬ Formula.Mentions text b) :
    (s.evaluate text a ∅).1 = (t.evaluate text a ∅).1 := by
  rw [evaluate_eq sound_empty, evaluate_eq sound_empty]
  exact outcomeWith_eq_of_mentions (fun b hb => absurd hb (h b)) (fun b hb => absurd hb (h b))
    fun b hb => absurd hb (h b)

/-- The snapshot with so many blank rows below it and blank columns to the right of it. -/
def padded (s : Snapshot) (below right : Nat) : Snapshot where
  rows := s.rows.map (· ++ List.replicate right none) ++
    List.replicate below (List.replicate (s.width + right) none)
  width := s.width + right
  formulas := s.formulas
  length_eq := by
    intro row hrow
    rcases List.mem_append.1 hrow with hrow | hrow
    · rcases List.mem_map.1 hrow with ⟨given, hgiven, rfl⟩
      rw [List.length_append, List.length_replicate, s.length_eq given hgiven]
    · rw [List.eq_of_mem_replicate hrow, List.length_replicate]

-- Blank cells at the end of a row or of a table have no number, and neither has what lies behind.
theorem value?_padded (s : Snapshot) (below right : Nat) (a : Address) :
    (s.padded below right).value? a = s.value? a := by
  -- All that is added is blank, in the rows there are and below them.
  have hblank : ∀ n i : Nat, (List.replicate n (none : Option Float))[i]?.bind id = none := by
    intro n i
    rw [List.getElem?_replicate]
    split <;> rfl
  unfold value? padded
  dsimp only
  by_cases hrow : a.row < s.rows.length
  · rw [List.getElem?_append_left (by rw [List.length_map]; exact hrow), List.getElem?_map,
      List.getElem?_eq_getElem hrow]
    simp only [Option.map_some, Option.bind_eq_bind, Option.bind_some]
    by_cases hcol : a.col < (s.rows[a.row]).length
    · rw [List.getElem?_append_left hcol]
    · have hbehind : (s.rows[a.row]).length ≤ a.col := Nat.le_of_not_lt hcol
      rw [List.getElem?_append_right hbehind, List.getElem?_eq_none hbehind]
      exact hblank _ _
  · have hbelow : s.rows.length ≤ a.row := Nat.le_of_not_lt hrow
    rw [List.getElem?_append_right (by rw [List.length_map]; exact hbelow),
      List.getElem?_eq_none hbelow, List.getElem?_replicate]
    split
    · exact hblank _ _
    · rfl

/-- Padding loses no cell. -/
theorem contains_padded (below right : Nat) (h : s.contains a = true) :
    (s.padded below right).contains a = true := by
  rw [contains_iff] at h ⊢
  unfold height padded at *
  simp only [List.length_append, List.length_map, List.length_replicate]
  omega

theorem value?_of_not_contains (h : s.contains a = false) : s.value? a = none := by
  unfold value?
  cases hrow : s.rows[a.row]? with
  | none => rfl
  | some row =>
      -- All rows have the width of the snapshot.
      have hheight : a.row < s.height := (List.getElem?_eq_some_iff.1 hrow).1
      have hwidth : row.length = s.width := s.length_eq row (List.mem_of_getElem? hrow)
      have hcol : row.length ≤ a.col := by
        rw [← Bool.not_eq_true, contains_iff] at h
        omega
      rw [Option.bind_eq_bind, Option.bind_some, List.getElem?_eq_none hcol]
      rfl

/-- Padding by cells without formulas changes no entry. -/
theorem entry_padded {below right : Nat}
    (hblank : ∀ b, (s.padded below right).contains b = true → s.contains b = false →
      s.formula? b = none) (a : Address) : (s.padded below right).entry a = s.entry a := by
  by_cases hcontains : s.contains a = true
  · unfold entry
    rw [if_pos hcontains, if_pos (contains_padded below right hcontains), value?_padded]
    rfl
  · have houtside : s.contains a = false := Bool.eq_false_iff.2 hcontains
    rw [entry_of_not_contains houtside]
    -- An added cell is blank, and one that is still outside is empty.
    by_cases hadded : (s.padded below right).contains a = true
    · have hformula : (s.padded below right).formula? a = none := hblank a hadded houtside
      unfold entry
      rw [if_pos hadded, value?_padded, value?_of_not_contains houtside, hformula]
    · exact entry_of_not_contains (Bool.eq_false_iff.2 hadded)

/-- If a padded snapshot fits the grid, so does the snapshot without the padding. -/
theorem Fits.of_padded {below right : Nat} (h : (s.padded below right).Fits) : s.Fits := by
  have hheight : (s.padded below right).height = s.height + below := by
    unfold padded height
    simp only [List.length_append, List.length_map, List.length_replicate]
  have hpadded := h.height_le
  rw [hheight] at hpadded
  exact ⟨by omega, Nat.le_trans (Nat.le_add_right _ _) h.width_le⟩

/-- A formula has the same outcome, errors included, in any two snapshots that fit the grid and have
    the same in all cells it leads to in one of them. So blank rows and columns may be added at the
    end, where no formula is stored, and a formula without references has the same outcome
    everywhere. -/
theorem evaluate_depends_on_touched :
    (∀ (s t : Snapshot), s.Fits → t.Fits → ∀ (text : String) (a : Address),
      (∀ b, s.Touches text b → s.entry b = t.entry b) →
        (s.evaluate text a ∅).1 = (t.evaluate text a ∅).1) ∧
    (∀ (s : Snapshot) (below right : Nat), (s.padded below right).Fits →
      (∀ b, (s.padded below right).contains b = true → s.contains b = false →
        s.formula? b = none) →
      ∀ (text : String) (a : Address),
        ((s.padded below right).evaluate text a ∅).1 = (s.evaluate text a ∅).1) ∧
    (∀ (text : String) (f : Formula), Formula.parse text = .ok f → f.kind = .constant →
      ∀ (s t : Snapshot) (a : Address),
        (s.evaluate text a ∅).1 = (t.evaluate text a ∅).1) := by
  refine ⟨fun s t hs ht text a h => evaluate_eq_of_entries hs ht h, ?_, ?_⟩
  · -- Padding changes no entry at all, touched or not.
    intro s below right hfits hblank text a
    exact evaluate_eq_of_entries hfits hfits.of_padded fun b _ => entry_padded hblank b
  · intro text f hparse hkind s t a
    exact evaluate_eq_of_not_mentions (Formula.not_mentions_of_constant hparse hkind)

-- `A1` refers to `A2` below the table; `B1` refers to itself, but nothing leads there.
theorem evaluate_depends_on_touched_beside_cycle :
    let s : Snapshot := ofRows [[none]] (.ofList [("A1", "=A2")])
    let t : Snapshot := ofRows [[none, none]] (.ofList [("A1", "=A2"), ("B1", "=B1")])
    let a : Address := ⟨2, 0, by decide, by decide⟩
    (s.evaluate "=SUM(A1:A9)" a ∅).1 = (t.evaluate "=SUM(A1:A9)" a ∅).1 ∧
      ((s.padded 0 1).evaluate "=SUM(A1:A9)" a ∅).1 = (s.evaluate "=SUM(A1:A9)" a ∅).1 ∧
      (s.evaluate "=-2" a ∅).1 = (t.evaluate "=-2" a ∅).1 := by
  intro s t a
  let a1 : Address := ⟨0, 0, by decide, by decide⟩
  let a2 : Address := ⟨0, 1, by decide, by decide⟩
  let r : Range := ⟨a1, ⟨0, 8, by decide, by decide⟩, by decide, by decide⟩
  have hparse : Formula.parse "=A2" = .ok ⟨[.cell a2]⟩ := by cbv
  have hsum : Formula.parse "=SUM(A1:A9)" =
      .ok ⟨[.function .sum, .opening, .range r, .closing]⟩ := by cbv
  have hlexemes : lexemes ['-', '2'] = [.operator .subtract, .literal ['2'] none false] := by cbv
  have hconstant : Formula.parse "=-2" =
      .ok ⟨[.operator .subtract, .number (Decimal.toFloat ['2'] [])]⟩ := by
    change Formula.ofBody ['-', '2'] = _
    rw [Formula.ofBody, hlexemes]
    rfl
  have hstored : ∀ {b : Address} {text : String}, s.formula? b = some text →
      b.text = "A1" ∧ text = "=A2" := by
    intro b text h
    have hmem := mem_of_getElem?_ofList h
    rw [List.mem_singleton, Prod.mk.injEq] at hmem
    exact hmem
  have htext : a1.text = "A1" := by cbv
  -- All that the sum leads to stands in column `A`.
  have hcolumn : ∀ b, s.Touches "=SUM(A1:A9)" b → b.col = 0 := by
    rintro b ⟨c, ⟨f, hf, hnamed⟩, hpath⟩
    rw [hsum, Except.ok.injEq] at hf
    have hc : c.col = 0 := by
      rw [← hf] at hnamed
      simp only [List.mem_cons, List.not_mem_nil, reduceCtorEq, false_or, or_false,
        Token.range.injEq, exists_eq_left, Range.contains_iff] at hnamed
      exact Nat.le_zero.1 hnamed.1.2
    rcases ReflTransGen.cases_tail hpath with hsame | ⟨d, _, text, hcomputes, f', hf', hnamed'⟩
    · rw [hsame]
      exact hc
    · rw [(hstored hcomputes.formula?).2, hparse, Except.ok.injEq] at hf'
      rw [← hf'] at hnamed'
      simp only [List.mem_singleton, Token.cell.injEq, reduceCtorEq, false_and, exists_false,
        or_false] at hnamed'
      rw [hnamed']
  refine ⟨evaluate_depends_on_touched.1 s t ⟨by decide, by decide⟩ ⟨by decide, by decide⟩ _ a
      fun b hb => ?_,
    evaluate_depends_on_touched.2.1 s 0 1 ⟨by decide, by decide⟩ (fun b _ houtside => ?_) _ a,
    evaluate_depends_on_touched.2.2 _ _ hconstant rfl s t a⟩
  · have hcol := hcolumn b hb
    by_cases hrow : b.row = 0
    · have hb : b = a1 := Address.ext hcol hrow
      have hs : s.Computes a1 "=A2" := by
        refine ⟨by decide, by decide, ?_⟩
        unfold formula?
        rw [htext]
        exact Std.HashMap.getElem?_ofList_of_mem rfl (by decide) List.mem_cons_self
      have ht : t.Computes a1 "=A2" := by
        refine ⟨by decide, by decide, ?_⟩
        unfold formula?
        rw [htext]
        exact Std.HashMap.getElem?_ofList_of_mem rfl (by decide) List.mem_cons_self
      rw [hb, computes_iff_entry.1 hs, computes_iff_entry.1 ht]
    · have houtside : ∀ {u : Snapshot}, u.height = 1 → u.entry b = (none, none) := by
        intro u hu
        refine entry_of_not_contains ?_
        rw [← Bool.not_eq_true, contains_iff]
        omega
      rw [houtside rfl, houtside rfl]
  · refine Option.eq_none_iff_forall_ne_some.2 fun text htext' => ?_
    have hb : b = a1 := Address.text_injective ((hstored htext').1.trans htext.symm)
    rw [hb] at houtside
    exact absurd houtside (by decide)

end Snapshot

end Worksheet
