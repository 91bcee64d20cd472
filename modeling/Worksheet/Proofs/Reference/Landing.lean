import Worksheet.Proofs.Evaluation.Dependency
import Worksheet.Proofs.Reference.Tokens

/-!
# Where references land

Rows and columns move on their own, so whether an address stays in the grid is a matter of two
indices. The corners of a range move on their own too. Which pair of opposite corners was written
makes no difference: the same two columns and the same two rows are moved, and the moved range spans
them, even if the shift has turned their order round.

## Main definitions

* `Shift.Lands`: An address stays in the grid.
* `Shift.moveRange`, `Shift.moveToken`: A range and a token after a shift.
* `Token.addresses`, `Formula.addresses`: The addresses that tokens are made of.

## Theorems

* `Shift.exists_move_iff`: An address moves exactly if it stays in the grid.
* `Shift.moveRange_spanning`: A range spans the moved corners, whichever were written.
* `Shift.moveToken_of_moves`: A token that moves does so in one way.
* `Formula.kind_of_moves`: A shift does not change what a formula is made of.
-/

namespace Worksheet

/-- The addresses that a token is made of; those of a range are its first and last cell. -/
def Token.addresses : Token → List Address
  | .cell a => [a]
  | .range r => [r.first, r.last]
  | _ => []

/-- The addresses in a formula, from left to right. -/
def Formula.addresses (f : Formula) : List Address := f.tokens.flatMap Token.addresses

namespace Shift

/-- After the shift an index is one of the grid. -/
def LandsIndex (delta after : Int) (index : Nat) : Prop :=
  0 ≤ moveIndex delta after index ∧ moveIndex delta after index < Column.limit

/-- After the shift the column and the row of an address are in the grid. -/
def Lands (s : Shift) (a : Address) : Prop :=
  LandsIndex s.cols s.afterCol a.col ∧ LandsIndex s.rows s.afterRow a.row

/-- The range that the moved corners of a range span, if they stay in the grid. -/
def moveRange (s : Shift) (r : Range) : Option Range :=
  (s.move r.first).bind fun p => (s.move r.last).map fun q => .spanning p q

/-- A token after the shift, if its addresses stay in the grid. -/
def moveToken (s : Shift) : Token → Option Token
  | .cell a => (s.move a).map .cell
  | .range r => (s.moveRange r).map .range
  | t => some t

variable {s : Shift} {a b a' b' : Address} {r r' : Range} {t u : Token}

/-- A cell is moved to the one with the moved indices. -/
theorem move_eq_some_iff : s.move a = some b ↔
    (b.col : Int) = moveIndex s.cols s.afterCol a.col ∧
      (b.row : Int) = moveIndex s.rows s.afterRow a.row := by
  rw [move, Address.ofInts?_eq_some_iff]

/-- A cell is moved somewhere exactly when it lands. -/
theorem exists_move_iff : (∃ b, s.move a = some b) ↔ s.Lands a := by
  unfold Lands LandsIndex
  constructor
  · rintro ⟨b, hb⟩
    have hmove := move_eq_some_iff.1 hb
    have := b.col_lt
    have := b.row_lt
    omega
  · rintro ⟨hcol, hrow⟩
    refine ⟨⟨(moveIndex s.cols s.afterCol a.col).toNat, (moveIndex s.rows s.afterRow a.row).toNat,
      by omega, by omega⟩, move_eq_some_iff.2 ⟨?_, ?_⟩⟩
    · exact Int.toNat_of_nonneg hcol.1
    · exact Int.toNat_of_nonneg hrow.1

theorem move_eq_none (h : ¬ s.Lands a) : s.move a = none := by
  rw [Option.eq_none_iff_forall_ne_some]
  exact fun b hb => h (exists_move_iff.1 ⟨b, hb⟩)

/-- An address becomes the moved address, or the lost reference. -/
theorem shiftWord_of_ofChars? {word : List Char} (h : Address.ofChars? word = some a) :
    s.shiftWord word = ((s.move a).map Address.chars).getD lostReference.toList := by
  rw [shiftWord, h]
  cases hmove : s.move a with
  | none => simp only [hmove, Option.map_none, Option.getD_none]
  | some b => simp only [hmove, Option.map_some, Option.getD_some]

-- The lesser and the greater of two numbers are the two numbers.
theorem min_max_iff {P : Nat → Prop} (x y : Nat) : P (min x y) ∧ P (max x y) ↔ P x ∧ P y := by
  rcases Nat.le_total x y with h | h
  · rw [Nat.min_eq_left h, Nat.max_eq_right h]
  · rw [Nat.min_eq_right h, Nat.max_eq_left h, and_comm]

/-- The corners of a range that were written stay in the grid exactly if the other two do. -/
theorem lands_spanning_iff : s.Lands (Range.spanning a b).first ∧ s.Lands (Range.spanning a b).last ↔
    s.Lands a ∧ s.Lands b := by
  have hcol := min_max_iff (P := LandsIndex s.cols s.afterCol) a.col b.col
  have hrow := min_max_iff (P := LandsIndex s.rows s.afterRow) a.row b.row
  simp only [Lands, Range.spanning]
  constructor
  · rintro ⟨⟨hc, hr⟩, hc', hr'⟩
    exact ⟨⟨(hcol.1 ⟨hc, hc'⟩).1, (hrow.1 ⟨hr, hr'⟩).1⟩, (hcol.1 ⟨hc, hc'⟩).2,
      (hrow.1 ⟨hr, hr'⟩).2⟩
  · rintro ⟨⟨hc, hr⟩, hc', hr'⟩
    exact ⟨⟨(hcol.2 ⟨hc, hc'⟩).1, (hrow.2 ⟨hr, hr'⟩).1⟩, (hcol.2 ⟨hc, hc'⟩).2,
      (hrow.2 ⟨hr, hr'⟩).2⟩

-- The images of the lesser and the greater index are those of the two indices in some order.
theorem min_max_of_move {x y x' y' p q : Nat} {f : Nat → Int} (hx : (x' : Int) = f x)
    (hy : (y' : Int) = f y) (hp : (p : Int) = f (min x y)) (hq : (q : Int) = f (max x y)) :
    min p q = min x' y' ∧ max p q = max x' y' := by
  -- The corners may change places in the shift, so their order afterwards is not known.
  rcases Nat.le_total x y with h | h
  · rw [Nat.min_eq_left h] at hp
    rw [Nat.max_eq_right h] at hq
    have hpx : p = x' := by omega
    have hqy : q = y' := by omega
    rw [hpx, hqy]
    exact ⟨rfl, rfl⟩
  · rw [Nat.min_eq_right h] at hp
    rw [Nat.max_eq_left h] at hq
    have hpy : p = y' := by omega
    have hqx : q = x' := by omega
    rw [hpy, hqx]
    exact ⟨Nat.min_comm _ _, Nat.max_comm _ _⟩

/-- A moved range spans its moved corners, whichever two opposite ones were written. -/
theorem moveRange_spanning (ha : s.move a = some a') (hb : s.move b = some b') :
    s.moveRange (.spanning a b) = some (.spanning a' b') := by
  have hlands := lands_spanning_iff.2 ⟨exists_move_iff.1 ⟨a', ha⟩, exists_move_iff.1 ⟨b', hb⟩⟩
  rcases exists_move_iff.2 hlands.1 with ⟨p, hp⟩
  rcases exists_move_iff.2 hlands.2 with ⟨q, hq⟩
  rw [moveRange, hp, hq, Option.bind_some, Option.map_some, Option.some.injEq]
  rw [move_eq_some_iff] at ha hb hp hq
  rcases min_max_of_move ha.1 hb.1 hp.1 hq.1 with ⟨hfirstCol, hlastCol⟩
  rcases min_max_of_move ha.2 hb.2 hp.2 hq.2 with ⟨hfirstRow, hlastRow⟩
  ext
  · exact hfirstCol
  · exact hfirstRow
  · exact hlastCol
  · exact hlastRow

/-- What a token moves to is the token after the shift, and its addresses stay in the grid. -/
theorem moveToken_of_moves (h : s.MovesToken t u) :
    s.moveToken t = some u ∧ ∀ a ∈ t.addresses, s.Lands a := by
  cases h with
  | argument h =>
      cases h with
      | @cell a b h =>
          have hmove : s.move a = some b := h
          refine ⟨congrArg (Option.map Token.cell) hmove, fun c hc => ?_⟩
          rw [List.mem_singleton.1 hc]
          exact exists_move_iff.1 ⟨b, hmove⟩
      | range h =>
          rcases h with ⟨a, b, a', b', ha, hb, rfl, rfl⟩
          refine ⟨congrArg (Option.map Token.range) (moveRange_spanning ha hb), fun c hc => ?_⟩
          -- Both corners are moved, so both land.
          have hlands :=
            lands_spanning_iff.2 ⟨exists_move_iff.1 ⟨a', ha⟩, exists_move_iff.1 ⟨b', hb⟩⟩
          rcases List.mem_pair.1 hc with rfl | rfl
          · exact hlands.1
          · exact hlands.2
  | same h =>
      cases t with
      | cell a | range r => cases h
      | function f | operator op | number x | opening | closing =>
          exact ⟨rfl, fun c hc => absurd hc List.not_mem_nil⟩

end Shift

namespace Formula

-- A formula lists no reference exactly if it has none.
theorem any_argument?_eq (f : Formula) : f.tokens.any (fun t => t.argument?.isSome) =
    !(f.cells.isEmpty && f.ranges.isEmpty) := by
  rw [Bool.eq_iff_iff, List.any_eq_true, Bool.not_eq_true', Bool.eq_false_iff, Ne, Bool.and_eq_true,
    List.isEmpty_iff, List.isEmpty_iff, List.eq_nil_iff_forall_not_mem,
    List.eq_nil_iff_forall_not_mem]
  constructor
  · rintro ⟨t, ht, hreference⟩ ⟨hcells, hranges⟩
    cases t with
    | cell a => exact hcells a ((mem_cells_iff f a).2 ht)
    | range r => exact hranges r ((mem_ranges_iff f r).2 ht)
    | function g | operator op | number x | opening | closing => cases hreference
  · intro h
    by_contra hnone
    refine h ⟨fun a ha => hnone ?_, fun r hr => hnone ?_⟩
    · exact ⟨.cell a, (mem_cells_iff f a).1 ha, rfl⟩
    · exact ⟨.range r, (mem_ranges_iff f r).1 hr, rfl⟩

theorem any_eq_of_forall₂ {R : Token → Token → Prop} {p : Token → Bool} {ts us : List Token}
    (h : List.Forall₂ R ts us) (hp : ∀ t u, R t u → p u = p t) : us.any p = ts.any p := by
  induction h with
  | nil => rfl
  | cons hhead _ ih => rw [List.any_cons, List.any_cons, hp _ _ hhead, ih]

/-- A shift does not change what a formula is made of. -/
theorem kind_of_moves {s : Shift} {f f' : Formula}
    (h : List.Forall₂ s.MovesToken f.tokens f'.tokens) : f'.kind = f.kind := by
  -- Cells stay cells and ranges ranges, and every other token stays what it is.
  have hfunction : f'.tokens.any isFunction = f.tokens.any isFunction := by
    refine any_eq_of_forall₂ h fun t u htu => ?_
    cases htu with
    | argument harg => cases harg <;> rfl
    | same _ => rfl
  have hreference : f'.tokens.any (fun t => t.argument?.isSome) =
      f.tokens.any (fun t => t.argument?.isSome) := by
    refine any_eq_of_forall₂ h fun t u htu => ?_
    cases htu with
    | argument harg => cases harg <;> rfl
    | same _ => rfl
  rw [any_argument?_eq, any_argument?_eq, Bool.not_inj_iff] at hreference
  rw [kind, kind, hfunction, hreference]

end Formula

end Worksheet
