import Mathlib
import Worksheet.Command.Inspect
import Worksheet.Proofs.Reference.Mentions

/-!
# Listing the references of a formula

Lists of references name each thing once. Cells are listed by their written form, of which each has
only one, so repeats can be dropped before or after writing. Ranges are listed as they are spelled,
in capital letters, and one range has many spellings. Repeats are then dropped twice, among the
spellings and among the ranges read from them, which comes to the same as dropping them once.

So the lists found by searching the text of a formula are those of its tokens.

## Main definitions

* `Argument.cell?`, `Argument.range?`: The two kinds of arguments apart.

## Theorems

* `Reference.distinct_map`, `Reference.distinct_filterMap_distinct`: Dropping repeats.
* `Reference.mapM_distinct`: Dropping repeats before and after reading.
* `Reference.references_of_parse`: The lists of references in the text of a formula.
-/

namespace Worksheet

open Text Grammar

namespace Reference

section Distinct

variable {α β : Type} [DecidableEq α] [DecidableEq β]

/-- One more item is added unless it was there before. -/
theorem distinct_concat (items : List α) (x : α) : distinct (items ++ [x]) =
    if x ∈ distinct items then distinct items else distinct items ++ [x] := by
  unfold distinct
  rw [List.foldl_append, List.foldl_cons, List.foldl_nil]
  simp only [List.contains_iff_mem]

/-- Dropping repeats loses no item. -/
theorem mem_distinct {items : List α} {x : α} : x ∈ distinct items ↔ x ∈ items := by
  induction items using List.reverseRecOn with
  | nil => exact Iff.rfl
  | append_singleton items y ih =>
      rw [distinct_concat, List.mem_append, List.mem_singleton, ← ih]
      by_cases hy : y ∈ distinct items
      · rw [if_pos hy]
        exact ⟨Or.inl, fun h => h.elim id fun h => h ▸ hy⟩
      · rw [if_neg hy, List.mem_append, List.mem_singleton]

/-- Repeats are the same before and after an injective map. -/
theorem distinct_map {f : α → β} (hf : Function.Injective f) (items : List α) :
    distinct (items.map f) = (distinct items).map f := by
  induction items using List.reverseRecOn with
  | nil => rfl
  | append_singleton items x ih =>
      rw [List.map_append, List.map_singleton, distinct_concat, distinct_concat, ih]
      by_cases hx : x ∈ distinct items
      · rw [if_pos hx, if_pos (List.mem_map_of_mem hx)]
      · rw [if_neg hx, if_neg fun h => hx ((List.mem_map_of_injective hf).1 h), List.map_append,
          List.map_singleton]

/-- Repeats of what is read need not be looked for among repeats of what they are read from. -/
theorem distinct_filterMap_distinct (f : α → Option β) (items : List α) :
    distinct ((distinct items).filterMap f) = distinct (items.filterMap f) := by
  -- Whether the last element is listed depends only on what is listed before it.
  induction items using List.reverseRecOn with
  | nil => rfl
  | append_singleton items x ih =>
      rw [distinct_concat, List.filterMap_append]
      by_cases hx : x ∈ distinct items
      · rw [if_pos hx, ih]
        cases hf : f x with
        | none => rw [List.filterMap_cons_none hf, List.filterMap_nil, List.append_nil]
        | some y =>
            have hy : y ∈ distinct (items.filterMap f) :=
              mem_distinct.2 (List.mem_filterMap.2 ⟨x, mem_distinct.1 hx, hf⟩)
            rw [List.filterMap_cons_some hf, List.filterMap_nil, distinct_concat, if_pos hy]
      · rw [if_neg hx, List.filterMap_append]
        cases hf : f x with
        | none =>
            rw [List.filterMap_cons_none hf, List.filterMap_nil, List.append_nil, List.append_nil, ih]
        | some y =>
            rw [List.filterMap_cons_some hf, List.filterMap_nil, distinct_concat, distinct_concat, ih]

end Distinct

end Reference

namespace Argument

/-- The cell that an argument is, if it is one. -/
def cell? : Argument → Option Address
  | cell a => some a
  | range _ => none

/-- The range that an argument is, if it is one. -/
def range? : Argument → Option Range
  | cell _ => none
  | range r => some r

end Argument

namespace Formula

-- Both lists are filled token by token, and tokens that are no arguments of the kind add nothing.
theorem cells_eq (f : Formula) :
    f.cells = Reference.distinct (f.arguments.filterMap Argument.cell?) := by
  rw [cells, Reference.distinct, arguments, List.filterMap_filterMap, List.foldl_filterMap]
  congr 1
  funext seen t
  cases t with
  | cell a => simp only [Token.argument?, Option.bind_some, Argument.cell?, List.contains_iff_mem]
  | range r | function g | operator op | number x | opening | closing => rfl

/-- The ranges of a formula are those among its arguments, without repeats. -/
theorem ranges_eq (f : Formula) :
    f.ranges = Reference.distinct (f.arguments.filterMap Argument.range?) := by
  rw [ranges, Reference.distinct, arguments, List.filterMap_filterMap, List.foldl_filterMap]
  congr 1
  funext seen t
  cases t with
  | range r => simp only [Token.argument?, Option.bind_some, Argument.range?, List.contains_iff_mem]
  | cell a | function g | operator op | number x | opening | closing => rfl

end Formula

namespace Reference

section Lists

variable {ms : List Mention} {args : List Argument}

/-- The cells that are mentioned are written as their addresses are. -/
theorem cellTexts_of_denotes (h : List.Forall₂ Mention.Denotes ms args) :
    ms.filterMap Mention.cellText? = (args.filterMap Argument.cell?).map Address.text := by
  induction h with
  | nil => rfl
  | cons hhead _ ih =>
      cases hhead with
      | cell ha =>
          rw [List.filterMap_cons, Mention.cellText?, ha, ih]
          rfl
      | range ha hb => rw [List.filterMap_cons_none rfl, List.filterMap_cons_none rfl, ih]

/-- The spelling in capital letters is read as the range itself. -/
theorem parse_rangeText {first last : List Char} {a b : Address}
    (ha : Address.ofChars? first = some a) (hb : Address.ofChars? last = some b) :
    ∃ spelling, (Mention.range first last).rangeText? = some spelling ∧
      Range.parse spelling = .ok (.spanning a b) := by
  have ha' := Address.ofChars?_map_toUpper ha
  have hb' := Address.ofChars?_map_toUpper hb
  have hread : Range.ofChars ((first ++ ':' :: last).map Char.toUpper) = .ok (.spanning a b) := by
    rw [List.map_append, List.map_cons]
    exact mapError_eq_ok_iff.1 ((Lexeme.readPair_eq_ok_iff (Address.isAlphanum_of_ofChars? ha')
      (Address.isAlphanum_of_ofChars? hb')).2 ⟨a, b, ha', hb', rfl⟩)
  refine ⟨String.ofList ((first ++ ':' :: last).map Char.toUpper), ?_, ?_⟩
  · rw [Mention.rangeText?, Range.ofChars?, hread]
    rfl
  · rw [Range.parse, String.toList_ofList, hread]

/-- The spellings of the mentioned ranges parse to the ranges they denote. -/
theorem rangeTexts_of_denotes (h : List.Forall₂ Mention.Denotes ms args) :
    List.Forall₂ (fun spelling r => Range.parse spelling = .ok r)
      (ms.filterMap Mention.rangeText?) (args.filterMap Argument.range?) := by
  induction h with
  | nil => exact .nil
  | cons hhead _ ih =>
      cases hhead with
      | cell ha =>
          rw [List.filterMap_cons_none rfl, List.filterMap_cons_none rfl]
          exact ih
      | range ha hb =>
          rcases parse_rangeText ha hb with ⟨spelling, hspelling, hread⟩
          rw [List.filterMap_cons_some hspelling]
          exact List.Forall₂.cons hread ih

end Lists

section Attempts

variable {ε α β : Type} {read : α → Except ε β}

/-- Reading a list succeeds exactly when each of its members is read. -/
theorem mapM_eq_ok_iff {xs : List α} {ys : List β} :
    xs.mapM read = .ok ys ↔ List.Forall₂ (fun x y => read x = .ok y) xs ys := by
  induction xs generalizing ys with
  | nil =>
      rw [List.mapM_nil, List.forall₂_nil_left_iff]
      constructor
      · intro h
        cases h
        rfl
      · rintro rfl
        rfl
  | cons x rest ih =>
      rw [List.mapM_cons, List.forall₂_cons_left_iff]
      constructor
      · intro h
        rcases bind_eq_ok_iff.1 h with ⟨y, hy, h⟩
        rcases bind_eq_ok_iff.1 h with ⟨ys, hys, h⟩
        cases h
        exact ⟨y, ys, hy, ih.1 hys, rfl⟩
      · rintro ⟨y, ys, hy, hys, rfl⟩
        exact bind_eq_ok_iff.2 ⟨y, hy, bind_eq_ok_iff.2 ⟨ys, ih.2 hys, rfl⟩⟩

/-- Where every member is read, none is lost by leaving out those that are not. -/
theorem filterMap_toOption {xs : List α} {ys : List β}
    (h : List.Forall₂ (fun x y => read x = .ok y) xs ys) :
    xs.filterMap (fun x => (read x).toOption) = ys := by
  induction h with
  | nil => rfl
  | cons hhead _ ih => rw [List.filterMap_cons, toOption_eq_some_iff.2 hhead, ih]

theorem forall₂_toOption {xs : List α} (h : ∀ x ∈ xs, ∃ y, read x = .ok y) :
    List.Forall₂ (fun x y => read x = .ok y) xs (xs.filterMap fun x => (read x).toOption) := by
  induction xs with
  | nil => exact .nil
  | cons x rest ih =>
      rcases h x List.mem_cons_self with ⟨y, hy⟩
      rw [List.filterMap_cons, toOption_eq_some_iff.2 hy]
      exact .cons hy (ih fun z hz => h z (List.mem_cons_of_mem _ hz))

/-- Reading each thing once and dropping repeats of what is read gives all that can be read. -/
theorem mapM_distinct [DecidableEq α] [DecidableEq β] {xs : List α} {ys : List β}
    (h : List.Forall₂ (fun x y => read x = .ok y) xs ys) :
    ((distinct xs).mapM read).map distinct = .ok (distinct ys) := by
  have hread : ∀ x ∈ xs, ∃ y, read x = .ok y :=
    ((List.forall₂_and_left _ _).1 (h.imp fun x y hy => ⟨⟨y, hy⟩, hy⟩)).1
  have honce := forall₂_toOption fun x hx => hread x (mem_distinct.1 hx)
  rw [mapM_eq_ok_iff.2 honce, ← filterMap_toOption h, ← distinct_filterMap_distinct]
  rfl

end Attempts

section Formulas

variable {text : String} {f : Formula} {e : Expression}

/-- The cells listed for a formula's text are the cells of the formula. -/
theorem cells_of_parse (hparse : Formula.parse text = .ok f)
    (hderives : Derives .sum f.tokens e) : cells text = f.cells.map Address.text := by
  rw [cells, cellTexts_of_denotes (denotes_of_parse hparse hderives), f.cells_eq,
    distinct_map fun a b => Address.text_injective]

/-- The ranges listed for a formula's text are, once read and without repeats, the ranges of the
    formula. -/
theorem ranges_of_parse (hparse : Formula.parse text = .ok f)
    (hderives : Derives .sum f.tokens e) :
    ((ranges text).mapM Range.parse).map distinct = .ok f.ranges := by
  rw [ranges, f.ranges_eq]
  exact mapM_distinct (rangeTexts_of_denotes (denotes_of_parse hparse hderives))

/-- The cells found in the text of a formula are its cells as they are written, in the same order.
    The ranges found in it are read as its ranges, in the same order once repeats are dropped. So
    describing a formula lists all the references its tokens use and no others. -/
theorem references_of_parse (hparse : Formula.parse text = .ok f)
    (hderives : Derives .sum f.tokens e) :
    cells text = f.cells.map Address.text ∧
      ((ranges text).mapM Range.parse).map distinct = .ok f.ranges ∧
        (∀ a, a.text ∈ cells text ↔ Token.cell a ∈ f.tokens) ∧
          (∀ r, (∃ spelling ∈ ranges text, Range.parse spelling = .ok r) ↔
            Token.range r ∈ f.tokens) ∧
            ["Cells: " ++ ", ".intercalate (f.cells.map Address.text),
              "Ranges: " ++ ", ".intercalate (ranges text)] <:+:
                Command.formulaDescription text := by
  have hcells := cells_of_parse hparse hderives
  have hranges := ranges_of_parse hparse hderives
  refine ⟨hcells, hranges, fun a => ?_, fun r => ?_, ?_⟩
  · rw [hcells, ← f.mem_cells_iff]
    exact List.mem_map_of_injective fun a b => Address.text_injective
  · -- The spellings are read one by one, and what they are read as are the ranges of the formula,
    -- repeats apart.
    rcases map_eq_ok_iff.1 hranges with ⟨rs, hread, hrs⟩
    rw [← f.mem_ranges_iff, ← hrs, mem_distinct, ← filterMap_toOption (mapM_eq_ok_iff.1 hread),
      List.mem_filterMap]
    simp only [toOption_eq_some_iff]
  · rw [Command.formulaDescription, hparse, ← hcells]
    exact ⟨["Kind: " ++ Command.kindName f.kind, "Tokens: " ++ Nat.repr f.tokens.length], _, rfl⟩

end Formulas

-- One cell and one range, each in two spellings.
theorem references_of_parse_respelled :
    cells "=sum(b2:A1)+a01*A1-SUM( A1:B2 )" = ["A1"] ∧
      ((ranges "=sum(b2:A1)+a01*A1-SUM( A1:B2 )").mapM Range.parse).map distinct =
        .ok [.spanning (.ofIndices 0 0) (.ofIndices 1 1)] ∧
      ["Cells: A1", "Ranges: B2:A1, A1:B2"] <:+:
        Command.formulaDescription "=sum(b2:A1)+a01*A1-SUM( A1:B2 )" := by
  let a : Address := .ofIndices 0 0
  let r : Range := .spanning a (.ofIndices 1 1)
  let f : Formula := ⟨[.function .sum, .opening, .range r, .closing, .operator .add, .cell a,
    .operator .multiply, .cell a, .operator .subtract, .function .sum, .opening, .range r,
    .closing]⟩
  have hparse : Formula.parse "=sum(b2:A1)+a01*A1-SUM( A1:B2 )" = .ok f := by cbv
  have hsum : Derives .operand [.function .sum, .opening, .range r, .closing]
      (.call .sum [.range r]) := .call .sum [.range r]
  have hcell : Derives .product [.cell a] _ := .ofOperand (.cell a)
  have hproduct : Derives .product [.cell a, .operator .multiply, .cell a] _ :=
    .factor .multiply rfl hcell (.cell a)
  have hbefore : Derives .sum [.function .sum, .opening, .range r, .closing, .operator .add,
      .cell a, .operator .multiply, .cell a] _ :=
    .term .add rfl (.ofProduct (.ofOperand hsum)) hproduct
  have hderives : Derives .sum f.tokens _ := .term .subtract rfl hbefore (.ofOperand hsum)
  have hcells : f.cells.map Address.text = ["A1"] := by cbv
  have hranges : ranges "=sum(b2:A1)+a01*A1-SUM( A1:B2 )" = ["B2:A1", "A1:B2"] := by cbv
  rcases references_of_parse hparse hderives with ⟨hlisted, hread, _, _, hlines⟩
  rw [hcells, hranges] at hlines
  exact ⟨hlisted.trans hcells, hread, hlines⟩

end Reference

end Worksheet
