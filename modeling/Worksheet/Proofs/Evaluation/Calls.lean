import Mathlib
import Worksheet.Proofs.Evaluation.Session
import Worksheet.Proofs.Formula.Lexicon
import Worksheet.Proofs.Range.Order
import Worksheet.Proofs.Range.Parsing
import Worksheet.Proofs.Reference.Mentions

/-!
# Calls of functions

A function applied to a range has the value that it has applied to the cells of the range one by
one. The range is cut down to the snapshot before any cell is looked at, and the list is not. But a
cell outside the snapshot has no value and no formula, so resolving it gives nothing, fails in no
case and leaves the cache alone, as long as the cache knows no such cell.

The list is written into the text of the formula, so it has to be read back as the same cells, which
is shown for any list of cells and ranges in any spelling.

## Main definitions

* `Range.expanded`: The written forms of the cells of a range.
* `Aggregate.callText`: A formula that calls a function.

## Theorems

* `Formula.parse_callText`: A call is read as the cells and ranges spelled in it.
* `Snapshot.run_collect_filter`: Cells outside a snapshot contribute nothing.
* `Snapshot.evaluate_range_eq_cells`: A range and the list of its cells have the same value.
-/

namespace Worksheet

open Text Grammar Reference

namespace Range

/-- The written forms of the cells of the range that a text names, row by row; none, if it names no
    range. -/
def expanded (spelling : String) : List String :=
  ((parse? spelling).map fun r => r.cells.map Address.text).getD []

end Range

/-! ## Reading a call -/

/-- The text of a formula that calls a function, with its arguments spelled between commas. -/
def Aggregate.callText (f : Aggregate) (spellings : List String) : String :=
  "=" ++ f.name ++ "(" ++ ",".intercalate spellings ++ ")"

namespace Reference

/-- The characters of a mention. -/
def Mention.chars : Mention → List Char
  | cell word => word
  | range first last => first ++ ':' :: last

section Spelling

variable {m : Mention} {ms : List Mention} {arg : Argument} {args : List Argument}
  {rest : List Char}

/-- A mention is a lexeme wherever its last word ends. -/
theorem Mention.Denotes.exists_lexeme (h : m.Denotes arg) (hends : EndsRun Char.isAlphanum rest) :
    ∃ l : Lexeme, l.chars = m.chars ∧ l.Denotes rest (some arg.token) := by
  cases h with
  | @cell word _ ha => exact ⟨.word word, rfl, .cell ha hends⟩
  | @range first last _ _ ha hb => exact ⟨.pair first last, rfl, .range ha hb hends⟩

theorem isPlain_of_isAlphanum {c : Char} (h : c.isAlphanum = true) : c ≠ '(' ∧ c ≠ ')' :=
  ⟨Lexeme.ne_sign (Or.inl h) (by decide), Lexeme.ne_sign (Or.inl h) (by decide)⟩

/-- A spelled argument holds no parenthesis. -/
theorem Mention.Denotes.isPlain (h : m.Denotes arg) : ∀ c ∈ m.chars, c ≠ '(' ∧ c ≠ ')' := by
  intro c hc
  cases h with
  | cell ha => exact isPlain_of_isAlphanum (Address.isAlphanum_of_ofChars? ha c hc)
  | range ha hb =>
      rcases List.mem_append.1 hc with hc | hc
      · exact isPlain_of_isAlphanum (Address.isAlphanum_of_ofChars? ha c hc)
      rcases List.mem_cons.1 hc with rfl | hc
      · decide
      · exact isPlain_of_isAlphanum (Address.isAlphanum_of_ofChars? hb c hc)

/-- A spelled argument in front of a text is one more token in front of the text's tokens. -/
theorem splits_mention {ls : List Lexeme} {ts : List Token} (h : m.Denotes arg)
    (hends : EndsRun Char.isAlphanum rest) (hsplits : Splits rest ls ts) :
    ∃ ls', Splits (m.chars ++ rest) ls' (arg.token :: ts) := by
  rcases h.exists_lexeme hends with ⟨l, hchars, hdenotes⟩
  rw [← hchars]
  exact ⟨_, .cons hdenotes hsplits⟩

-- The comma in front of each further mention ends the one before it, and so does the parenthesis.
theorem splits_mentions (h : List.Forall₂ Mention.Denotes ms args) :
    ∃ ls, Splits (List.intercalate [','] (ms.map Mention.chars) ++ [')']) ls
      (args.map Argument.token ++ [.closing]) := by
  have hclosing : Splits [')'] [.closing] [.closing] := .cons .closing .nil
  induction h with
  | nil => exact ⟨_, hclosing⟩
  | cons hhead htail ih =>
      cases htail with
      | nil =>
          -- The last argument ends at the closing parenthesis, the others at a comma.
          rw [List.map_singleton, List.intercalate_singleton]
          exact splits_mention hhead (endsRun_cons rfl) hclosing
      | cons _ _ =>
          rcases ih with ⟨ls, hsplits⟩
          have hcomma : Splits (',' :: _) (.comma :: ls) _ := .cons .comma hsplits
          simp only [List.map_cons, List.intercalate_cons_cons, List.append_assoc] at hcomma ⊢
          exact splits_mention hhead (endsRun_cons rfl) hcomma

theorem isPlain_mentions (h : List.Forall₂ Mention.Denotes ms args) :
    ∀ c ∈ List.intercalate [','] (ms.map Mention.chars), c ≠ '(' ∧ c ≠ ')' := by
  induction h with
  | nil => exact fun c hc => absurd hc List.not_mem_nil
  | cons hhead htail ih =>
      cases htail with
      | nil =>
          rw [List.map_singleton, List.intercalate_singleton]
          exact hhead.isPlain
      | cons _ _ =>
          intro c hc
          simp only [List.map_cons, List.intercalate_cons_cons, List.append_assoc] at hc
          rcases List.mem_append.1 hc with hc | hc
          · exact hhead.isPlain c hc
          rcases List.mem_cons.1 hc with rfl | hc
          · decide
          · exact ih c hc

end Spelling

end Reference

namespace Formula

variable {ms : List Mention} {args : List Argument}

/-- A call is written as an equals sign, the name, and the spellings between parentheses. -/
theorem toList_callText (f : Aggregate) (spellings : List String) :
    (f.callText spellings).toList = '=' :: (f.name.toList ++
      '(' :: (List.intercalate [','] (spellings.map String.toList) ++ [')'])) := by
  simp only [Aggregate.callText, String.toList_append, String.toList_intercalate]
  simp

/-- A call is read as the function and the cells and ranges that are spelled in it. -/
theorem parse_callText (f : Aggregate) (h : List.Forall₂ Mention.Denotes ms args) :
    parse (f.callText (ms.map fun m => String.ofList m.chars)) =
      .ok ⟨.function f :: .opening :: (args.map Argument.token ++ [.closing])⟩ := by
  have hname : f.isNamed f.name.toList = true := by cases f <;> decide
  have hplain : ∀ c ∈ f.name.toList, c ≠ '(' ∧ c ≠ ')' := fun c hc =>
    isPlain_of_isAlphanum (isAlphanum_of_isAlpha (Aggregate.isAlpha_of_isNamed hname c hc))
  have hspelled : (ms.map fun m => String.ofList m.chars).map String.toList =
      ms.map Mention.chars := by
    simp only [List.map_map, Function.comp_def, String.toList_ofList]
  rcases splits_mentions h with ⟨ls, hsplits⟩
  have hopen : ∀ rest, (trimStart ('(' :: rest)).head? = some '(' := fun rest =>
    congrArg List.head? (List.dropWhile_cons_of_neg (by decide))
  have hbody : ofBody (f.name.toList ++ '(' ::
      (List.intercalate [','] (ms.map Mention.chars) ++ [')'])) =
        .ok ⟨.function f :: .opening :: (args.map Argument.token ++ [.closing])⟩ := by
    -- There is one parenthesis to count, however many cells are listed.
    have hcount : (f.name.toList ++ '(' ::
        (List.intercalate [','] (ms.map Mention.chars) ++ [')'])).count '(' < 2 ^ 31 := by
      rw [List.count_append, count_opening_eq_zero hplain, List.count_cons_self, List.count_append,
        count_opening_eq_zero (isPlain_mentions h)]
      decide
    refine (ofBody_eq_ok_iff hcount).2 ⟨_, .cons (.call hname (endsRun_cons rfl) (hopen _))
      (.cons .opening hsplits), (balanced_append_iff hplain).2 (balanced_opening_iff.2 ?_)⟩
    exact (balanced_append_iff (isPlain_mentions h)).2
      (balanced_closing_iff.2 ⟨by decide, balanced_nil_iff.2 rfl⟩)
  -- The text starts with the equals sign and ends with a parenthesis, so there is nothing to trim.
  have htrim := trim_eq_self_of_ends (c := '=') (d := ')') (by decide) (by decide)
    (f.name.toList ++ '(' :: List.intercalate [','] (ms.map Mention.chars))
  rw [List.append_assoc, List.cons_append] at htrim
  rw [parse, toList_callText, hspelled, ofChars, htrim]
  exact hbody

/-- A call of a range is parsed into the call of that range. -/
theorem parse_callText_range (f : Aggregate) {spelling : String} {r : Range}
    (hread : Range.parse spelling = .ok r) : parse (f.callText [spelling]) =
      .ok ⟨.function f :: .opening :: ([Argument.range r].map Argument.token ++ [.closing])⟩ := by
  rcases Range.parse_eq_ok_iff.1 hread with ⟨first, last, a, b, hspelling, ha, hb, rfl⟩
  have hcall := parse_callText f (.cons (Mention.Denotes.range ha hb) .nil)
  rw [List.map_singleton, Mention.chars, ← hspelling, String.ofList_toList] at hcall
  exact hcall

/-- A call of all cells of a range, one by one, is parsed into the call of those cells. -/
theorem parse_callText_expanded (f : Aggregate) {spelling : String} {r : Range}
    (hread : Range.parse spelling = .ok r) : parse (f.callText (Range.expanded spelling)) =
      .ok ⟨.function f :: .opening ::
        ((r.cells.map Argument.cell).map Argument.token ++ [.closing])⟩ := by
  -- Each cell is written as its address, which denotes it.
  have hwritten : Range.expanded spelling =
      (r.cells.map fun a => Mention.cell a.chars).map fun m => String.ofList m.chars := by
    have hrange : Range.parse? spelling = some r := toOption_eq_some_iff.2 hread
    rw [Range.expanded, hrange, List.map_map]
    rfl
  have hdenotes : List.Forall₂ Mention.Denotes (r.cells.map fun a => Mention.cell a.chars)
      (r.cells.map Argument.cell) := by
    rw [List.forall₂_map_left_iff, List.forall₂_map_right_iff, List.forall₂_same]
    exact fun a _ => .cell (Address.ofChars?_chars a)
  rw [hwritten]
  exact parse_callText f hdenotes

end Formula

/-! ## Evaluating a call -/

section Running

variable {resolve : Address → Computation (Option Float)} {as : List Address} {cache : Cache}

/-- Collecting resolves one cell after another and hands the cache on. -/
theorem run_collect_cons (a : Address) : (collect resolve (a :: as)).run.run cache =
    match (resolve a).run.run cache with
      | (.ok value, cache') => match (collect resolve as).run.run cache' with
        | (.ok values, cache'') => (.ok (value.toList ++ values), cache'')
        | (.error e, cache'') => (.error e, cache'')
      | (.error e, cache') => (.error e, cache') := by
  rw [collect, run_bind]
  rcases (resolve a).run.run cache with ⟨_ | value, cache'⟩
  · rfl
  · dsimp only
    rw [run_bind]
    rcases (collect resolve as).run.run cache' with ⟨_ | values, cache''⟩ <;> rfl

end Running

namespace Snapshot

variable {s : Snapshot} {cache : Cache} {a b : Address}

/-- A cell outside the snapshot resolves to nothing, and the cache stays as it is. -/
theorem run_resolve_outside (hc : s.Sound cache) (hb : s.contains b = false) :
    (s.resolve [] b).run.run cache = (.ok none, cache) := by
  rw [run_resolve]
  cases hcached : cache[b.text]? with
  | some x =>
      -- Only cells of the snapshot are remembered.
      rcases hc _ x hcached with ⟨b', text, htext, hcomputes, _⟩
      have hcontains := hcomputes.contains
      rw [← Address.text_injective htext, hb] at hcontains
      cases hcontains
  | none => simp only [List.contains_nil, Bool.false_eq_true, if_false, hb, Bool.not_false, if_true]

/-- Resolving a cell keeps a cache right. -/
theorem sound_resolve (hc : s.Sound cache) (b : Address) :
    s.Sound ((s.resolve [] b).run.run cache).2 :=
  (s.resolve_follows [] b (List.forall_mem_nil _) cache hc).2

/-- Cells outside the snapshot contribute nothing, neither values nor errors nor anything to be
    remembered. -/
theorem run_collect_filter (hc : s.Sound cache) (as : List Address) :
    (collect (s.resolve []) (as.filter s.contains)).run.run cache =
      (collect (s.resolve []) as).run.run cache := by
  -- Each cell inside may add to the cache, so the cache is any sound one.
  induction as generalizing cache with
  | nil => rfl
  | cons b rest ih =>
      cases hb : s.contains b with
      | false =>
          rw [List.filter_cons_of_neg (Bool.eq_false_iff.1 hb), ih hc, run_collect_cons,
            run_resolve_outside hc hb]
          dsimp only
          rcases (collect (s.resolve []) rest).run.run cache with ⟨_ | values, cache'⟩ <;> rfl
      | true =>
          have hsound := sound_resolve hc b
          rw [List.filter_cons_of_pos hb, run_collect_cons, run_collect_cons]
          rcases hrun : (s.resolve [] b).run.run cache with ⟨_ | value, cache'⟩
          · rfl
          · rw [hrun] at hsound
            dsimp only
            rw [ih hsound]

/-- A function applied to what cells resolve to. -/
def applyTo (s : Snapshot) (f : Aggregate) (as : List Address) : Computation (Option Float) := do
  let values ← collect (s.resolve []) as
  let value ← f.apply values
  checkFinite (some value)

/-- Cells outside the snapshot have no value and leave the cache alone, so a function can skip them.
    -/
theorem run_applyTo_filter (hc : s.Sound cache) (f : Aggregate) (as : List Address) :
    (s.applyTo f (as.filter s.contains)).run.run cache = (s.applyTo f as).run.run cache := by
  rw [applyTo, applyTo, run_bind, run_bind, run_collect_filter hc]

/-- A call that stands in none of the cells it names is its function, applied to its cells. -/
theorem evaluate_call {f : Aggregate} {args : List Argument} {text : String}
    (hparse : Formula.parse text =
      .ok ⟨.function f :: .opening :: (args.map Argument.token ++ [.closing])⟩)
    (ha : .cell a ∉ args) :
    s.evaluate text a cache = (s.applyTo f (Argument.allCells s.cellsOf args)).run.run cache := by
  let call : Formula := ⟨.function f :: .opening :: (args.map Argument.token ++ [.closing])⟩
  -- A call names the cells among its arguments and no others.
  have hself : call.references a = false := by
    refine Bool.eq_false_iff.2 fun hreferences => ha ?_
    have hmem := (call.mem_arguments_iff (.cell a)).2 ((call.references_iff a).1 hreferences)
    rw [Formula.arguments,
      arguments_of_derives (.call f args : Derives .operand call.tokens _)] at hmem
    exact hmem
  have hexpression : call.expression = .call f args :=
    Expression.ofTokens_of_derives (.ofProduct (.ofOperand (.call f args)))
  rw [evaluate, evaluateWith, hparse]
  simp only [call, hself, Bool.false_eq_true, if_false, hexpression]
  rw [Expression.evaluate, applyTo, run_bind, run_bind, run_bind, Argument.allCells]
  rcases (collect (s.resolve []) (args.flatMap (Argument.cells s.cellsOf))).run.run cache with
    ⟨_ | values, cache'⟩
  · rfl
  · dsimp only
    cases f.apply values <;> rfl

/-- In a snapshot that fits the grid a function has the same value for a range and for the list of
    all cells of the range, written out row by row, in any cell outside the range and in any
    session: the same number, or the same error. It also leaves the same cache. -/
theorem evaluate_range_eq_cells (s : Snapshot) (hfits : s.Fits) (f : Aggregate)
    {spelling : String} {r : Range} (hread : Range.parse spelling = .ok r)
    (ha : r.contains a = false) (calls : List Call) :
    s.evaluate (f.callText [spelling]) a (s.after ∅ calls) =
      s.evaluate (f.callText (Range.expanded spelling)) a (s.after ∅ calls) := by
  have hrange : Argument.cell a ∉ [Argument.range r] := by simp
  have hcells : Argument.cell a ∉ r.cells.map Argument.cell := by
    intro hmem
    rcases List.mem_map.1 hmem with ⟨b, hb, hsame⟩
    cases hsame
    rw [(r.mem_cells_iff a).1 hb] at ha
    cases ha
  have hlisted : Argument.allCells s.cellsOf (r.cells.map Argument.cell) = r.cells := by
    rw [Argument.allCells, List.flatMap_map]
    exact List.flatMap_singleton' r.cells
  -- What the range has been cut down to is the list without the cells outside.
  have hcut : Argument.allCells s.cellsOf [.range r] = r.cells.filter s.contains := by
    rw [Argument.allCells, List.flatMap_singleton, Argument.cells, hfits.cellsOf_eq]
  rw [evaluate_call (Formula.parse_callText_range f hread) hrange,
    evaluate_call (Formula.parse_callText_expanded f hread) hcells, hcut, hlisted,
    run_applyTo_filter (sound_after sound_empty calls)]

-- The range lies half outside, and inside it is a formula that fails because of a cell outside.
theorem evaluate_range_eq_cells_overhanging :
    let s : Snapshot := .ofRows [[some 1.5, none]] (.ofList [("B1", "=1/A2")])
    let a : Address := ⟨2, 0, by decide, by decide⟩
    let calls : List Call := [.evaluate "=A1" a, .evaluate "=B1" a]
    s.evaluate "=SUM(b2:A1)" a (s.after ∅ calls) =
      s.evaluate "=SUM(A1,B1,A2,B2)" a (s.after ∅ calls) := by
  intro s a calls
  let r : Range := .spanning ⟨1, 1, by decide, by decide⟩ ⟨0, 0, by decide, by decide⟩
  have hread : Range.parse "b2:A1" = .ok r := by cbv
  have hrange : Aggregate.sum.callText ["b2:A1"] = "=SUM(b2:A1)" := by decide
  have hcells : Aggregate.sum.callText (Range.expanded "b2:A1") = "=SUM(A1,B1,A2,B2)" := by cbv
  rw [← hrange, ← hcells]
  exact s.evaluate_range_eq_cells ⟨by decide, by decide⟩ .sum hread
    (by decide : r.contains a = false) calls

end Snapshot

end Worksheet
