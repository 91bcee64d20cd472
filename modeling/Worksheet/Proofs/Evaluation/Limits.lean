import Worksheet.Proofs.Evaluation.Cycle
import Worksheet.Proofs.Evaluation.OnePass
import Worksheet.Proofs.Snapshot.Extraction

/-!
# Evaluation within limits

Evaluation comes to an end, and it is known in advance where. This is said by an evaluator that
counts: it reads the tokens of a formula and resolves its cells in one pass, and whenever it would
exceed a limit it does something else instead, no matter what. Whatever that is, the results are
those of evaluation, so no limit is ever exceeded.

There are four limits. Inside one formula, operands are nested and loops repeated at most as often
as there are tokens, because each time at least one of them has been used up. A walk over a range
visits no more cells than the snapshot has. Cells are resolved inside one another at most once more
than there are formulas. And the cells being resolved are different formula cells of the snapshot;
this is what the third limit rests on, and it holds although cells may depend on each other in a
circle and whatever the cache contains.

The walk finds its last row and its last column in words of 32 bits. The counts of the snapshot fit
in such words, and one is subtracted from a count only if it is not zero.

## Main definitions

* `Limited.operand`, `Limited.sum`: Reading and evaluating with a limit on nesting and repetition.
* `Snapshot.Orderly`: What is always true of the cells being resolved.
* `Limited.resolve`, `Limited.evaluate`: Resolving cells and evaluating formulas within all limits.

## Theorems

* `Limited.sum_eq`: One more than the number of tokens is enough for a formula.
* `Snapshot.Orderly.length_le`: No more cells are being resolved than there are formulas.
* `Limited.resolve_eq`: One more than the number of formulas is enough for a cell.
* `Snapshot.evaluate_within_limits`: Evaluation stays within all limits.
-/

namespace Worksheet

open Grammar

namespace Limited

/-! ## One formula -/

section Reading

variable (beyond : ∀ α : Type, Computation α) (resolve : Address → Computation (Option Float))
  (collectRange : Range → Computation (List Float))

/-- The values of the arguments at the start of the tokens, of which there are fewer than `n`, and
    the tokens behind them. -/
def arguments : Nat → List Token → Computation (List Float × List Token)
  | 0, _ => beyond _
  | n + 1, .cell a :: rest => do
    let value ← resolve a
    let q ← arguments n rest
    return (value.toList ++ q.1, q.2)
  | n + 1, .range r :: rest => do
    let values ← collectRange r
    let q ← arguments n rest
    return (values ++ q.1, q.2)
  | _ + 1, ts => return ([], ts)

/-- The value of a call, from the tokens behind the name of the function. -/
def call (f : Aggregate) (n : Nat) : List Token → Computation (Option Float × List Token)
  | .opening :: ts => do
    let q ← arguments beyond resolve collectRange n ts
    match q.2 with
    | .closing :: behind => do
      let value ← f.apply q.1
      return (some value, behind)
    | _ => throw .invalidExpression
  | _ => throw .invalidExpression

/-- The value with what stands behind it at a level, where fewer than `n` operators may follow. -/
def loop (level : Level) (next : List Token → Computation (Option Float × List Token)) :
    Nat → Option Float → List Token → Computation (Option Float × List Token)
  | 0, _, _ => beyond _
  | n + 1, left, ts =>
    match ts with
    | .operator op :: rest =>
      if op.level = level then do
        let q ← next rest
        let value ← op.apply (left.getD 0.0) (q.1.getD 0.0)
        loop level next n (some value) q.2
      else return (left, .operator op :: rest)
    | ts => return (left, ts)

/-- The value of a product at the start of the tokens. -/
def product (operand : List Token → Computation (Option Float × List Token)) (n : Nat)
    (ts : List Token) : Computation (Option Float × List Token) := do
  let q ← operand ts
  loop beyond .product operand n q.1 q.2

/-- The value of a sum at the start of the tokens. -/
def sum (operand : List Token → Computation (Option Float × List Token)) (n : Nat)
    (ts : List Token) : Computation (Option Float × List Token) := do
  let q ← product beyond operand n ts
  loop beyond .sum (product beyond operand n) n q.1 q.2

/-- The value of an operand at the start of the tokens, where fewer than `n` operands may be nested.
    An operand inside this one starts behind at least one token. -/
def operand : Nat → List Token → Computation (Option Float × List Token)
  | 0, _ => beyond _
  | _ + 1, .number x :: rest => return (some x, rest)
  | _ + 1, .cell a :: rest => do
    let value ← resolve a
    return (value, rest)
  | n + 1, .operator .subtract :: rest => do
    let q ← operand n rest
    return (some (0.0 - q.1.getD 0.0), q.2)
  | n + 1, .opening :: rest => do
    let q ← sum beyond (operand n) n rest
    match q.2 with
    | .closing :: behind => return (q.1, behind)
    | _ => throw .invalidExpression
  | n + 1, .function f :: rest => call beyond resolve collectRange f n rest
  | _ + 1, _ => throw .invalidExpression

/-- The value of all tokens together; none may be left over. -/
def ofTokens (ts : List Token) : Computation (Option Float) := do
  let n := ts.length + 1
  let q ← sum beyond (operand beyond resolve collectRange n) n ts
  if q.2.isEmpty then return q.1 else throw .invalidExpression

end Reading

section Reading

variable {beyond : ∀ α : Type, Computation α} {resolve : Address → Computation (Option Float)}
  {collectRange : Range → Computation (List Float)} {cellsOf : Range → List Address}

/-- With more fuel than tokens, the limited reading of arguments is the unlimited one. -/
theorem arguments_eq (hrange : ∀ r, collectRange r = collect resolve (cellsOf r)) (n : Nat)
    (ts : List Token) (h : ts.length < n) : arguments beyond resolve collectRange n ts =
      Pass.parts <$> Pass.arguments cellsOf resolve ts := by
  rw [Pass.parts_arguments]
  induction n generalizing ts with
  | zero => exact absurd h (Nat.not_lt_zero _)
  | succ n ih =>
      -- The cases are those of the reading: a cell, a range, or something that ends the list.
      fun_cases Parse.arguments ts with
      | case1 a rest =>
          rw [List.length_cons] at h
          rw [arguments, ih rest (by omega)]
          simp [collect, Argument.cells]
      | case2 r rest =>
          rw [List.length_cons] at h
          rw [arguments, ih rest (by omega), hrange]
          simp [collect_append, Argument.cells]
      | case3 ts hcell hrange =>
          rw [arguments]
          · simp [collect]
          · exact hcell
          · exact hrange

/-- With more fuel than tokens, the limited reading of a call is the unlimited one. -/
theorem call_eq (hrange : ∀ r, collectRange r = collect resolve (cellsOf r)) (f : Aggregate)
    (n : Nat) (ts : List Token) (h : ts.length < n) : call beyond resolve collectRange f n ts =
      Pass.parts <$> Pass.call cellsOf resolve f ts := by
  cases ts with
  | nil => rfl
  | cons t rest =>
      cases t with
      | opening =>
          rw [List.length_cons] at h
          rw [Pass.parts_call_eq, ← arguments_eq hrange n rest (by omega)]
          rfl
      | cell a | range r | function g | operator op | number x | closing => rfl

/-- A loop of the evaluator that reads and evaluates in one pass, and its limit: each repetition has
    used up the operator at least. -/
theorem loop_eq {level : Level} {next : List Token → Computation (Option Float × List Token)}
    {passNext : (ts : List Token) → Computation (Pass (Option Float) ts)}
    {more : Option Float → (ts : List Token) → Computation (Pass (Option Float) ts)} {n : Nat}
    (hnext : ∀ ts, ts.length < n → next ts = Pass.parts <$> passNext ts)
    (hstep : ∀ left op rest, op.level = level →
      Pass.parts <$> more left (.operator op :: rest) = (do
        let q ← Pass.parts <$> passNext rest
        let value ← op.apply (left.getD 0.0) (q.1.getD 0.0)
        Pass.parts <$> more (some value) q.2))
    (hend : ∀ left ts, ¬ Parse.GoesOn level ts → Pass.parts <$> more left ts = pure (left, ts))
    (k : Nat) (left : Option Float) (ts : List Token) (hts : ts.length < k) (hk : k ≤ n) :
    loop beyond level next k left ts = Pass.parts <$> more left ts := by
  induction k generalizing left ts with
  | zero => exact absurd hts (Nat.not_lt_zero _)
  | succ k ih =>
      by_cases hon : Parse.GoesOn level ts
      · rcases hon with ⟨op, rest, rfl, hlevel⟩
        rw [List.length_cons] at hts
        rw [loop, hstep left op rest hlevel, if_pos hlevel, hnext rest (by omega), bind_map_left,
          bind_map_left]
        -- What is left after the next operand is shorter, so less fuel is enough for it.
        refine bind_congr fun p => bind_congr fun value => ?_
        have hrest := p.suffix.length_le
        exact ih (some value) p.rest (by omega) (by omega)
      · rw [hend left ts hon]
        -- The loop stops at an operator of another level, or at no operator at all.
        by_cases hoperator : ∃ op rest, ts = .operator op :: rest
        · rcases hoperator with ⟨op, rest, rfl⟩
          rw [loop, if_neg fun hlevel => hon ⟨op, rest, rfl, hlevel⟩]
        · rw [loop]
          exact fun op rest heq => hoperator ⟨op, rest, heq⟩

variable {operandOf : List Token → Computation (Option Float × List Token)} {n : Nat}

/-- With more fuel than tokens, the limited reading of a product is the unlimited one. -/
theorem product_eq
    (hoperand : ∀ ts, ts.length < n →
      operandOf ts = Pass.parts <$> Pass.operand cellsOf resolve ts)
    (ts : List Token) (h : ts.length < n) :
    product beyond operandOf n ts = Pass.parts <$> Pass.product cellsOf resolve ts := by
  rw [product, Pass.parts_product, hoperand ts h, bind_map_left, bind_map_left]
  refine bind_congr fun p => ?_
  have hrest := p.suffix.length_le
  exact loop_eq hoperand (fun _ _ _ => Pass.parts_moreFactors)
    (fun _ _ => Pass.parts_moreFactors_end) n p.value p.rest (by omega) (Nat.le_refl n)

/-- A sum is read and evaluated within its limit, if its operands are. -/
theorem sum_eq
    (hoperand : ∀ ts, ts.length < n →
      operandOf ts = Pass.parts <$> Pass.operand cellsOf resolve ts)
    (ts : List Token) (h : ts.length < n) :
    sum beyond operandOf n ts = Pass.parts <$> Pass.sum cellsOf resolve ts := by
  rw [sum, Pass.parts_sum_eq, product_eq hoperand ts h, bind_map_left, bind_map_left]
  refine bind_congr fun p => ?_
  have hrest := p.suffix.length_le
  exact loop_eq (product_eq hoperand) (fun _ _ _ => Pass.parts_moreTerms)
    (fun _ _ => Pass.parts_moreTerms_end) n p.value p.rest (by omega) (Nat.le_refl n)

/-- With more fuel than tokens, the limited reading of an operand is the unlimited one, by induction
    on the fuel. -/
theorem operand_eq (hrange : ∀ r, collectRange r = collect resolve (cellsOf r)) (n : Nat)
    (ts : List Token) (h : ts.length < n) : operand beyond resolve collectRange n ts =
      Pass.parts <$> Pass.operand cellsOf resolve ts := by
  induction n generalizing ts with
  | zero => exact absurd h (Nat.not_lt_zero _)
  | succ n ih =>
      cases ts with
      | nil =>
          unfold operand Pass.operand
          rfl
      | cons t rest =>
          rw [List.length_cons] at h
          -- One unit of fuel is spent on the token in front, and what follows is shorter by it.
          have hrest : rest.length < n := by omega
          cases t with
          | number x =>
              rw [operand, Pass.operand]
              rfl
          | cell a =>
              rw [operand, Pass.operand]
              simp [Pass.parts]
          | function f => rw [operand, Pass.parts_operand_call, call_eq hrange f n rest hrest]
          | operator op =>
              cases op with
              | subtract => rw [operand, Pass.parts_operand_negation, ih rest hrest]
              | add | multiply | divide =>
                  -- No operand starts with these.
                  unfold operand Pass.operand
                  rfl
          | opening =>
              rw [Pass.parts_operand_group, ← sum_eq ih rest hrest]
              rfl
          | range r | closing =>
              unfold operand Pass.operand
              rfl

/-- One more than the number of tokens is enough to evaluate them all. -/
theorem ofTokens_eq (hrange : ∀ r, collectRange r = collect resolve (cellsOf r))
    (ts : List Token) : ofTokens beyond resolve collectRange ts =
      (Expression.ofTokens ts).evaluate cellsOf resolve := by
  rw [← Pass.ofTokens_eq, ofTokens, Pass.ofTokens,
    sum_eq (fun us hus => operand_eq hrange _ us hus) ts (Nat.lt_succ_self _), bind_map_left]
  rfl

end Reading

end Limited

namespace Snapshot

/-! ## Cells inside one another -/

/-- The cells being resolved are different formula cells of the snapshot. -/
structure Orderly (s : Snapshot) (visited : List String) : Prop where
  /-- No cell is being resolved twice. -/
  nodup : visited.Nodup
  /-- Each has a formula and no number. -/
  computes : ∀ r ∈ visited, ∃ a text, r = Address.text a ∧ s.Computes a text

section Orderly

variable {s : Snapshot} {visited : List String} {a : Address} {text : String}

theorem orderly_nil (s : Snapshot) : s.Orderly [] := ⟨List.nodup_nil, List.forall_mem_nil _⟩

/-- Entering a formula cell that is not being evaluated keeps the visited cells orderly. -/
theorem Orderly.cons (h : s.Orderly visited) (hnew : visited.contains a.text = false)
    (hcomputes : s.Computes a text) : s.Orderly (a.text :: visited) := by
  constructor
  · -- The cell was not visited yet, so nothing is repeated.
    refine List.nodup_cons.2 ⟨fun hmem => ?_, h.nodup⟩
    rw [List.contains_iff_mem.2 hmem] at hnew
    cases hnew
  · intro r hr
    rcases List.mem_cons.1 hr with rfl | hr
    · exact ⟨a, text, rfl, hcomputes⟩
    · exact h.computes r hr

/-- No more cells are being resolved than there are formulas. -/
theorem Orderly.length_le (h : s.Orderly visited) : visited.length ≤ s.formulas.size := by
  rw [← Std.HashMap.length_keys]
  refine (List.subperm_of_subset h.nodup fun r hr => ?_).length_le
  rcases h.computes r hr with ⟨a, text, rfl, hcomputes⟩
  rw [Std.HashMap.mem_keys, Std.HashMap.mem_iff_isSome_getElem?]
  exact Option.isSome_of_eq_some hcomputes.formula?

end Orderly

/-- One step of resolving a cell, given how the formula of a cell is evaluated while others are
    being resolved. -/
def resolveStep (s : Snapshot)
    (formula : List String → String → Address → Computation (Option Float))
    (visited : List String) (a : Address) : Computation (Option Float) := do
  match (← get)[a.text]? with
  | some value => return value
  | none =>
    if visited.contains a.text then throw (.circular a.text)
    else if !s.contains a then return none
    else
      match s.value? a with
      | some x => return some x
      | none =>
        match s.formula? a with
        | none => return none
        | some text => do
          let value ← formula (a.text :: visited) text a
          modify fun cache => cache.insert a.text value
          return value

section Step

variable {s : Snapshot} {visited : List String} {a : Address}

/-- Resolving a cell is one step over the resolving of the cells inside. -/
theorem resolve_eq_step : s.resolve visited a =
    s.resolveStep (fun inside => s.evaluateWith (s.resolve inside)) visited a := by
  rw [resolve, resolveStep]
  -- One check after another; the definition keeps proofs of the checks to justify that it ends.
  refine bind_congr fun cache => ?_
  cases cache[a.text]? with
  | some x => rfl
  | none =>
      dsimp only
      by_cases hvisited : visited.contains a.text = true
      · rw [dif_pos hvisited, if_pos hvisited]
      · rw [dif_neg hvisited, if_neg hvisited]
        by_cases hcontains : (!s.contains a) = true
        · rw [if_pos hcontains, if_pos hcontains]
        · rw [if_neg hcontains, if_neg hcontains]
          cases s.value? a with
          | some x => rfl
          | none =>
              dsimp only
              unfold formula?
              split <;> rename_i hformula <;> rw [hformula]

/-- A formula is evaluated only for a cell that has one and is not being resolved. -/
theorem resolveStep_congr
    {formula formula' : List String → String → Address → Computation (Option Float)}
    (h : visited.contains a.text = false → ∀ text, s.Computes a text →
      formula (a.text :: visited) text a = formula' (a.text :: visited) text a) :
    s.resolveStep formula visited a = s.resolveStep formula' visited a := by
  rw [resolveStep, resolveStep]
  refine bind_congr fun cache => ?_
  cases cache[a.text]? with
  | some x => rfl
  | none =>
      dsimp only
      by_cases hvisited : visited.contains a.text = true
      · rw [if_pos hvisited, if_pos hvisited]
      · rw [if_neg hvisited, if_neg hvisited]
        -- The text is only asked for where the cell computes one.
        rcases s.cell_cases a with hempty | ⟨x, hcontains, hvalue⟩ | ⟨text, hcomputes⟩
        · by_cases hcontains : s.contains a = true
          · rcases hempty hcontains with ⟨hvalue, hformula⟩
            simp only [hvalue, hformula]
          · simp only [Bool.eq_false_of_not_eq_true hcontains, Bool.not_false, if_true]
        · simp only [hvalue]
        · simp only [hcomputes.value?, hcomputes.formula?,
            h (Bool.eq_false_of_not_eq_true hvisited) text hcomputes]

end Step

end Snapshot

namespace Limited

/-- The values of several cells, of which there are no more than `n`. -/
def collectUpTo (beyond : ∀ α : Type, Computation α)
    (resolve : Address → Computation (Option Float)) : Nat → List Address → Computation (List Float)
  | _, [] => return []
  | 0, _ :: _ => beyond _
  | n + 1, a :: rest => do
    let value ← resolve a
    let values ← collectUpTo beyond resolve n rest
    return value.toList ++ values

/-- The value of a formula in a cell, given how to resolve other cells: of a range no more than the
    snapshot has. -/
def evaluateWith (s : Snapshot) (beyond : ∀ α : Type, Computation α)
    (resolve : Address → Computation (Option Float)) (text : String) (a : Address) :
    Computation (Option Float) :=
  match Formula.parse text with
  | .error cause => throw (.malformed cause)
  | .ok f =>
    if f.references a then throw .selfReference
    else do
      let collectRange := fun r => collectUpTo beyond resolve (s.height * s.width) (s.cellsOf r)
      let value ← ofTokens beyond resolve collectRange f.tokens
      Snapshot.checkFinite value

open Classical in
/-- The value of a cell, resolved inside others that are orderly; fewer than `n` may be resolved
    inside it. -/
noncomputable def resolve (s : Snapshot) (beyond : ∀ α : Type, Computation α) :
    Nat → List String → Address → Computation (Option Float)
  | 0, _, _ => beyond _
  | n + 1, visited, a =>
    if s.Orderly visited then
      s.resolveStep (fun inside => evaluateWith s beyond (resolve s beyond n inside)) visited a
    else beyond _

/-- The value of a formula that stands in a cell. Cells are resolved inside one another at most once
    more than there are formulas. -/
noncomputable def evaluate (s : Snapshot) (beyond : ∀ α : Type, Computation α) (text : String)
    (a : Address) : Computation (Option Float) :=
  evaluateWith s beyond (resolve s beyond (s.formulas.size + 1) []) text a

section Limits

variable {s : Snapshot} {beyond : ∀ α : Type, Computation α}
  {resolve : Address → Computation (Option Float)}

/-- A walk within its limit is not cut short. -/
theorem collectUpTo_eq {n : Nat} {as : List Address} (h : as.length ≤ n) :
    collectUpTo beyond resolve n as = collect resolve as := by
  induction as generalizing n with
  | nil => rw [collectUpTo, collect]
  | cons a rest ih =>
      cases n with
      | zero => exact absurd h (Nat.not_succ_le_zero _)
      | succ n => rw [collectUpTo, collect, ih (Nat.le_of_succ_le_succ h)]

/-- A text is evaluated the same with limits, if the cells it uses are. -/
theorem evaluateWith_eq (text : String) (a : Address) :
    evaluateWith s beyond resolve text a = s.evaluateWith resolve text a := by
  -- No walk is longer than the snapshot has cells.
  have hrange : ∀ r, collectUpTo beyond resolve (s.height * s.width) (s.cellsOf r) =
      collect resolve (s.cellsOf r) := fun r => collectUpTo_eq (s.length_cellsOf_le r)
  unfold evaluateWith Snapshot.evaluateWith
  cases Formula.parse text with
  | error cause => rfl
  | ok f =>
      dsimp only
      rw [ofTokens_eq hrange, Formula.expression]

/-- One more than the number of formulas is enough to resolve a cell, with those being resolved
    already counted. -/
theorem resolve_eq (n : Nat) (visited : List String) (a : Address) (horderly : s.Orderly visited)
    (hn : s.formulas.size < n + visited.length) :
    Limited.resolve s beyond n visited a = s.resolve visited a := by
  induction n generalizing visited a with
  | zero =>
      have := horderly.length_le
      omega
  | succ n ih =>
      rw [Limited.resolve, if_pos horderly, Snapshot.resolve_eq_step]
      refine Snapshot.resolveStep_congr fun hnew text hcomputes => ?_
      rw [evaluateWith_eq]
      -- One more cell is visited, and it is a formula cell of its own, so less fuel is enough.
      have hinside : Limited.resolve s beyond n (a.text :: visited) =
          s.resolve (a.text :: visited) := by
        funext b
        refine ih _ b (horderly.cons hnew hcomputes) ?_
        rw [List.length_cons]
        omega
      rw [hinside]

theorem evaluate_eq (text : String) (a : Address) :
    Limited.evaluate s beyond text a = s.evaluateWith (s.resolve []) text a := by
  have hresolve : Limited.resolve s beyond (s.formulas.size + 1) [] = s.resolve [] := by
    funext b
    exact resolve_eq _ [] b s.orderly_nil (Nat.lt_succ_self _)
  rw [Limited.evaluate, evaluateWith_eq, hresolve]

end Limits

end Limited

namespace Snapshot

/-- Evaluation stays within all limits: with any other behaviour beyond them, the outcome and the
    cache are the same, for every formula in every cell and whatever the cache contains. The walk
    over a range visits the cells of the range that lie in the snapshot, and the words in it are the
    numbers they stand for. -/
theorem evaluate_within_limits (s : Snapshot) (hheight : s.height < 2 ^ 32)
    (hwidth : s.width < 2 ^ 32) :
    (∀ (beyond : ∀ α : Type, Computation α) (text : String) (a : Address) (cache : Cache),
      (Limited.evaluate s beyond text a).run.run cache = s.evaluate text a cache) ∧
    (∀ visited, s.Orderly visited → visited.length ≤ s.formulas.size) ∧
    ∀ r : Range, s.cellsOf r = r.cells.filter s.contains ∧
      (s.cellsOf r).length ≤ s.height * s.width ∧
      (0 < s.height → (lastIndex r.last.row s.height).toNat = min r.last.row (s.height - 1)) ∧
      (0 < s.width → (lastIndex r.last.col s.width).toNat = min r.last.col (s.width - 1)) := by
  refine ⟨fun beyond text a cache => ?_, fun _ => Orderly.length_le, fun r => ?_⟩
  · rw [Limited.evaluate_eq, evaluate]
  · refine ⟨(fits_of_lt hheight hwidth).cellsOf_eq r, s.length_cellsOf_le r, fun hpos => ?_,
      fun hpos => ?_⟩
    · exact toNat_lastIndex r.last.row_lt hpos hheight
    · exact toNat_lastIndex r.last.col_lt hpos hwidth

-- Two cells refer to each other; the limits are not exceeded, and evaluating one of them ends with
-- an error.
theorem evaluate_within_limits_of_pair :
    let s : Snapshot := ofRows [[none, none]] (.ofList [("A1", "=B1"), ("B1", "=A1")])
    let a : Address := ⟨0, 0, by decide, by decide⟩
    s.height < 2 ^ 32 ∧ s.width < 2 ^ 32 ∧ s.DependsOnItself a ∧
      ∃ e, ((Limited.evaluate s (fun _ => throw .notFinite) "=B1" a).run.run ∅).1 = .error e := by
  intro s a
  let b : Address := ⟨1, 0, by decide, by decide⟩
  have hheight : s.height < 2 ^ 32 := by decide
  have hwidth : s.width < 2 ^ 32 := by decide
  have htext : a.text = "A1" := by cbv
  have htext' : b.text = "B1" := by cbv
  have hfirst : s.Computes a "=B1" :=
    computes_ofRows (by decide) (by decide) (by decide) (htext ▸ List.mem_cons_self)
  have hsecond : s.Computes b "=A1" :=
    computes_ofRows (by decide) (by decide) (by decide)
      (htext' ▸ List.mem_cons_of_mem _ List.mem_cons_self)
  have hdown : s.Depends a b := ⟨_, hfirst, ⟨[.cell b]⟩, by cbv, Or.inl List.mem_cons_self⟩
  have hback : s.Depends b a := ⟨_, hsecond, ⟨[.cell a]⟩, by cbv, Or.inl List.mem_cons_self⟩
  have hcycle : s.DependsOnItself a := .head hdown (.single hback)
  refine ⟨hheight, hwidth, hcycle, ?_⟩
  -- Nothing goes beyond the limits, so what would happen there does not matter, and the cycle is
  -- found.
  rw [(evaluate_within_limits s hheight hwidth).1]
  exact exists_error_of_dependsOnItself sound_empty hfirst hcycle

end Snapshot

end Worksheet
