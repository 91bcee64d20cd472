import Mathlib
import Worksheet.Proofs.Evaluation.Cache

/-!
# Evaluating while reading

Reading the tokens of a formula and evaluating the expression that was read can be done in one pass:
each function of the reader then hands on a value where it would have handed on an expression, and
gives up where it would have left a gap. A missing operand or parenthesis is met after everything in
front of it has been evaluated. So values are computed, cells resolved and the cache filled before
it turns out that the tokens are no formula, and an error in one of those steps comes first.

Expressions with gaps keep just this order, so the two ways of evaluating are the same computation.

## Main definitions

* `Pass`: A value and the tokens behind what it was computed from.
* `Pass.operand`, `Pass.product`, `Pass.sum`: Evaluating the three levels of the grammar while
  reading them.
* `Pass.ofTokens`: Evaluating all tokens together.

## Theorems

* `Pass.parts_sum`: A sum is read and evaluated in one pass or in two.
* `Pass.ofTokens_eq`: So are all tokens together.
-/

namespace Worksheet

open Grammar

/-- What was computed from the start of a list of tokens, and the tokens behind. -/
structure Pass (α : Type) (ts : List Token) where
  /-- What was computed. -/
  value : α
  /-- The tokens that have not been read. -/
  rest : List Token
  /-- Reading only removes tokens from the front. -/
  suffix : rest <:+ ts

namespace Pass

variable {α : Type} {ts us : List Token}

/-- Something computed from no token. -/
def stay (value : α) (ts : List Token) : Pass α ts := ⟨value, ts, List.suffix_refl ts⟩

/-- The same rest, with something else computed, behind more tokens. -/
def hand {β : Type} (p : Pass α us) (h : us <:+ ts) (value : β) : Pass β ts :=
  ⟨value, p.rest, p.suffix.trans h⟩

/-- The same rest, with something else computed, behind one more token. -/
def behind {β : Type} {t : Token} (p : Pass α ts) (value : β) : Pass β (t :: ts) :=
  p.hand (List.suffix_cons t ts) value

/-- What was computed and what is left, without the proof that nothing was added. -/
def parts (p : Pass α ts) : α × List Token := (p.value, p.rest)

theorem parts_stay (value : α) (ts : List Token) : (stay value ts).parts = (value, ts) := rfl

section Evaluating

variable (cellsOf : Range → List Address) (resolve : Address → Computation (Option Float))

/-- The values of the arguments at the start of the tokens. -/
def arguments : (ts : List Token) → Computation (Pass (List Float) ts)
  | .cell a :: ts => do
    let value ← resolve a
    let p ← arguments ts
    return p.behind (value.toList ++ p.value)
  | .range r :: ts => do
    let values ← collect resolve (cellsOf r)
    let p ← arguments ts
    return p.behind (values ++ p.value)
  | ts => return stay [] ts

/-- The value of a call, from the tokens behind the name of the function. -/
def call (f : Aggregate) : (ts : List Token) → Computation (Pass (Option Float) ts)
  | .opening :: ts => do
    let p ← arguments cellsOf resolve ts
    match h : p.rest with
    | .closing :: behind => do
      let value ← f.apply p.value
      return ⟨some value, behind, by
        have hclosing := p.suffix
        rw [h] at hclosing
        exact (List.suffix_cons _ _).trans (hclosing.trans (List.suffix_cons _ _))⟩
    | _ => throw .invalidExpression
  | _ => throw .invalidExpression

mutual

/-- The value of an operand at the start of the tokens. -/
def operand (ts : List Token) : Computation (Pass (Option Float) ts) :=
  match ts with
  | .number x :: rest => return ⟨some x, rest, List.suffix_cons _ _⟩
  | .cell a :: rest => do
    let value ← resolve a
    return ⟨value, rest, List.suffix_cons _ _⟩
  | .operator .subtract :: rest => do
    let p ← operand rest
    return p.behind (some (0.0 - p.value.getD 0.0))
  | .opening :: rest => do
    let p ← sum rest
    match h : p.rest with
    | .closing :: behind =>
      return ⟨p.value, behind, by
        have hclosing := p.suffix
        rw [h] at hclosing
        exact (List.suffix_cons _ _).trans (hclosing.trans (List.suffix_cons _ _))⟩
    | _ => throw .invalidExpression
  | .function f :: rest => do
    let p ← call cellsOf resolve f rest
    return p.behind p.value
  | _ => throw .invalidExpression
termination_by 5 * ts.length
decreasing_by
  all_goals
    simp only [List.length_cons]
    omega

/-- The value with the factors behind those already computed as `left`. -/
def moreFactors (left : Option Float) (ts : List Token) : Computation (Pass (Option Float) ts) :=
  match ts with
  | .operator op :: rest =>
    if op.level = .product then do
      let p ← operand rest
      let value ← op.apply (left.getD 0.0) (p.value.getD 0.0)
      let q ← moreFactors (some value) p.rest
      return q.hand (p.suffix.trans (List.suffix_cons _ _)) q.value
    else
      return stay left (.operator op :: rest)
  | ts => return stay left ts
termination_by 5 * ts.length + 1
decreasing_by
  · simp only [List.length_cons]
    omega
  · have := p.suffix.length_le
    simp only [List.length_cons]
    omega

/-- The value of a product at the start of the tokens. -/
def product (ts : List Token) : Computation (Pass (Option Float) ts) := do
  let p ← operand ts
  let q ← moreFactors p.value p.rest
  return q.hand p.suffix q.value
termination_by 5 * ts.length + 2
decreasing_by
  · omega
  · have := p.suffix.length_le
    omega

/-- The value with the terms behind those already computed as `left`. -/
def moreTerms (left : Option Float) (ts : List Token) : Computation (Pass (Option Float) ts) :=
  match ts with
  | .operator op :: rest =>
    if op.level = .sum then do
      let p ← product rest
      let value ← op.apply (left.getD 0.0) (p.value.getD 0.0)
      let q ← moreTerms (some value) p.rest
      return q.hand (p.suffix.trans (List.suffix_cons _ _)) q.value
    else
      return stay left (.operator op :: rest)
  | ts => return stay left ts
termination_by 5 * ts.length + 3
decreasing_by
  · simp only [List.length_cons]
    omega
  · have := p.suffix.length_le
    simp only [List.length_cons]
    omega

/-- The value of a sum at the start of the tokens. -/
def sum (ts : List Token) : Computation (Pass (Option Float) ts) := do
  let p ← product ts
  let q ← moreTerms p.value p.rest
  return q.hand p.suffix q.value
termination_by 5 * ts.length + 4
decreasing_by
  · omega
  · have := p.suffix.length_le
    omega

end

/-- The value of all tokens together; none may be left over. -/
def ofTokens (ts : List Token) : Computation (Option Float) := do
  let p ← sum cellsOf resolve ts
  if p.rest.isEmpty then return p.value else throw .invalidExpression

end Evaluating

end Pass

section Steps

variable {α β γ : Type} {resolve : Address → Computation (Option Float)}

/-- Nothing is done behind a failure. -/
theorem throw_bind (e : FormulaError) (f : α → Computation β) :
    (throw e : Computation α) >>= f = throw e := rfl

/-- Values are collected from cells one after the other. -/
theorem collect_append (as bs : List Address) : collect resolve (as ++ bs) = (do
    let xs ← collect resolve as
    let ys ← collect resolve bs
    return xs ++ ys) := by
  induction as with
  | nil => simp [collect]
  | cons a rest ih =>
      simp only [List.cons_append, collect, ih, bind_assoc, pure_bind, List.append_assoc]

end Steps

namespace Pass

variable {cellsOf : Range → List Address} {resolve : Address → Computation (Option Float)}

/-- A reading and the evaluation of what was read, one after the other. -/
def inTurn (cellsOf : Range → List Address) (resolve : Address → Computation (Option Float))
    (p : Expression × List Token) : Computation (Option Float × List Token) := do
  let value ← p.1.evaluate cellsOf resolve
  return (value, p.2)

-- What goes on from a value and a rest does not see the proof that comes with them.
theorem bind_parts {α β : Type} {ts : List Token} (m : Computation (Pass α ts))
    (k : α → List Token → Computation β) :
    (m >>= fun p => k p.value p.rest) = parts <$> m >>= fun q => k q.1 q.2 :=
  (bind_map_left parts m fun q => k q.1 q.2).symm

/-- In one pass the cells of arguments are resolved while these are read, which comes to the same as
    reading all of them first. -/
theorem parts_arguments (ts : List Token) : parts <$> arguments cellsOf resolve ts = (do
    let values ← collect resolve ((Parse.arguments ts).1.flatMap (Argument.cells cellsOf))
    return (values, (Parse.arguments ts).2)) := by
  fun_induction Parse.arguments ts with
  | case1 a ts ih =>
      -- The argument in front is resolved before those behind it.
      have hstep : parts <$> arguments cellsOf resolve (.cell a :: ts) = (do
          let x ← resolve a
          let q ← parts <$> arguments cellsOf resolve ts
          return (x.toList ++ q.1, q.2)) := by
        simp only [arguments, map_bind, map_pure]
        exact bind_congr fun x => bind_parts _ fun values rest => pure (x.toList ++ values, rest)
      simp [hstep, ih, collect, Argument.cells]
  | case2 r ts ih =>
      have hstep : parts <$> arguments cellsOf resolve (.range r :: ts) = (do
          let xs ← collect resolve (cellsOf r)
          let q ← parts <$> arguments cellsOf resolve ts
          return (xs ++ q.1, q.2)) := by
        simp only [arguments, map_bind, map_pure]
        exact bind_congr fun xs => bind_parts _ fun values rest => pure (xs ++ values, rest)
      simp [hstep, ih, collect_append, Argument.cells]
  | case3 ts hcell hrange =>
      rw [arguments]
      · simp [collect, parts_stay]
      · exact hcell
      · exact hrange

/-- A function call, once its arguments have been read. -/
theorem parts_call_eq (f : Aggregate) (ts : List Token) :
    parts <$> call cellsOf resolve f (.opening :: ts) = (do
      let q ← parts <$> arguments cellsOf resolve ts
      match q.2 with
      | .closing :: behind => do
        let value ← f.apply q.1
        return (some value, behind)
      | _ => throw .invalidExpression) := by
  rw [call, map_bind, bind_map_left]
  -- Only the token behind the arguments matters.
  refine bind_congr fun p => ?_
  rcases p with ⟨values, rest, hle⟩
  cases rest with
  | nil => rfl
  | cons t behind =>
      cases t with
      | closing => simp only [map_bind, map_pure, parts]
      | cell a | range r | function g | operator op | number x | opening => rfl

/-- A call resolves its arguments before it is seen whether the list ends as it should. -/
theorem parts_call (f : Aggregate) (ts : List Token) :
    parts <$> call cellsOf resolve f ts = inTurn cellsOf resolve (Parse.call f ts).parts := by
  unfold Parse.call
  split
  · rename_i ts
    rw [parts_call_eq, parts_arguments]
    split
    · rename_i args rest hargs
      simp [inTurn, Parse.parts, Expression.evaluate, hargs]
    · rename_i args rest hclosing hargs
      simp [inTurn, Parse.parts, Expression.evaluate, hargs]
  · rename_i hopening
    rw [call]
    · rfl
    · exact hopening

/-! ## The binary levels -/

/-- An operator of the level is applied as soon as its operand has been read. -/
theorem parts_moreFactors {left : Option Float} {op : Operator} {rest : List Token}
    (h : op.level = .product) :
    parts <$> moreFactors cellsOf resolve left (.operator op :: rest) = (do
      let q ← parts <$> operand cellsOf resolve rest
      let value ← op.apply (left.getD 0.0) (q.1.getD 0.0)
      parts <$> moreFactors cellsOf resolve (some value) q.2) := by
  rw [moreFactors, if_pos h]
  simp only [map_bind, map_pure, bind_map_left]
  refine bind_congr fun p => bind_congr fun value => ?_
  exact (map_eq_pure_bind _ _).symm

/-- Any other token is left to the level above. -/
theorem parts_moreFactors_end {left : Option Float} {ts : List Token}
    (h : ¬ Parse.GoesOn .product ts) :
    parts <$> moreFactors cellsOf resolve left ts = pure (left, ts) := by
  rw [moreFactors.eq_def]
  split
  · rename_i op rest
    rw [if_neg fun hlevel => h ⟨op, rest, rfl, hlevel⟩]
    rfl
  · rfl

/-- A product is an operand and what goes on behind it, as when reading. -/
theorem parts_product (ts : List Token) : parts <$> product cellsOf resolve ts = (do
    let q ← parts <$> operand cellsOf resolve ts
    parts <$> moreFactors cellsOf resolve q.1 q.2) := by
  rw [product]
  simp only [map_bind, map_pure, bind_map_left]
  refine bind_congr fun p => ?_
  exact (map_eq_pure_bind _ _).symm

/-- The same one level higher, where operands are products. -/
theorem parts_moreTerms {left : Option Float} {op : Operator} {rest : List Token}
    (h : op.level = .sum) :
    parts <$> moreTerms cellsOf resolve left (.operator op :: rest) = (do
      let q ← parts <$> product cellsOf resolve rest
      let value ← op.apply (left.getD 0.0) (q.1.getD 0.0)
      parts <$> moreTerms cellsOf resolve (some value) q.2) := by
  rw [moreTerms, if_pos h]
  simp only [map_bind, map_pure, bind_map_left]
  refine bind_congr fun p => bind_congr fun value => ?_
  exact (map_eq_pure_bind _ _).symm

/-- Any other token ends the sum. -/
theorem parts_moreTerms_end {left : Option Float} {ts : List Token}
    (h : ¬ Parse.GoesOn .sum ts) :
    parts <$> moreTerms cellsOf resolve left ts = pure (left, ts) := by
  rw [moreTerms.eq_def]
  split
  · rename_i op rest
    rw [if_neg fun hlevel => h ⟨op, rest, rfl, hlevel⟩]
    rfl
  · rfl

/-- A sum is a product and what goes on behind it. -/
theorem parts_sum_eq (ts : List Token) : parts <$> sum cellsOf resolve ts = (do
    let q ← parts <$> product cellsOf resolve ts
    parts <$> moreTerms cellsOf resolve q.1 q.2) := by
  rw [sum]
  simp only [map_bind, map_pure, bind_map_left]
  refine bind_congr fun p => ?_
  exact (map_eq_pure_bind _ _).symm

/-- To go on from a tree is to evaluate it and to go on with its value. -/
theorem bind_inTurn {β : Type} (p : Expression × List Token)
    (k : Option Float × List Token → Computation β) : (inTurn cellsOf resolve p >>= k) = (do
      let value ← p.1.evaluate cellsOf resolve
      k (value, p.2)) := by
  simp only [inTurn, bind_assoc, pure_bind]

/-- A binary level: operators of the level, each with an operand behind it. Applying each operator
    once its right operand has been read is evaluating the tree that grows to the right of what
    there is. -/
theorem inTurn_loop {level : Level}
    (more : Option Float → List Token → Computation (Option Float × List Token))
    (next : List Token → Computation (Option Float × List Token))
    (readMore : Expression → List Token → Expression × List Token)
    (readNext : List Token → Expression × List Token) {n : Nat}
    (hend : ∀ left ts, ¬ Parse.GoesOn level ts → more left ts = pure (left, ts))
    (hreadEnd : ∀ e ts, ¬ Parse.GoesOn level ts → readMore e ts = (e, ts))
    (hstep : ∀ left op rest, op.level = level → more left (.operator op :: rest) = (do
      let q ← next rest
      let value ← op.apply (left.getD 0.0) (q.1.getD 0.0)
      more (some value) q.2))
    (hreadStep : ∀ e op rest, op.level = level → readMore e (.operator op :: rest) =
      readMore (.binary op e (readNext rest).1) (readNext rest).2)
    (hlength : ∀ ts, (readNext ts).2.length ≤ ts.length)
    (hnext : ∀ ts, ts.length < n → next ts = inTurn cellsOf resolve (readNext ts)) :
    ∀ (k : Nat) (e : Expression) (ts : List Token), ts.length ≤ k → k ≤ n →
      (e.evaluate cellsOf resolve >>= fun left => more left ts) =
        inTurn cellsOf resolve (readMore e ts) := by
  -- Where the tokens do not go on at this level, both readings stop with what they have.
  have hstop : ∀ e ts, ¬ Parse.GoesOn level ts →
      (e.evaluate cellsOf resolve >>= fun left => more left ts) =
        inTurn cellsOf resolve (readMore e ts) := by
    intro e ts h
    rw [hreadEnd e ts h, inTurn]
    exact bind_congr fun left => hend left ts h
  intro k
  induction k with
  | zero =>
      intro e ts hts _
      rw [List.eq_nil_of_length_eq_zero (Nat.le_zero.1 hts)]
      exact hstop e [] (Parse.not_goesOn_nil level)
  | succ k ih =>
      intro e ts hts hk
      by_cases hon : Parse.GoesOn level ts
      · rcases hon with ⟨op, rest, rfl, hlevel⟩
        rw [List.length_cons] at hts
        -- One round of the loop: the next operand leaves fewer tokens, for which the hypothesis
        -- holds.
        have hrest := hlength rest
        have hmore := ih (.binary op e (readNext rest).1) (readNext rest).2 (by omega) (by omega)
        rw [hreadStep e op rest hlevel, ← hmore, Expression.evaluate]
        simp only [hstep _ op rest hlevel, hnext rest (by omega), bind_inTurn, bind_assoc,
          pure_bind]
      · exact hstop e ts hon

/-- A loop that evaluates while it reads does what its tree does. The tree has grown to the left, so
    the loop is entered with the value of what has been read. -/
theorem inTurn_moreFactors {n : Nat} (hoperand : ∀ ts, ts.length < n →
      parts <$> operand cellsOf resolve ts = inTurn cellsOf resolve (Parse.operand ts).parts) :
    ∀ (k : Nat) (e : Expression) (ts : List Token), ts.length ≤ k → k ≤ n →
      (e.evaluate cellsOf resolve >>= fun left => parts <$> moreFactors cellsOf resolve left ts) =
        inTurn cellsOf resolve (Parse.moreFactors e ts).parts :=
  inTurn_loop (fun left ts => parts <$> moreFactors cellsOf resolve left ts)
    (fun ts => parts <$> operand cellsOf resolve ts) (fun e ts => (Parse.moreFactors e ts).parts)
    (fun ts => (Parse.operand ts).parts) (fun _ _ => parts_moreFactors_end)
    (fun _ _ => Parse.parts_moreFactors_end) (fun _ _ _ => parts_moreFactors)
    (fun _ _ _ => Parse.parts_moreFactors) (fun ts => (Parse.operand ts).length_le) hoperand

/-- The same loop over products. -/
theorem inTurn_moreTerms {n : Nat} (hproduct : ∀ ts, ts.length < n →
      parts <$> product cellsOf resolve ts = inTurn cellsOf resolve (Parse.product ts).parts) :
    ∀ (k : Nat) (e : Expression) (ts : List Token), ts.length ≤ k → k ≤ n →
      (e.evaluate cellsOf resolve >>= fun left => parts <$> moreTerms cellsOf resolve left ts) =
        inTurn cellsOf resolve (Parse.moreTerms e ts).parts :=
  inTurn_loop (fun left ts => parts <$> moreTerms cellsOf resolve left ts)
    (fun ts => parts <$> product cellsOf resolve ts) (fun e ts => (Parse.moreTerms e ts).parts)
    (fun ts => (Parse.product ts).parts) (fun _ _ => parts_moreTerms_end)
    (fun _ _ => Parse.parts_moreTerms_end) (fun _ _ _ => parts_moreTerms)
    (fun _ _ _ => Parse.parts_moreTerms) (fun ts => (Parse.product ts).length_le) hproduct

/-- If operands are evaluated like their trees, so are products of them. -/
theorem parts_product_of {n : Nat} (hoperand : ∀ ts, ts.length ≤ n →
      parts <$> operand cellsOf resolve ts = inTurn cellsOf resolve (Parse.operand ts).parts)
    (ts : List Token) (hts : ts.length ≤ n) :
    parts <$> product cellsOf resolve ts = inTurn cellsOf resolve (Parse.product ts).parts := by
  rw [parts_product, hoperand ts hts, bind_inTurn, Parse.parts_product]
  exact inTurn_moreFactors (fun us hus => hoperand us (Nat.le_of_lt hus)) n _ _
    (Nat.le_trans (Parse.operand ts).length_le hts) (Nat.le_refl n)

/-- If operands are evaluated like their trees, so are sums of products of them. -/
theorem parts_sum_of {n : Nat} (hoperand : ∀ ts, ts.length ≤ n →
      parts <$> operand cellsOf resolve ts = inTurn cellsOf resolve (Parse.operand ts).parts)
    (ts : List Token) (hts : ts.length ≤ n) :
    parts <$> sum cellsOf resolve ts = inTurn cellsOf resolve (Parse.sum ts).parts := by
  rw [parts_sum_eq, parts_product_of hoperand ts hts, bind_inTurn, Parse.parts_sum]
  exact inTurn_moreTerms (fun us hus => parts_product_of hoperand us (Nat.le_of_lt hus)) n _ _
    (Nat.le_trans (Parse.product ts).length_le hts) (Nat.le_refl n)

/-! ## Operands -/

theorem parts_operand_number (x : Float) (rest : List Token) :
    parts <$> operand cellsOf resolve (.number x :: rest) = pure (some x, rest) := by
  rw [operand]
  rfl

theorem parts_operand_cell (a : Address) (rest : List Token) :
    parts <$> operand cellsOf resolve (.cell a :: rest) = (do
      let value ← resolve a
      return (value, rest)) := by
  rw [operand]
  simp only [map_bind, map_pure, parts]

/-- The sign is applied to the operand behind it; an empty cell counts as zero. -/
theorem parts_operand_negation (rest : List Token) :
    parts <$> operand cellsOf resolve (.operator .subtract :: rest) = (do
      let q ← parts <$> operand cellsOf resolve rest
      return (some (0.0 - q.1.getD 0.0), q.2)) := by
  rw [operand]
  simp only [map_bind, map_pure, bind_map_left]
  rfl

theorem parts_operand_call (f : Aggregate) (rest : List Token) :
    parts <$> operand cellsOf resolve (.function f :: rest) =
      parts <$> call cellsOf resolve f rest := by
  rw [operand]
  simp only [map_bind, map_pure]
  exact (map_eq_pure_bind _ _).symm

/-- The sum in a group is evaluated before its parenthesis is missed. -/
theorem parts_operand_group (rest : List Token) :
    parts <$> operand cellsOf resolve (.opening :: rest) = (do
      let q ← parts <$> sum cellsOf resolve rest
      match q.2 with
      | .closing :: behind => return (q.1, behind)
      | _ => throw .invalidExpression) := by
  rw [operand, map_bind, bind_map_left]
  refine bind_congr fun p => ?_
  rcases p with ⟨value, rest, hle⟩
  cases rest with
  | nil => rfl
  | cons t behind => cases t <;> rfl

/-- Operands contain sums of fewer tokens, so the induction is on the number of tokens. -/
theorem parts_operand (n : Nat) : ∀ ts : List Token, ts.length ≤ n →
    parts <$> operand cellsOf resolve ts = inTurn cellsOf resolve (Parse.operand ts).parts := by
  -- On the number of tokens, as for the reader: parentheses hold a sum.
  induction n with
  | zero =>
      intro ts hts
      rw [List.eq_nil_of_length_eq_zero (Nat.le_zero.1 hts)]
      unfold operand Parse.operand
      rfl
  | succ n ih =>
      intro ts hts
      cases ts with
      | nil =>
          unfold operand Parse.operand
          rfl
      | cons t rest =>
          rw [List.length_cons] at hts
          have hrest : rest.length ≤ n := by omega
          cases t with
          | number x =>
              rw [parts_operand_number, Parse.parts_operand_number]
              rfl
          | cell a =>
              rw [parts_operand_cell, Parse.parts_operand_cell]
              rfl
          | function f => rw [parts_operand_call, Parse.parts_operand_call, parts_call]
          | operator op =>
              cases op with
              | subtract =>
                  rw [parts_operand_negation, ih rest hrest, Parse.parts_operand_negation]
                  simp [inTurn, Expression.evaluate]
              | add | multiply | divide =>
                  unfold operand Parse.operand
                  rfl
          | opening =>
              rw [parts_operand_group, parts_sum_of ih rest hrest, bind_inTurn]
              by_cases hclosed : ∃ behind, (Parse.sum rest).parts.2 = .closing :: behind
              · rcases hclosed with ⟨behind, hbehind⟩
                rw [Parse.parts_operand_group (Prod.ext rfl hbehind), hbehind]
                rfl
              · have hbroken : ∀ behind, (Parse.sum rest).parts.2 ≠ .closing :: behind :=
                  fun behind h => hclosed ⟨behind, h⟩
                rw [Parse.parts_operand_broken hbroken]
                simp only [inTurn, Expression.evaluate, bind_assoc]
                exact bind_congr fun value => (throw_bind _ _).symm
          | range r | closing =>
              unfold operand Parse.operand
              rfl

/-- Reading a sum and evaluating it can be done in one pass. -/
theorem parts_sum (ts : List Token) :
    parts <$> sum cellsOf resolve ts = inTurn cellsOf resolve (Parse.sum ts).parts :=
  parts_sum_of (parts_operand ts.length) ts (Nat.le_refl _)

/-- Tokens that are left over show only in the end. -/
theorem ofTokens_eq_parts (ts : List Token) : ofTokens cellsOf resolve ts = (do
    let q ← parts <$> sum cellsOf resolve ts
    if q.2.isEmpty then return q.1 else throw .invalidExpression) :=
  bind_parts _ fun value rest => if rest.isEmpty then pure value else throw .invalidExpression

/-- The value of all tokens is that of the expression they form, found by the same computation. -/
theorem ofTokens_eq (ts : List Token) :
    ofTokens cellsOf resolve ts = (Expression.ofTokens ts).evaluate cellsOf resolve := by
  rw [ofTokens_eq_parts, parts_sum, bind_inTurn]
  unfold Expression.ofTokens
  by_cases hempty : (Parse.sum ts).rest.isEmpty = true
  · simp [Parse.parts, hempty]
  · simp only [Parse.parts, hempty, Expression.evaluate, Bool.false_eq_true, if_false]

end Pass

end Worksheet
