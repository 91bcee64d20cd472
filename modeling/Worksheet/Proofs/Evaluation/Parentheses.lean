import Mathlib
import Worksheet.Proofs.Evaluation.Dependency
import Worksheet.Proofs.Evaluation.OnePass
import Worksheet.Proofs.Formula.Parentheses

/-!
# Redundant parentheses

A formula in parentheses is evaluated as it is without them, down to the cache that an evaluation
leaves. This needs no grammar. A formula whose tokens form no expression fails in the end, but what
it resolves and remembers before, and which error comes first, is the same as well.

What may go wrong is that reading meets the new closing parenthesis too early: a list of arguments
could end at it, or a group that has been opened inside, or it could stand where an operand is
missing and change the error there. Trees do not show that this never happens. Behind a list of
arguments that is broken off, its own closing parenthesis is left over, and an expression with gaps
goes on to be read from there, though its evaluation ends at the gap. So the argument follows the
evaluation in one pass, which reads nothing behind a failure.

There the parentheses open in front of a token are just the groups and lists that reading is inside
of. The tokens that are left close all of them, and this is kept by each step that does not fail. At
the end of the tokens nothing is open, so nothing can be closed by one parenthesis more.

Both evaluations are images of a single computation, whose results carry this invariant with them.

## Main definitions

* `Pass.Stop`: Something computed, and tokens left that close what is open.
* `Pass.BeforeClosing`: A computation, and the same with a closing parenthesis behind its tokens.
* `Pass.Spares`: A way of reading that leaves the parenthesis alone.

## Theorems

* `Pass.BeforeClosing.bind`: The parenthesis is left alone by steps one after another.
* `Pass.BeforeClosing.close`: What has been opened is closed by the tokens themselves.
* `Pass.spares_operand`: Operands are read without it.
* `Pass.ofTokens_parenthesized`: All tokens together have one value with it and without.
* `Snapshot.evaluate_parenthesized`: So has a formula.
-/

namespace Worksheet

open Grammar

namespace Pass

variable {α β : Type} {depth depth' n n' : Nat}

/-- What was computed, and the tokens that are left: they close the parentheses that are open, and
    their number is bounded. -/
structure Stop (α : Type) (depth n : Nat) where
  /-- What was computed. -/
  value : α
  /-- The tokens that have not been read. -/
  rest : List Token
  /-- They close what is open. -/
  closes : Closes depth rest
  /-- Reading has added none. -/
  length_le : rest.length ≤ n

namespace Stop

/-- What was computed and what is left. -/
def parts (p : Stop α depth n) : α × List Token := (p.value, p.rest)

/-- The same with a closing parenthesis behind what is left. -/
def closed (p : Stop α depth n) : α × List Token := (p.value, p.rest ++ [.closing])

/-- The same with a weaker bound. -/
def within (p : Stop α depth n) (h : n ≤ n') : Stop α depth n' :=
  ⟨p.value, p.rest, p.closes, Nat.le_trans p.length_le h⟩

end Stop

/-- Two computations that differ in a closing parenthesis behind what the second one leaves. -/
def BeforeClosing (depth n : Nat) (m m' : Computation (α × List Token)) : Prop :=
  ∃ k : Computation (Stop α depth n), m = Stop.parts <$> k ∧ m' = Stop.closed <$> k

/-- With fewer tokens than `n`, which close what is open, a closing parenthesis behind them stays
    behind those that are left. -/
def Spares (n : Nat) (read : List Token → Computation (α × List Token)) : Prop :=
  ∀ depth ts, ts.length < n → Closes depth ts →
    BeforeClosing depth ts.length (read ts) (read (ts ++ [.closing]))

section Steps

variable {m m' : Computation (α × List Token)}

/-- A value and what is left of the tokens, with a parenthesis behind them that closes. -/
theorem beforeClosing_pure {value : α} {rest : List Token} (hcloses : Closes depth rest)
    (hlength : rest.length ≤ n) :
    BeforeClosing depth n (pure (value, rest)) (pure (value, rest ++ [.closing])) := by
  refine ⟨pure ⟨value, rest, hcloses, hlength⟩, ?_, ?_⟩
  · rw [map_pure, Stop.parts]
  · rw [map_pure, Stop.closed]

/-- An error is the same with a parenthesis behind. -/
theorem beforeClosing_throw (e : FormulaError) :
    BeforeClosing depth n (throw e : Computation (α × List Token)) (throw e) :=
  ⟨throw e, rfl, rfl⟩

/-- A bound on how many tokens are left can be raised. -/
theorem BeforeClosing.mono (h : BeforeClosing depth n m m') (hle : n ≤ n') :
    BeforeClosing depth n' m m' := by
  rcases h with ⟨k, rfl, rfl⟩
  refine ⟨(fun p => p.within hle) <$> k, ?_, ?_⟩
  · rw [Functor.map_map]
    rfl
  · rw [Functor.map_map]
    rfl

/-- Two readings in a row see the parenthesis behind the tokens if each of them leaves it alone. -/
theorem BeforeClosing.bind {f f' : α × List Token → Computation (β × List Token)}
    (h : BeforeClosing depth n m m')
    (hf : ∀ value rest, Closes depth rest → rest.length ≤ n →
      BeforeClosing depth' n' (f (value, rest)) (f' (value, rest ++ [.closing]))) :
    BeforeClosing depth' n' (m >>= f) (m' >>= f') := by
  -- At each stop of the first step the second one is an image of some computation.
  rcases h with ⟨k, rfl, rfl⟩
  choose g hg hg' using fun p : Stop α depth n => hf p.value p.rest p.closes p.length_le
  refine ⟨k >>= g, ?_, ?_⟩
  · rw [bind_map_left, map_bind]
    exact bind_congr hg
  · rw [bind_map_left, map_bind]
    exact bind_congr hg'

/-- What is computed without reading a token goes in front of both. -/
theorem beforeClosing_bind_left {f f' : α → Computation (β × List Token)} (k : Computation α)
    (hf : ∀ value, BeforeClosing depth n (f value) (f' value)) :
    BeforeClosing depth n (k >>= f) (k >>= f') := by
  choose g hg hg' using hf
  refine ⟨k >>= g, ?_, ?_⟩
  · rw [map_bind]
    exact bind_congr hg
  · rw [map_bind]
    exact bind_congr hg'

/-- A parenthesis that is open is closed by the tokens that are left, if it is closed at all. -/
theorem BeforeClosing.close (f : α → List Token → Computation (β × List Token))
    (h : BeforeClosing (depth + 1) n m m')
    (hf : ∀ value rest, Closes depth rest → rest.length < n →
      BeforeClosing depth n' (f value rest) (f value (rest ++ [.closing]))) :
    BeforeClosing depth n'
      (m >>= fun q => match q.2 with
        | .closing :: behind => f q.1 behind
        | _ => throw .invalidExpression)
      (m' >>= fun q => match q.2 with
        | .closing :: behind => f q.1 behind
        | _ => throw .invalidExpression) := by
  refine h.bind fun value rest hcloses hlength => ?_
  -- Something is left, so whether a parenthesis closes is seen without the one behind.
  cases hcloses with
  | opening _ => exact beforeClosing_throw _
  | closing hrest => exact hf value _ hrest hlength
  | @other _ t _ _ hclosing _ =>
      cases t with
      | closing => exact absurd rfl hclosing
      | cell a | range r | function g | operator op | number x | opening =>
          exact beforeClosing_throw _

/-- A reading and what follows it spare the closing parenthesis if both do. -/
theorem Spares.bind {read : List Token → Computation (α × List Token)}
    {more : α → List Token → Computation (β × List Token)} (h : Spares n read)
    (hmore : ∀ value, Spares n (more value)) :
    Spares n fun ts => read ts >>= fun q => more q.1 q.2 := by
  intro depth ts hts hcloses
  refine (h depth ts hts hcloses).bind fun value rest hrest hlength => ?_
  exact (hmore value depth rest (Nat.lt_of_le_of_lt hlength hts) hrest).mono hlength

end Steps

end Pass

/-! ## Lists of arguments -/

namespace Parse

variable {ts : List Token}

/-- Arguments hold no parentheses, so what is behind them closes as the whole did. -/
theorem closes_arguments {depth : Nat} (h : Closes depth ts) : Closes depth (arguments ts).2 := by
  fun_induction arguments ts with
  | case1 a ts ih =>
      cases h with
      | other _ _ h => exact ih h
  | case2 r ts ih =>
      cases h with
      | other _ _ h => exact ih h
  | case3 ts => exact h

/-- A list of arguments stops in front of the added parenthesis. -/
theorem arguments_concat (ts : List Token) :
    arguments (ts ++ [.closing]) = ((arguments ts).1, (arguments ts).2 ++ [.closing]) := by
  fun_induction arguments ts with
  | case1 a ts ih =>
      rw [List.cons_append, arguments, ih]
      rfl
  | case2 r ts ih =>
      rw [List.cons_append, arguments, ih]
      rfl
  | case3 ts hcell hrange =>
      -- Whatever ends the list ends it with the parenthesis behind as well.
      cases ts with
      | nil => rfl
      | cons t rest =>
          cases t with
          | cell a => exact absurd rfl (hcell a rest)
          | range r => exact absurd rfl (hrange r rest)
          | function f | operator op | number x | opening | closing => rfl

/-- The added parenthesis continues no chain of operators. -/
theorem goesOn_of_concat {level : Level} (h : GoesOn level (ts ++ [.closing])) :
    GoesOn level ts := by
  rcases h with ⟨op, rest, hts, hlevel⟩
  cases ts with
  | nil => cases hts
  | cons t us => exact ⟨op, us, congrArg (· :: us) (List.cons.inj hts).1, hlevel⟩

end Parse

namespace Pass

section Reading

variable {cellsOf : Range → List Address} {resolve : Address → Computation (Option Float)}
  {depth n : Nat} {ts : List Token}

/-- Arguments are read the same in front of the added parenthesis. -/
theorem beforeClosing_arguments (hcloses : Closes depth ts) :
    BeforeClosing depth ts.length (parts <$> arguments cellsOf resolve ts)
      (parts <$> arguments cellsOf resolve (ts ++ [.closing])) := by
  rw [parts_arguments, parts_arguments, Parse.arguments_concat]
  exact beforeClosing_bind_left _ fun values =>
    beforeClosing_pure (Parse.closes_arguments hcloses) (Parse.arguments_length ts)

/-- A call closes with its own parenthesis, not with the one behind. -/
theorem beforeClosing_call (f : Aggregate) (hcloses : Closes depth ts) :
    BeforeClosing depth ts.length (parts <$> call cellsOf resolve f ts)
      (parts <$> call cellsOf resolve f (ts ++ [.closing])) := by
  cases hcloses with
  | opening hrest =>
      rw [List.cons_append, parts_call_eq, parts_call_eq]
      -- The call ends with a parenthesis of its own, in front of the added one.
      refine .close (fun values behind => do
        let value ← f.apply values
        return (some value, behind)) (beforeClosing_arguments hrest) fun values rest hrest hlt => ?_
      exact beforeClosing_bind_left _ fun value =>
        beforeClosing_pure hrest (Nat.le_succ_of_le (Nat.le_of_lt hlt))
  | nil | closing _ => exact beforeClosing_throw _
  | @other _ t _ hopening _ _ =>
      cases t with
      | opening => exact absurd rfl hopening
      | cell a | range r | function g | operator op | number x | closing =>
          exact beforeClosing_throw _

/-! ## The binary levels -/

/-- A binary level: no operator of the level is the parenthesis, and its operands leave it alone. -/
theorem spares_loop {level : Level}
    {more : Option Float → List Token → Computation (Option Float × List Token)}
    {next : List Token → Computation (Option Float × List Token)}
    (hend : ∀ left ts, ¬ Parse.GoesOn level ts → more left ts = pure (left, ts))
    (hstep : ∀ left op rest, op.level = level → more left (.operator op :: rest) = (do
      let q ← next rest
      let value ← op.apply (left.getD 0.0) (q.1.getD 0.0)
      more (some value) q.2))
    (hnext : Spares n next) : ∀ k ≤ n, ∀ left, Spares k (more left) := by
  intro k
  -- Each round takes an operator at least, so the number of tokens bounds the rounds.
  induction k with
  | zero => exact fun _ left depth ts hts => absurd hts (Nat.not_lt_zero _)
  | succ k ih =>
      intro hk left depth ts hts hcloses
      by_cases hon : Parse.GoesOn level ts
      · rcases hon with ⟨op, rest, rfl, hlevel⟩
        rw [List.length_cons] at hts
        cases hcloses with
        | other _ _ hrest =>
            rw [List.cons_append, hstep _ op _ hlevel, hstep _ op _ hlevel]
            refine (hnext depth rest (by omega) hrest).bind fun right us hus hlength => ?_
            refine beforeClosing_bind_left _ fun value => ?_
            exact (ih (by omega) (some value) depth us (by omega) hus).mono
              (Nat.le_succ_of_le hlength)
      · rw [hend left ts hon, hend left _ (mt Parse.goesOn_of_concat hon)]
        exact beforeClosing_pure hcloses (Nat.le_refl _)

/-- The factors that follow spare the parenthesis if operands do. -/
theorem spares_moreFactors (left : Option Float)
    (hoperand : Spares n fun ts => parts <$> operand cellsOf resolve ts) :
    Spares n fun ts => parts <$> moreFactors cellsOf resolve left ts :=
  spares_loop (fun _ _ => parts_moreFactors_end) (fun _ _ _ => parts_moreFactors) hoperand
    n (Nat.le_refl n) left

/-- The terms that follow spare the parenthesis if products do. -/
theorem spares_moreTerms (left : Option Float)
    (hproduct : Spares n fun ts => parts <$> product cellsOf resolve ts) :
    Spares n fun ts => parts <$> moreTerms cellsOf resolve left ts :=
  spares_loop (fun _ _ => parts_moreTerms_end) (fun _ _ _ => parts_moreTerms) hproduct
    n (Nat.le_refl n) left

/-- A product spares the parenthesis if operands do. -/
theorem spares_product (hoperand : Spares n fun ts => parts <$> operand cellsOf resolve ts) :
    Spares n fun ts => parts <$> product cellsOf resolve ts := by
  simp only [parts_product]
  exact hoperand.bind fun left => spares_moreFactors left hoperand

/-- A sum spares the parenthesis if operands do. -/
theorem spares_sum (hoperand : Spares n fun ts => parts <$> operand cellsOf resolve ts) :
    Spares n fun ts => parts <$> sum cellsOf resolve ts := by
  have hproduct := spares_product hoperand
  simp only [parts_sum_eq]
  exact hproduct.bind fun left => spares_moreTerms left hproduct

/-! ## Operands -/

/-- Operands spare the parenthesis, by induction on how many tokens there are: one in parentheses
    holds a sum of fewer tokens. -/
theorem spares_operand (n : Nat) : Spares n fun ts => parts <$> operand cellsOf resolve ts := by
  -- On the number of tokens, as for the reader: parentheses hold a sum.
  induction n with
  | zero => exact fun depth ts hts => absurd hts (Nat.not_lt_zero _)
  | succ n ih =>
      intro depth ts hts hcloses
      cases hcloses with
      | nil | closing _ =>
          -- No operand starts here, neither at the end of the tokens nor with a parenthesis.
          unfold operand
          exact beforeClosing_throw _
      | @opening _ rest hrest =>
          rw [List.length_cons] at hts
          have hinside := spares_sum ih (depth + 1) rest (by omega) hrest
          dsimp only
          rw [List.cons_append, parts_operand_group, parts_operand_group]
          refine .close (fun value behind => pure (value, behind)) hinside
            fun value behind hbehind hlt => ?_
          exact beforeClosing_pure hbehind (Nat.le_succ_of_le (Nat.le_of_lt hlt))
      | @other _ t rest hopening hclosing hrest =>
          rw [List.length_cons] at hts
          dsimp only
          cases t with
          | number x =>
              rw [List.cons_append, parts_operand_number, parts_operand_number]
              exact beforeClosing_pure hrest (Nat.le_succ _)
          | cell a =>
              rw [List.cons_append, parts_operand_cell, parts_operand_cell]
              exact beforeClosing_bind_left _ fun value => beforeClosing_pure hrest (Nat.le_succ _)
          | function f =>
              rw [List.cons_append, parts_operand_call, parts_operand_call]
              exact (beforeClosing_call f hrest).mono (Nat.le_succ _)
          | operator op =>
              cases op with
              | subtract =>
                  rw [List.cons_append, parts_operand_negation, parts_operand_negation]
                  refine (ih depth rest (by omega) hrest).bind fun value us hus hlength => ?_
                  exact beforeClosing_pure hus (Nat.le_succ_of_le hlength)
              | add | multiply | divide =>
                  unfold operand
                  exact beforeClosing_throw _
          | range r =>
              unfold operand
              exact beforeClosing_throw _
          | opening => exact absurd rfl hopening
          | closing => exact absurd rfl hclosing

/-- All tokens together have the value that they have in parentheses, found by the same
    computation. -/
theorem ofTokens_parenthesized (hcloses : Closes 0 ts) :
    ofTokens cellsOf resolve (.opening :: (ts ++ [.closing])) = ofTokens cellsOf resolve ts := by
  have hsums : BeforeClosing 0 ts.length (parts <$> sum cellsOf resolve ts)
      (parts <$> sum cellsOf resolve (ts ++ [.closing])) :=
    spares_sum (spares_operand (ts.length + 1)) 0 ts (Nat.lt_succ_self _) hcloses
  rcases hsums with ⟨k, hsum, hsum'⟩
  rw [ofTokens_eq_parts, ofTokens_eq_parts, parts_sum_eq, parts_product, parts_operand_group, hsum,
    hsum']
  simp only [bind_assoc]
  rw [bind_map_left, bind_map_left]
  refine bind_congr fun p => ?_
  rcases p with ⟨value, rest, hrest, _⟩
  -- The sum has taken all tokens, or one is left over that closes nothing: nothing is open.
  dsimp only [Stop.parts, Stop.closed]
  cases hrest with
  | nil =>
      rw [List.nil_append, pure_bind, parts_moreFactors_end (Parse.not_goesOn_nil .product),
        pure_bind, parts_moreTerms_end (Parse.not_goesOn_nil .sum), pure_bind]
      rfl
  | opening _ => rfl
  | @other _ t _ _ hclosing _ =>
      cases t with
      | closing => exact absurd rfl hclosing
      | cell a | range r | function f | operator op | number x | opening => rfl

end Reading

end Pass

/-! ## Formulas -/

/-- Parentheses around a formula change nothing about which cells it names. -/
theorem Formula.references_parenthesized (f : Formula) (a : Address) :
    f.parenthesized.references a = f.references a := by
  rw [Bool.eq_iff_iff, references_iff, references_iff, parenthesized]
  simp

/-- Parentheses around a formula change nothing about its value, whatever the ranges and cells stand
    for. -/
theorem Formula.evaluate_expression_parenthesized {f : Formula} (hcloses : Closes 0 f.tokens)
    (cellsOf : Range → List Address) (resolve : Address → Computation (Option Float)) :
    f.parenthesized.expression.evaluate cellsOf resolve =
      f.expression.evaluate cellsOf resolve := by
  rw [expression, expression, ← Pass.ofTokens_eq, ← Pass.ofTokens_eq]
  exact Pass.ofTokens_parenthesized hcloses

/-- A number is no operand of the parenthesis behind it. -/
theorem Expression.ofTokens_number_opening (x : Float) (ts : List Token) :
    ofTokens (.number x :: .opening :: ts) = .broken (.number x) := by
  have hends : ∀ level, ¬ Parse.GoesOn level (.opening :: ts) := by
    rintro level ⟨op, rest, h, _⟩
    cases h
  have hparts := Parse.parts_sum (.number x :: .opening :: ts)
  rw [Parse.parts_product, Parse.parts_operand_number, Parse.parts_moreFactors_end (hends _),
    Parse.parts_moreTerms_end (hends _)] at hparts
  have hread : (Parse.sum (.number x :: .opening :: ts)).expression = .number x :=
    congrArg Prod.fst hparts
  have hrest : (Parse.sum (.number x :: .opening :: ts)).rest = .opening :: ts :=
    congrArg Prod.snd hparts
  simp only [ofTokens, hread, hrest, List.isEmpty_cons, Bool.false_eq_true, if_false]

namespace Snapshot

/-- A text that is a formula stays one when what stands behind its equals sign is put into
    parentheses, and is evaluated to the same outcome with the same cache afterwards, wherever it
    stands and whatever the cache held before. Its tokens need not form an expression. The text with
    the added parentheses opens fewer than `2 ^ 31` of them, as many as are counted correctly. -/
theorem evaluate_parenthesized (s : Snapshot) {body : String} {f : Formula}
    (hfew : body.toList.count '(' + 1 < 2 ^ 31)
    (hparse : Formula.parse ("=" ++ body) = .ok f) (a : Address) (cache : Cache) :
    Formula.parse ("=(" ++ body ++ ")") = .ok f.parenthesized ∧
      s.evaluate ("=(" ++ body ++ ")") a cache = s.evaluate ("=" ++ body) a cache := by
  have hparse' := Formula.parse_parenthesized hfew hparse
  have hcloses := Formula.closes_of_parse (Nat.lt_of_succ_lt hfew) hparse
  refine ⟨hparse', ?_⟩
  -- The two formulas name the same cells, and their expressions are evaluated alike.
  unfold evaluate evaluateWith
  rw [hparse, hparse']
  dsimp only
  rw [f.references_parenthesized, Formula.evaluate_expression_parenthesized hcloses]

-- The last operand is missing, which shows once `A1` has been resolved and remembered. The closing
-- parenthesis then stands in its place.
theorem evaluate_parenthesized_unfinished :
    let s : Snapshot := ofRows [[none]] (.ofList [("A1", "=B1")])
    let a : Address := ⟨0, 0, by decide, by decide⟩
    let c : Address := ⟨2, 0, by decide, by decide⟩
    let ts : List Token := [.function .count, .opening, .cell a, .closing, .operator .add]
    Formula.parse "=COUNT(A1)+ " = .ok ⟨ts⟩ ∧
      Formula.parse "=(COUNT(A1)+ )" = .ok ⟨.opening :: (ts ++ [.closing])⟩ ∧
        s.evaluate "=(COUNT(A1)+ )" c ∅ = s.evaluate "=COUNT(A1)+ " c ∅ := by
  intro s a c ts
  have hparse : Formula.parse ("=" ++ "COUNT(A1)+ ") = .ok ⟨ts⟩ := by cbv
  have hfew : "COUNT(A1)+ ".toList.count '(' + 1 < 2 ^ 31 := by decide
  exact ⟨hparse, evaluate_parenthesized s hfew hparse c ∅⟩

-- A number with `2 ^ 31` parentheses behind it that open and as many that close. Its tokens form no
-- expression. With one parenthesis more around them the text is not even a formula.
theorem evaluate_parenthesized_wrapped :
    let body := String.ofList ('1' :: (List.replicate (2 ^ 31) '(' ++ List.replicate (2 ^ 31) ')'))
    let a : Address := ⟨0, 0, by decide, by decide⟩
    (∃ f, Formula.parse ("=" ++ body) = .ok f) ∧
      (empty.evaluate ("=" ++ body) a ∅).1 = .error .invalidExpression ∧
      (empty.evaluate ("=(" ++ body ++ ")") a ∅).1 =
        .error (.malformed (.unmatchedClosing (2 ^ 31 + 3))) := by
  intro body a
  -- The body is too long to be evaluated, so its length is kept as a successor.
  obtain ⟨n, hn⟩ : ∃ n, n + 1 = 2 ^ 31 := ⟨2 ^ 31 - 1, rfl⟩
  have hbody : body.toList =
      '1' :: (List.replicate (n + 1) '(' ++ List.replicate (n + 1) ')') := by
    rw [hn]
    exact String.toList_ofList
  have hpile := Formula.parse_pile hn hbody
  refine ⟨⟨_, hpile.1⟩, ?_, ?_⟩
  · -- Accepted, the tokens are a number and something behind it, which no tree has.
    have hother : ¬ (Formula.mk (.number (Decimal.toFloat ['1'] []) ::
        (List.replicate (n + 1) .opening ++ List.replicate (n + 1) .closing))).references a =
          true := by
      rw [Formula.references_iff]
      intro hmem
      rcases List.mem_cons.1 hmem with h | h
      · cases h
      · rcases List.mem_append.1 h with h | h <;> cases List.eq_of_mem_replicate h
    rw [evaluate_eq sound_empty, outcomeWith, hpile.1]
    dsimp only
    rw [if_neg hother, Formula.expression, List.replicate_succ, List.cons_append,
      Expression.ofTokens_number_opening]
    rfl
  · rw [evaluate_eq sound_empty, outcomeWith, hpile.2]

end Snapshot

end Worksheet
