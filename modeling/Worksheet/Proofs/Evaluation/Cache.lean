import Worksheet.Proofs.Evaluation.Uncached

/-!
# Evaluation with a cache

A cache is sound when every value in it is that of the cell it stands under. Evaluation from a
sound cache has the outcome of evaluation without one, errors included, and leaves a sound cache:
what it adds has been computed, whether or not the whole evaluation succeeds afterwards.

What is found in a cache skips the search for cycles. Nothing is lost by that: a cell with a value
lies on no cycle, so it is not on the trail, and neither is any cell that its formula needs.

## Main definitions

* `Follows`: A computation has an outcome from every cache of a kind, and leaves one of this kind.
* `Snapshot.Sound`: The caches that hold nothing but values of their cells.

## Theorems

* `Expression.follows_outcome`: Expressions follow their cells.
* `Snapshot.resolve_follows`: A cell is resolved to its outcome.
* `Snapshot.evaluate_eq`: A formula has the same outcome with and without a cache.
* `Snapshot.sound_evaluate`: The cache afterwards is sound.
-/

namespace Worksheet

open Relation Grammar

variable {α β : Type} {P : Cache → Prop}

/-- From every cache of a kind the computation has the outcome, and leaves a cache of this kind. -/
def Follows (P : Cache → Prop) (m : Computation α) (o : Except FormulaError α) : Prop :=
  ∀ cache, P cache → (m.run.run cache).1 = o ∧ P (m.run.run cache).2

theorem follows_pure (x : α) : Follows P (pure x) (.ok x) := fun _ hc => ⟨rfl, hc⟩

/-- An error leaves the cache as it is. -/
theorem follows_throw (e : FormulaError) : Follows P (throw e : Computation α) (.error e) :=
  fun _ hc => ⟨rfl, hc⟩

/-- What needs no cache leaves it alone. -/
theorem follows_lift (o : Except FormulaError α) : Follows P (liftM o) o := fun _ hc => ⟨rfl, hc⟩

-- A step that fails still hands on its cache.
theorem run_bind (m : Computation α) (f : α → Computation β) (cache : Cache) :
    (m >>= f).run.run cache = match m.run.run cache with
      | (.ok x, cache') => (f x).run.run cache'
      | (.error e, cache') => (.error e, cache') := by
  rw [ExceptT.run_bind, StateT.run_bind]
  change (match m.run.run cache with | (result, cache') => _) = _
  rcases m.run.run cache with ⟨_ | x, cache'⟩ <;> rfl

theorem run_get_bind (f : Cache → Computation β) (cache : Cache) :
    (get >>= f).run.run cache = (f cache).run.run cache := rfl

/-- One computation after another follows one outcome after another, so only the steps have to be
    looked at. -/
theorem Follows.bind {m : Computation α} {o : Except FormulaError α} {f : α → Computation β}
    {g : α → Except FormulaError β} (hm : Follows P m o)
    (hf : ∀ x, o = .ok x → Follows P (f x) (g x)) : Follows P (m >>= f) (o >>= g) := by
  -- The outcome of the first step decides which cache the second one starts from.
  intro cache hc
  rcases hm cache hc with ⟨houtcome, hcache⟩
  rw [run_bind]
  rcases hresult : m.run.run cache with ⟨result, cache'⟩
  rw [hresult] at houtcome hcache
  cases houtcome
  cases result with
  | error e => exact ⟨rfl, hcache⟩
  | ok x => exact hf x rfl cache' hcache

/-- Collecting a list of cells gathers what each of them is. -/
theorem collect_follows {resolve : Address → Computation (Option Float)} {cell : Address → Outcome}
    {as : List Address} (h : ∀ a ∈ as, Follows P (resolve a) (cell a)) :
    Follows P (collect resolve as) (gather cell as) := by
  induction as with
  | nil => exact follows_pure []
  | cons a rest ih =>
      refine Follows.bind (h a List.mem_cons_self) fun value _ => ?_
      refine Follows.bind (ih fun b hb => h b (List.mem_cons_of_mem _ hb)) fun values _ => ?_
      exact follows_pure _

namespace Expression

/-- An expression has the outcome of its cells, whatever the cache holds. -/
theorem follows_outcome {cellsOf : Range → List Address}
    {resolve : Address → Computation (Option Float)} {cell : Address → Outcome} {e : Expression}
    (h : ∀ a ∈ Argument.allCells cellsOf e.arguments, Follows P (resolve a) (cell a)) :
    Follows P (e.evaluate cellsOf resolve) (e.outcome cellsOf cell) := by
  induction e with
  | number x => exact follows_pure _
  | cell a => exact h a (List.mem_singleton_self a)
  | negation operand ih => exact Follows.bind (ih h) fun value _ => follows_pure _
  | binary op left right ihl ihr =>
      -- The left side first, then the right, then the operation, which does not look at the cache.
      have hleft := ihl fun a ha => h a (Snapshot.mem_allCells_binary.2 (Or.inl ha))
      have hright := ihr fun a ha => h a (Snapshot.mem_allCells_binary.2 (Or.inr ha))
      refine Follows.bind hleft fun x _ => ?_
      refine Follows.bind hright fun y _ => ?_
      exact Follows.bind (follows_lift _) fun z _ => follows_pure _
  | call f args =>
      refine Follows.bind (collect_follows h) fun values _ => ?_
      exact Follows.bind (follows_lift _) fun z _ => follows_pure _
  | missing => exact follows_throw _
  | broken e ih => exact Follows.bind (ih h) fun _ _ => follows_throw _
  | brokenCall args => exact Follows.bind (collect_follows h) fun _ _ => follows_throw _

end Expression

namespace Snapshot

variable {s : Snapshot} {a : Address}

/-- A text has the outcome of the cells it uses. -/
theorem evaluateWith_follows {resolve : Address → Computation (Option Float)}
    {cell : Address → Outcome} {text : String}
    (h : ∀ b, s.Uses text b → Follows P (resolve b) (cell b)) :
    Follows P (s.evaluateWith resolve text a) (s.outcomeWith cell text a) := by
  unfold evaluateWith outcomeWith
  cases hparse : Formula.parse text with
  | error cause => exact follows_throw _
  | ok f =>
      by_cases hself : f.references a = true
      · simp only [if_pos hself]
        exact follows_throw _
      · simp only [if_neg hself]
        -- The cells of the expression are among those the text uses, and the check leaves the cache
        -- alone.
        refine Follows.bind ?_ fun value _ => follows_lift _
        exact Expression.follows_outcome fun b hb => h b (uses_of_mem_expression hparse hb)

/-- A cache that holds nothing but values of formula cells, each under the written form of its
    address. -/
def Sound (s : Snapshot) (cache : Cache) : Prop :=
  ∀ r x, cache[r]? = some x → ∃ a text, r = a.text ∧ s.Computes a text ∧ s.Evaluates (.cell a) x

/-- An empty cache is right about everything it holds. -/
theorem sound_empty : s.Sound ∅ := by
  intro r x h
  rw [Std.HashMap.getElem?_empty] at h
  cases h

/-- Storing a cell's own value keeps a cache right. -/
theorem Sound.insert {cache : Cache} {text : String} {x : Option Float} (h : s.Sound cache)
    (hcomputes : s.Computes a text) (hvalue : s.Evaluates (.cell a) x) :
    s.Sound (cache.insert a.text x) := by
  intro r y hy
  rw [Std.HashMap.getElem?_insert] at hy
  -- The new entry is right by assumption, and the others have not changed.
  by_cases hr : a.text = r
  · rw [if_pos (beq_iff_eq.2 hr), Option.some.injEq] at hy
    exact ⟨a, text, hr.symm, hcomputes, hy ▸ hvalue⟩
  · rw [if_neg fun h => hr (beq_iff_eq.1 h)] at hy
    exact h r y hy

/-- All that the resolution of a cell does. -/
theorem run_resolve (visited : List String) (cache : Cache) :
    (s.resolve visited a).run.run cache = match cache[a.text]? with
      | some x => (.ok x, cache)
      | none =>
        if visited.contains a.text then (.error (.circular a.text), cache)
        else if !s.contains a then (.ok none, cache)
        else match s.value? a with
          | some x => (.ok (some x), cache)
          | none => match s.formula? a with
            | none => (.ok none, cache)
            | some text =>
              match (s.evaluateWith (s.resolve (a.text :: visited)) text a).run.run cache with
              | (.ok x, cache') => (.ok x, cache'.insert a.text x)
              | (.error e, cache') => (.error e, cache') := by
  -- One check after another, in the order of the definition; the two sides agree in each branch.
  rw [resolve, run_get_bind]
  cases cache[a.text]? with
  | some x => rfl
  | none =>
      dsimp only
      by_cases hvisited : visited.contains a.text = true
      · rw [dif_pos hvisited, if_pos hvisited]
        rfl
      · rw [dif_neg hvisited, if_neg hvisited]
        by_cases hcontains : (!s.contains a) = true
        · rw [if_pos hcontains, if_pos hcontains]
          rfl
        · rw [if_neg hcontains, if_neg hcontains]
          cases s.value? a with
          | some x => rfl
          | none =>
              dsimp only
              unfold formula?
              split
              · rename_i hformula
                rw [hformula]
                rfl
              · rename_i text hformula
                rw [hformula, run_bind]
                dsimp only
                rcases (s.evaluateWith (s.resolve (a.text :: visited)) text a).run.run cache with
                  ⟨_ | x, cache'⟩ <;> rfl

/-- A cell is resolved to its outcome, if the trail is a chain of cells that depend on it. -/
theorem resolve_follows : ∀ (trail : List Address) (a : Address),
    (∀ t ∈ trail, TransGen s.Depends t a) →
      Follows s.Sound (s.resolve (trail.map Address.text) a) (s.outcome trail a) := by
  refine trail_induction (s := s) fun trail ih a htrail cache hc => ?_
  rw [run_resolve]
  cases hcached : cache[a.text]? with
  | some x =>
      -- A cell with a value is on no cycle, so no cell on the trail is within its reach.
      rcases hc _ x hcached with ⟨b, text, htext, _, hvalue⟩
      rw [← Address.text_injective htext] at hvalue
      refine ⟨(outcome_of_evaluates trail a x (fun t ht hreach => ?_) hvalue).symm, hc⟩
      exact not_dependsOnItself_of_evaluates hvalue (TransGen.trans_right hreach (htrail t ht))
  | none =>
      dsimp only
      -- From here on the two evaluations make the same choices.
      by_cases ha : a ∈ trail
      · rw [if_pos (contains_map_text.2 ha), outcome_of_mem ha]
        exact ⟨rfl, hc⟩
      · rw [if_neg fun h => ha (contains_map_text.1 h)]
        rcases s.cell_cases a with hempty | ⟨x, hcontains, hvalue⟩ | ⟨text, hcomputes⟩
        · rw [outcome_of_isEmpty ha hempty]
          by_cases hcontains : s.contains a = true
          · rcases hempty hcontains with ⟨hvalue, hformula⟩
            simp only [hcontains, Bool.not_true, Bool.false_eq_true, if_false, hvalue, hformula,
              true_and]
            exact hc
          · simp only [Bool.eq_false_of_not_eq_true hcontains, Bool.not_false, if_true,
              true_and]
            exact hc
        · rw [outcome_of_value? ha hcontains hvalue]
          simp only [hcontains, Bool.not_true, Bool.false_eq_true, if_false, hvalue, true_and]
          exact hc
        · have hfollows : Follows s.Sound
              (s.evaluateWith (s.resolve ((a :: trail).map Address.text)) text a)
              (s.outcomeWith (s.outcome (a :: trail)) text a) :=
            evaluateWith_follows fun b huses =>
              ih a text ha hcomputes b (chain_cons htrail ⟨text, hcomputes, huses⟩)
          rcases hfollows cache hc with ⟨houtcome, hcache⟩
          rw [List.map_cons, ← outcome_of_computes ha hcomputes] at houtcome
          rw [List.map_cons] at hcache
          simp only [hcomputes.contains, Bool.not_true, Bool.false_eq_true, if_false,
            hcomputes.value?, hcomputes.formula?]
          rcases hrun : (s.evaluateWith (s.resolve (a.text :: trail.map Address.text))
              text a).run.run cache with ⟨_ | x, cache'⟩
          · rw [hrun] at houtcome hcache
            exact ⟨houtcome, hcache⟩
          -- Only a value is remembered, and it has a derivation as any outcome does.
          · rw [hrun] at houtcome hcache
            exact ⟨houtcome,
              hcache.insert hcomputes (evaluates_of_outcome _ _ _ houtcome.symm)⟩

/-- From a right cache, evaluation gives the outcome without one and leaves the cache right. -/
theorem evaluate_follows {text : String} {cache : Cache} (hc : s.Sound cache) :
    (s.evaluate text a cache).1 = s.outcomeWith (s.outcome []) text a ∧
      s.Sound (s.evaluate text a cache).2 :=
  evaluateWith_follows (fun b _ => s.resolve_follows [] b (List.forall_mem_nil _)) cache hc

/-- A formula has the same outcome with and without a cache. -/
theorem evaluate_eq {text : String} {cache : Cache} (hc : s.Sound cache) :
    (s.evaluate text a cache).1 = s.outcomeWith (s.outcome []) text a :=
  (evaluate_follows hc).1

/-- Evaluation leaves nothing in the cache but values of their cells, also when it fails. -/
theorem sound_evaluate {text : String} {cache : Cache} (hc : s.Sound cache) :
    s.Sound (s.evaluate text a cache).2 :=
  (evaluate_follows hc).2

end Snapshot

end Worksheet
