import Worksheet.Proofs.Evaluation.OnePass
import Worksheet.Proofs.Evaluation.Replacement
import Worksheet.Proofs.Formula.Trees

/-!
# Values from the bottom up

The value of a formula is that of its tree, with each cell replaced by what it resolves to. Cells
are not resolved alone, though: each one is resolved with a cache to which those before it have
added, and while the formulas of other cells are being evaluated. It has to be shown that neither
matters, so that a cell contributes what it would have contributed at the start.

What a cell resolves to is therefore said without them. Relative to the cache and the visited cells
at the start, it is looked up how far down the formulas of a cell lead. A cell that settles at some
depth has the same value at every greater one. A run can only find values that settle, by induction
on the cells that are not being resolved. Conversely a cell that settles is resolved, by induction
on the depth: if it is met again on the way down, it has settled at a lower depth before, and that
is the one to look at.

No cycle has to be excluded for this, and nothing is assumed of the cache or the visited cells.

## Main definitions

* `Snapshot.lookUp`: What is known of a cell before any formula is evaluated.
* `Snapshot.within`: The outcome of a cell at a depth.
* `Snapshot.Settles`: A cell has a value at all great depths.
* `Snapshot.Extends`: The caches that a run may meet.
* `Ensures`: Every result of a computation has a property, and it keeps to a kind of caches.

## Theorems

* `Snapshot.resolve_ensures`: Only what settles is found.
* `Snapshot.resolve_follows_within`: What settles is found.
* `Snapshot.run_evaluate_eq_ok_iff`: Expressions are evaluated from the bottom up.
* `Snapshot.run_ofTokens_iff_tree`: Tokens have the value of their only tree, or none.
-/

namespace Worksheet

open Filter Grammar

/-! ## Expressions with a value -/

namespace Expression

variable {cellsOf : Range → List Address} {cell cell' : Address → Outcome} {e : Expression}
  {x : Option Float}

/-- An expression has a value only if all its cells have been resolved. -/
theorem exists_ok_of_outcome (h : e.outcome cellsOf cell = .ok x) :
    ∀ b ∈ Argument.allCells cellsOf e.arguments, ∃ y, cell b = .ok y := by
  induction e generalizing x with
  | number z => exact List.forall_mem_nil _
  | cell a =>
      intro b hb
      rw [List.mem_singleton.1 hb]
      exact ⟨x, h⟩
  | negation operand ih =>
      rcases bind_eq_ok_iff.1 h with ⟨y, hy, _⟩
      exact ih hy
  | binary op left right ihl ihr =>
      rcases bind_eq_ok_iff.1 h with ⟨y, hy, h⟩
      rcases bind_eq_ok_iff.1 h with ⟨z, hz, _⟩
      intro b hb
      rcases Snapshot.mem_allCells_binary.1 hb with hb | hb
      · exact ihl hy b hb
      · exact ihr hz b hb
  | call f args =>
      rcases bind_eq_ok_iff.1 h with ⟨values, hvalues, _⟩
      exact exists_ok_of_gather hvalues
  | missing => cases h
  | broken e _ =>
      -- An incomplete expression has no outcome that succeeds.
      rcases bind_eq_ok_iff.1 h with ⟨y, _, h⟩
      cases h
  | brokenCall args =>
      rcases bind_eq_ok_iff.1 h with ⟨y, _, h⟩
      cases h

/-- An expression keeps its value where more cells have one. -/
theorem outcome_mono (hcell : ∀ b y, cell b = .ok y → cell' b = .ok y)
    (h : e.outcome cellsOf cell = .ok x) : e.outcome cellsOf cell' = .ok x := by
  have hsame : ∀ b ∈ Argument.allCells cellsOf e.arguments, cell b = cell' b := by
    intro b hb
    rcases exists_ok_of_outcome h b hb with ⟨y, hy⟩
    rw [hy, hcell b y hy]
  rw [← h]
  refine (outcome_congr (fun b hb => ?_) fun args hargs => gather_congr fun b hb => ?_).symm
  · exact hsame b (Snapshot.mem_allCells_iff.2 (Or.inl hb))
  · exact hsame b (Snapshot.mem_allCells_mono hargs hb)

end Expression

/-! ## Computations with a property -/

section Ensures

variable {α β : Type} {P : Cache → Prop} {Q : α → Prop} {R : β → Prop}

/-- From every cache of a kind the computation leaves one of this kind, and if it has a result, then
    one with the property. -/
def Ensures (P : Cache → Prop) (m : Computation α) (Q : α → Prop) : Prop :=
  ∀ cache, P cache → P (m.run.run cache).2 ∧ ∀ x, (m.run.run cache).1 = .ok x → Q x

theorem ensures_pure {x : α} (h : Q x) : Ensures P (pure x) Q := by
  refine fun cache hc => ⟨hc, fun y hy => ?_⟩
  cases hy
  exact h

/-- A failure has nothing to ensure. -/
theorem ensures_throw (e : FormulaError) : Ensures P (throw e) Q :=
  fun _ hc => ⟨hc, fun _ hx => nomatch hx⟩

/-- A value that is there ensures itself. -/
theorem ensures_lift (o : Except FormulaError α) : Ensures P (liftM o) (o = .ok ·) :=
  fun _ hc => ⟨hc, fun _ hx => hx⟩

/-- Steps one after another: what the first ensures is known to the second. -/
theorem Ensures.bind {m : Computation α} {f : α → Computation β} (hm : Ensures P m Q)
    (hf : ∀ x, Q x → Ensures P (f x) R) : Ensures P (m >>= f) R := by
  intro cache hc
  rcases hm cache hc with ⟨hcache, hresult⟩
  rw [run_bind]
  rcases hrun : m.run.run cache with ⟨result, cache'⟩
  rw [hrun] at hcache hresult
  cases result with
  | error e => exact ⟨hcache, fun x hx => nomatch hx⟩
  | ok x => exact hf x (hresult x rfl) cache' hcache

-- What holds of each cell from some depth on holds of several cells from some depth on.
variable {cell : Nat → Address → Outcome} {resolve : Address → Computation (Option Float)}

/-- If each cell that is resolved has its value from some level on, all collected values are there
    from the highest of these levels on. -/
theorem collect_ensures
    (h : ∀ b, Ensures P (resolve b) fun y => ∀ᶠ n in atTop, cell n b = .ok y) (as : List Address) :
    Ensures P (collect resolve as) fun ys => ∀ᶠ n in atTop, gather (cell n) as = .ok ys := by
  induction as with
  | nil => exact ensures_pure (Eventually.of_forall fun _ => rfl)
  | cons a rest ih =>
      refine (h a).bind fun y hy => ih.bind fun ys hys => ensures_pure ?_
      filter_upwards [hy, hys] with n hy hys
      exact bind_eq_ok_iff.2 ⟨y, hy, bind_eq_ok_iff.2 ⟨ys, hys, rfl⟩⟩

/-- The same for all the cells that an expression resolves. -/
theorem Expression.evaluate_ensures {cellsOf : Range → List Address} {e : Expression}
    (h : ∀ b, Ensures P (resolve b) fun y => ∀ᶠ n in atTop, cell n b = .ok y) :
    Ensures P (e.evaluate cellsOf resolve) fun x =>
      ∀ᶠ n in atTop, e.outcome cellsOf (cell n) = .ok x := by
  induction e with
  | number x => exact ensures_pure (Eventually.of_forall fun _ => rfl)
  | cell a => exact h a
  | negation operand ih =>
      refine ih.bind fun x hx => ensures_pure ?_
      filter_upwards [hx] with n hx
      exact bind_eq_ok_iff.2 ⟨x, hx, rfl⟩
  | binary op left right ihl ihr =>
      refine ihl.bind fun x hx => ihr.bind fun y hy => (ensures_lift _).bind fun z hz =>
        ensures_pure ?_
      -- From some depth on both sides have their values, so from there on the operation has its
      -- own.
      filter_upwards [hx, hy] with n hx hy
      exact bind_eq_ok_iff.2 ⟨x, hx, bind_eq_ok_iff.2 ⟨y, hy, bind_eq_ok_iff.2 ⟨z, hz, rfl⟩⟩⟩
  | call f args =>
      refine (collect_ensures h _).bind fun ys hys => (ensures_lift _).bind fun z hz =>
        ensures_pure ?_
      filter_upwards [hys] with n hys
      exact bind_eq_ok_iff.2 ⟨ys, hys, bind_eq_ok_iff.2 ⟨z, hz, rfl⟩⟩
  | missing => exact ensures_throw _
  | broken e ih => exact ih.bind fun _ _ => ensures_throw _
  | brokenCall args => exact (collect_ensures h _).bind fun _ _ => ensures_throw _

end Ensures

namespace Snapshot

variable {s : Snapshot} {a : Address} {text : String} {x : Option Float}

/-- The same for a formula. -/
theorem evaluateWith_ensures {P : Cache → Prop} {cell : Nat → Address → Outcome}
    {resolve : Address → Computation (Option Float)}
    (h : ∀ b, Ensures P (resolve b) fun y => ∀ᶠ n in atTop, cell n b = .ok y) :
    Ensures P (s.evaluateWith resolve text a) fun x =>
      ∀ᶠ n in atTop, s.outcomeWith (cell n) text a = .ok x := by
  unfold evaluateWith outcomeWith
  cases Formula.parse text with
  | error cause => exact ensures_throw _
  | ok f =>
      by_cases hself : f.references a = true
      · simp only [hself, if_true]
        exact ensures_throw _
      · simp only [hself, Bool.false_eq_true, if_false]
        refine (Expression.evaluate_ensures h).bind fun y hy cache hc => ?_
        refine ⟨hc, fun x hx => ?_⟩
        -- Where the expression has its value, the check gives the same for the text.
        filter_upwards [hy] with n hy
        exact bind_eq_ok_iff.2 ⟨y, hy, hx⟩

/-- A formula with a value has taken values of all cells that it uses. -/
theorem exists_ok_of_outcomeWith {cell : Address → Outcome}
    (h : s.outcomeWith cell text a = .ok x) {b : Address} (hb : s.Uses text b) :
    ∃ y, cell b = .ok y := by
  rcases outcomeWith_eq_ok h with ⟨f, hparse, _, hvalue, _⟩
  -- Tokens with a value are derived, so the expression names all that the text does.
  have hargs : f.arguments = f.expression.arguments := arguments_of_derives
    (Expression.derives_ofTokens (Expression.isComplete_of_outcome hvalue))
  rw [uses_iff_mem_allCells hparse, hargs] at hb
  exact Expression.exists_ok_of_outcome hvalue b hb

/-- Cells that keep their values leave the value of a formula as it is. -/
theorem outcomeWith_mono {cell cell' : Address → Outcome}
    (hcell : ∀ b y, cell b = .ok y → cell' b = .ok y) (h : s.outcomeWith cell text a = .ok x) :
    s.outcomeWith cell' text a = .ok x := by
  rw [← h]
  refine outcomeWith_eq_of_uses rfl fun b hb => ?_
  rcases exists_ok_of_outcomeWith h hb with ⟨y, hy⟩
  rw [hy, hcell b y hy]

/-! ## Cells at a depth -/

/-- What is known of a cell before any formula is evaluated: its outcome, or the formula that has to
    be evaluated for it. -/
def lookUp (s : Snapshot) (visited : List String) (cache : Cache) (a : Address) :
    Outcome ⊕ String :=
  match cache[a.text]? with
  | some x => .inl (.ok x)
  | none =>
    if visited.contains a.text then .inl (.error (.circular a.text))
    else if !s.contains a then .inl (.ok none)
    else match s.value? a with
      | some x => .inl (.ok (some x))
      | none => match s.formula? a with
        | none => .inl (.ok none)
        | some text => .inr text

/-- The outcome of a cell if no more than so many formulas are evaluated inside one another. Where a
    formula lies deeper, this counts as a circular reference. -/
def within (s : Snapshot) (visited : List String) (cache : Cache) : Nat → Address → Outcome
  | 0, a => (s.lookUp visited cache a).elim id fun _ => .error (.circular a.text)
  | n + 1, a => (s.lookUp visited cache a).elim id fun text =>
      s.outcomeWith (s.within visited cache n) text a

/-- A cell has a value at all great depths. -/
def Settles (s : Snapshot) (visited : List String) (cache : Cache) (a : Address)
    (x : Option Float) : Prop :=
  ∀ᶠ n in atTop, s.within visited cache n a = .ok x

/-- Caches that have grown from the one at the start by values that settle. -/
structure Extends (s : Snapshot) (visited : List String) (start cache : Cache) : Prop where
  /-- Nothing has been lost. -/
  keeps : ∀ (a : Address) x, start[a.text]? = some x → cache[a.text]? = some x
  /-- Everything settles. -/
  settles : ∀ (a : Address) x, cache[a.text]? = some x → s.Settles visited start a x

section Depth

variable {visited visited' : List String} {start cache : Cache}

/-- What is in the cache settles a cell before anything else is looked at. -/
theorem lookUp_of_cached (h : cache[a.text]? = some x) :
    s.lookUp visited cache a = .inl (.ok x) := by
  unfold lookUp
  rw [h]

/-- Then the cells that are being evaluated are looked at. -/
theorem lookUp_of_visited (hnew : cache[a.text]? = none) (h : visited.contains a.text = true) :
    s.lookUp visited cache a = .inl (.error (.circular a.text)) := by
  unfold lookUp
  rw [hnew]
  simp only [h, if_true]

/-- A cell that is neither in the cache nor visited is looked up in the snapshot. -/
theorem lookUp_congr (hnew : start[a.text]? = none) (hnew' : cache[a.text]? = none)
    (hvisited : visited.contains a.text = false) (hvisited' : visited'.contains a.text = false) :
    s.lookUp visited start a = s.lookUp visited' cache a := by
  unfold lookUp
  rw [hnew, hnew']
  simp only [hvisited, hvisited']

/-- A formula is needed only for a cell that is not in the cache, is not being evaluated, and has
    one. -/
theorem lookUp_eq_inr (h : s.lookUp visited cache a = .inr text) :
    cache[a.text]? = none ∧ visited.contains a.text = false ∧ s.Computes a text := by
  unfold lookUp at h
  split at h
  · cases h
  · rename_i hnew
    split_ifs at h with hvisited hcontains
    split at h
    · cases h
    · rename_i hvalue
      split at h
      · cases h
      · rename_i text' hformula
        cases h
        have hcontains : s.contains a = true := by simpa using hcontains
        exact ⟨hnew, Bool.eq_false_iff.2 hvisited, hcontains, hvalue, hformula⟩

/-- Resolving a cell looks it up, and then evaluates its formula if it has to. -/
theorem run_resolve_lookUp (s : Snapshot) (visited : List String) (cache : Cache) (a : Address) :
    (s.resolve visited a).run.run cache = match s.lookUp visited cache a with
      | .inl o => (o, cache)
      | .inr text =>
        match (s.evaluateWith (s.resolve (a.text :: visited)) text a).run.run cache with
        | (.ok x, cache') => (.ok x, cache'.insert a.text x)
        | (.error e, cache') => (.error e, cache') := by
  -- The checks that come before the formula are made by the look-up.
  rw [run_resolve]
  unfold lookUp
  cases cache[a.text]? with
  | some x => rfl
  | none =>
      dsimp only
      split_ifs
      · rfl
      · rfl
      · cases s.value? a with
        | some x => rfl
        | none => cases s.formula? a <;> rfl

/-- A cell that is settled has its outcome at each level. -/
theorem within_of_inl {o : Outcome} (h : s.lookUp visited cache a = .inl o) (n : Nat) :
    s.within visited cache n a = o := by
  cases n <;> rw [within, h] <;> rfl

/-- Any other cell takes the values of its formula from the level below. -/
theorem within_of_inr (h : s.lookUp visited cache a = .inr text) (n : Nat) :
    s.within visited cache (n + 1) a = s.outcomeWith (s.within visited cache n) text a := by
  rw [within, h]
  rfl

/-- Values are kept from one level to the next. -/
theorem within_succ {n : Nat} (h : s.within visited cache n a = .ok x) :
    s.within visited cache (n + 1) a = .ok x := by
  induction n generalizing a x with
  | zero =>
      cases hlook : s.lookUp visited cache a with
      | inl o =>
          rw [within_of_inl hlook] at h ⊢
          exact h
      | inr text =>
          rw [within, hlook] at h
          cases h
  | succ n ih =>
      cases hlook : s.lookUp visited cache a with
      | inl o =>
          rw [within_of_inl hlook] at h ⊢
          exact h
      | inr text =>
          -- The cells inside keep their values at the greater depth.
          rw [within_of_inr hlook] at h ⊢
          exact outcomeWith_mono (fun b y hy => ih hy) h

/-- A value at one level is a value in the end. -/
theorem settles_of_within {n : Nat} (h : s.within visited cache n a = .ok x) :
    s.Settles visited cache a x := by
  refine eventually_atTop.2 ⟨n, fun m hm => ?_⟩
  induction m, hm using Nat.le_induction with
  | base => exact h
  | succ m _ ih => exact within_succ ih

/-- There is one value in the end. -/
theorem Settles.unique {y : Option Float} (hx : s.Settles visited cache a x)
    (hy : s.Settles visited cache a y) : x = y := by
  rcases (hx.and hy).exists with ⟨n, hx, hy⟩
  exact Except.ok.inj (hx.symm.trans hy)

/-- A cache extends itself. -/
theorem extends_refl (s : Snapshot) (visited : List String) (start : Cache) :
    s.Extends visited start start where
  keeps _ _ h := h
  settles _ _ h := settles_of_within (within_of_inl (lookUp_of_cached h) 0)

/-- What the larger cache does not have, the smaller does not have either. -/
theorem Extends.eq_none (h : s.Extends visited start cache) (hnew : cache[a.text]? = none) :
    start[a.text]? = none := by
  cases hstart : start[a.text]? with
  | none => rfl
  | some x => exact absurd (h.keeps a x hstart) (by simp [hnew])

/-- A value may be remembered where none was, if it is the one that the cell has in the end. -/
theorem Extends.insert (h : s.Extends visited start cache) (hnew : start[a.text]? = none)
    (hx : s.Settles visited start a x) : s.Extends visited start (cache.insert a.text x) := by
  constructor
  · intro b y hy
    -- Nothing was there for the cell at the start, so nothing is overwritten.
    have hne : a.text ≠ b.text := by
      intro heq
      rw [← heq, hnew] at hy
      cases hy
    simp [Std.HashMap.getElem?_insert, hne, h.keeps b y hy]
  · intro b y hy
    rw [Std.HashMap.getElem?_insert] at hy
    by_cases hb : a.text = b.text
    · rw [if_pos (beq_iff_eq.2 hb), Option.some.injEq] at hy
      rw [← Address.text_injective hb, ← hy]
      exact hx
    · rw [if_neg fun heq => hb (beq_iff_eq.1 heq)] at hy
      exact h.settles b y hy

/-! ## Runs find what settles -/

/-- Whatever is resolved, at any point of a run, settles. -/
theorem resolve_ensures (s : Snapshot) (visited : List String) (start : Cache)
    (visited' : List String) (hvisited : visited ⊆ visited') (a : Address) :
    Ensures (s.Extends visited start) (s.resolve visited' a) (s.Settles visited start a) := by
  -- On the formulas that are not being evaluated, as the recursion itself.
  induction hn : (s.unvisited visited').length using Nat.strongRecOn generalizing visited' a with
  | _ n ih =>
      intro cache hc
      rw [run_resolve_lookUp]
      cases hcached : cache[a.text]? with
      | some x =>
          rw [lookUp_of_cached hcached]
          refine ⟨hc, fun y hy => ?_⟩
          cases hy
          exact hc.settles a x hcached
      | none =>
          have hnew := hc.eq_none hcached
          by_cases hmem : visited'.contains a.text = true
          · rw [lookUp_of_visited hcached hmem]
            exact ⟨hc, fun y hy => nomatch hy⟩
          have hmem' : visited'.contains a.text = false := Bool.eq_false_iff.2 hmem
          have hout : visited.contains a.text = false := by
            simp only [List.contains_eq_mem, decide_eq_false_iff_not] at hmem' ⊢
            exact fun h => hmem' (hvisited h)
          rw [lookUp_congr hcached hnew hmem' hout]
          cases hlook : s.lookUp visited start a with
          | inl o =>
              refine ⟨hc, fun y hy => settles_of_within (n := 0) ?_⟩
              rw [within_of_inl hlook]
              exact hy
          | inr text =>
              have hcomputes := (lookUp_eq_inr hlook).2.2
              have hsmaller := length_unvisited_lt hcomputes.formula? hmem'
              have hensures : Ensures (s.Extends visited start)
                  (s.evaluateWith (s.resolve (a.text :: visited')) text a) _ :=
                evaluateWith_ensures fun b => ih _ (hn ▸ hsmaller) _
                  (List.subset_cons_of_subset _ hvisited) b rfl
              rcases hensures cache hc with ⟨hcache, hresult⟩
              dsimp only
              rcases hrun : (s.evaluateWith (s.resolve (a.text :: visited')) text a).run.run cache
                with ⟨_ | x, cache'⟩
              · rw [hrun] at hcache
                exact ⟨hcache, fun y hy => nomatch hy⟩
              · rw [hrun] at hcache hresult
                have hx : s.Settles visited start a x := by
                  rcases (hresult x rfl).exists with ⟨m, hm⟩
                  refine settles_of_within (n := m + 1) ?_
                  rw [within_of_inr hlook]
                  exact hm
                refine ⟨hcache.insert hnew hx, fun y hy => ?_⟩
                cases hy
                exact hx

/-- A cell that settles is resolved at any point of a run, if its formula would be evaluated to the
    value at which it settles. -/
theorem resolve_follows_of_lookUp (hx : s.Settles visited start a x)
    (hvisited : start[a.text]? = none →
      visited.contains a.text = false ∧ visited'.contains a.text = false)
    (hformula : ∀ text, s.lookUp visited start a = .inr text → Follows (s.Extends visited start)
      (s.evaluateWith (s.resolve (a.text :: visited')) text a) (.ok x)) :
    Follows (s.Extends visited start) (s.resolve visited' a) (.ok x) := by
  intro cache hc
  rw [run_resolve_lookUp]
  cases hcached : cache[a.text]? with
  | some y =>
      -- What is cached agrees with the value, since the value is the only one.
      rw [lookUp_of_cached hcached, hx.unique (hc.settles a y hcached)]
      exact ⟨rfl, hc⟩
  | none =>
      -- Nothing is cached here, so nothing was at the start, and both lists of visited cells let
      -- the cell through.
      have hnew := hc.eq_none hcached
      rcases hvisited hnew with ⟨hout, hout'⟩
      rw [lookUp_congr hcached hnew hout' hout]
      cases hlook : s.lookUp visited start a with
      | inl o =>
          rcases hx.exists with ⟨n, hn⟩
          rw [within_of_inl hlook] at hn
          exact ⟨hn, hc⟩
      | inr text =>
          rcases hformula text hlook cache hc with ⟨hresult, hcache⟩
          dsimp only
          rcases hrun : (s.evaluateWith (s.resolve (a.text :: visited')) text a).run.run cache
            with ⟨result, cache'⟩
          rw [hrun] at hresult hcache
          cases hresult
          exact ⟨rfl, hcache.insert hnew hx⟩

/-- What settles is resolved, at any point of a run: none of the cells whose formulas are being
    evaluated has a value at the depth in question. -/
theorem resolve_follows_within (n : Nat) : ∀ (path : List Address) (a : Address) (x : Option Float),
    s.within visited start n a = .ok x →
      (∀ t ∈ path, ∀ y, s.within visited start n t ≠ .ok y) →
        Follows (s.Extends visited start) (s.resolve (path.map Address.text ++ visited) a)
          (.ok x) := by
  -- A cell with a value is not on the path, and was not visited at the start.
  have hvisited : ∀ (n : Nat) (path : List Address) (a : Address) (x : Option Float),
      s.within visited start n a = .ok x →
        (∀ t ∈ path, ∀ y, s.within visited start n t ≠ .ok y) → start[a.text]? = none →
          visited.contains a.text = false ∧
            (path.map Address.text ++ visited).contains a.text = false := by
    intro n path a x hx hpath hnew
    have hout : visited.contains a.text = false := by
      refine Bool.eq_false_iff.2 fun hmem => ?_
      rw [within_of_inl (lookUp_of_visited hnew hmem)] at hx
      cases hx
    refine ⟨hout, ?_⟩
    rw [List.contains_append, hout, Bool.or_false]
    exact Bool.eq_false_iff.2 fun hmem => hpath a (contains_map_text.1 hmem) x hx
  induction n with
  | zero =>
      intro path a x hx hpath
      refine resolve_follows_of_lookUp (settles_of_within hx) (hvisited 0 path a x hx hpath) ?_
      intro text hlook
      rw [within, hlook] at hx
      cases hx
  | succ n ih =>
      intro path a x hx hpath
      have hpath' : ∀ t ∈ path, ∀ y, s.within visited start n t ≠ .ok y :=
        fun t ht y hy => hpath t ht y (within_succ hy)
      by_cases hbefore : ∃ y, s.within visited start n a = .ok y
      · rcases hbefore with ⟨y, hy⟩
        rw [(settles_of_within hx).unique (settles_of_within hy)]
        exact ih path a y hy hpath'
      refine resolve_follows_of_lookUp (settles_of_within hx)
        (hvisited (n + 1) path a x hx hpath) fun text hlook => ?_
      rw [within_of_inr hlook] at hx
      rw [← hx]
      refine evaluateWith_follows fun b hb => ?_
      rcases exists_ok_of_outcomeWith hx hb with ⟨y, hy⟩
      rw [hy]
      -- The cell itself has no value at the lower depth, so it may join the path.
      refine ih (a :: path) b y hy fun t ht z hz => ?_
      rcases List.mem_cons.1 ht with rfl | ht
      · exact hbefore ⟨z, hz⟩
      · exact hpath' t ht z hz

/-- The cells that are resolved at the start are those that settle. -/
theorem run_resolve_eq_ok_iff :
    ((s.resolve visited a).run.run start).1 = .ok x ↔ s.Settles visited start a x := by
  have hstart := s.extends_refl visited start
  constructor
  · have hensures := s.resolve_ensures visited start visited (List.Subset.refl _) a start hstart
    exact fun h => hensures.2 x h
  · intro h
    rcases h.exists with ⟨n, hn⟩
    exact (resolve_follows_within n [] a x hn (List.forall_mem_nil _) start hstart).1

/-- An expression is evaluated from the bottom up, each cell contributing what it would be resolved
    to at the start. -/
theorem run_evaluate_eq_ok_iff {e : Expression} :
    ((e.evaluate s.cellsOf (s.resolve visited)).run.run start).1 = .ok x ↔
      e.outcome s.cellsOf (fun a => ((s.resolve visited a).run.run start).1) = .ok x := by
  have hstart := s.extends_refl visited start
  constructor
  · intro h
    -- From some depth on the expression has the value, and so has each cell at that depth.
    have hensures : Ensures (s.Extends visited start)
        (e.evaluate s.cellsOf (s.resolve visited)) _ :=
      Expression.evaluate_ensures (s.resolve_ensures visited start visited (List.Subset.refl _))
    rcases ((hensures start hstart).2 x h).exists with ⟨n, hn⟩
    exact Expression.outcome_mono
      (fun b y hy => run_resolve_eq_ok_iff.2 (settles_of_within hy)) hn
  · intro h
    -- Each cell that succeeds from the start succeeds alike with what the others have cached.
    rw [← h]
    refine (Expression.follows_outcome (P := s.Extends visited start) (fun b hb => ?_) start
      hstart).1
    rcases Expression.exists_ok_of_outcome h b hb with ⟨y, hy⟩
    rcases (run_resolve_eq_ok_iff.1 hy).exists with ⟨n, hn⟩
    rw [hy]
    exact resolve_follows_within n [] b y hn (List.forall_mem_nil _)

/-- Tokens have a value exactly if they have a tree, which is then their only one, and it has this
    value from the bottom up; each cell contributes what it would be resolved to at the start, and a
    range the cells that a walk visits, which are its cells inside a snapshot that fits the grid,
    row by row. Without a tree there is an error. All this is so whether the tokens are evaluated
    while they are read or afterwards. -/
theorem run_ofTokens_iff_tree (s : Snapshot) (visited : List String) (cache : Cache)
    (ts : List Token) :
    let reading := Pass.ofTokens s.cellsOf (s.resolve visited) ts
    let cell := fun a => ((s.resolve visited a).run.run cache).1
    reading = (Expression.ofTokens ts).evaluate s.cellsOf (s.resolve visited) ∧
      (∀ x, (reading.run.run cache).1 = .ok x ↔ ∃ t : Tree .sum, t.tokens = ts ∧
        (∀ t' : Tree .sum, t'.tokens = ts → t' = t) ∧
          Expression.outcome s.cellsOf cell t.expression = .ok x) ∧
      ((¬ ∃ t : Tree .sum, t.tokens = ts) → ∃ e, (reading.run.run cache).1 = .error e) ∧
      (s.Fits → ∀ r, s.cellsOf r = r.cells.filter s.contains) := by
  intro reading cell
  have hreading : reading = (Expression.ofTokens ts).evaluate s.cellsOf (s.resolve visited) :=
    Pass.ofTokens_eq ts
  have hiff : ∀ x, (reading.run.run cache).1 = .ok x ↔
      (Expression.ofTokens ts).outcome s.cellsOf cell = .ok x := by
    intro x
    rw [hreading]
    exact run_evaluate_eq_ok_iff
  -- Only tokens of a tree have a complete expression, and only a complete expression has a value.
  have htree : ∀ {x}, (Expression.ofTokens ts).outcome s.cellsOf cell = .ok x →
      ∃ t : Tree .sum, t.tokens = ts ∧ t.expression = Expression.ofTokens ts := fun h =>
    derives_iff_tree.1 (Expression.derives_ofTokens (Expression.isComplete_of_outcome h))
  refine ⟨hreading, fun x => ?_, fun hnone => ?_, fun hfits => hfits.cellsOf_eq⟩
  · rw [hiff]
    constructor
    · intro h
      rcases htree h with ⟨t, htokens, hexpression⟩
      refine ⟨t, htokens, fun t' htokens' => Tree.eq_of_tokens (htokens'.trans htokens.symm), ?_⟩
      rw [hexpression]
      exact h
    · rintro ⟨t, htokens, _, h⟩
      rw [Expression.ofTokens_of_derives (derives_iff_tree.2 ⟨t, htokens, rfl⟩)]
      exact h
  · -- A value would come with a tree.
    cases hresult : (reading.run.run cache).1 with
    | error e => exact ⟨e, rfl⟩
    | ok x =>
        rcases htree ((hiff x).1 hresult) with ⟨t, htokens, _⟩
        exact absurd ⟨t, htokens⟩ hnone

end Depth

end Snapshot

end Worksheet
