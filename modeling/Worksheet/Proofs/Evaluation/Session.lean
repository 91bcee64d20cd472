import Worksheet.Proofs.Evaluation.Cache

/-!
# Sessions

A cache may serve any number of evaluations on one snapshot, of formulas that are stored in it or
not, and may be cleared in between. Whatever happened before, each answer is the one that an
evaluation with an empty cache would have given, down to the cell that an error names.

## Main definitions

* `Call`: A use of a cache.
* `Snapshot.answer`, `Snapshot.next`: The answer to one call, and the cache after it.
* `Snapshot.answers`, `Snapshot.after`: The answers to several calls, and the cache after them.

## Theorems

* `Snapshot.sound_after`: The cache of a session is sound.
* `Snapshot.answers_eq_fresh`: What came before makes no difference.
-/

namespace Worksheet

/-- A use of a cache. -/
inductive Call where
  /-- Evaluate a formula in a cell. -/
  | evaluate (text : String) (a : Address)
  /-- Forget everything. -/
  | clear

namespace Snapshot

/-- The answer to a call, if it asks for one. -/
def answer (s : Snapshot) (c : Cache) : Call → Option Outcome
  | .evaluate text a => some (s.evaluate text a c).1
  | .clear => none

/-- The cache after a call. -/
def next (s : Snapshot) (c : Cache) : Call → Cache
  | .evaluate text a => (s.evaluate text a c).2
  | .clear => ∅

/-- The answers to calls made one after another. -/
def answers (s : Snapshot) (c : Cache) : List Call → List Outcome
  | [] => []
  | call :: rest => (s.answer c call).toList ++ answers s (s.next c call) rest

/-- The cache after calls made one after another. -/
def after (s : Snapshot) (c : Cache) (calls : List Call) : Cache := calls.foldl s.next c

variable {s : Snapshot} {c : Cache}

theorem sound_next (hc : s.Sound c) (call : Call) : s.Sound (s.next c call) := by
  cases call with
  | evaluate text a => exact sound_evaluate hc
  | clear => exact sound_empty

-- Soundness is all that an answer may depend on.
theorem answer_eq (hc : s.Sound c) (call : Call) : s.answer c call = s.answer ∅ call := by
  cases call with
  | evaluate text a =>
      rw [answer, answer, evaluate_eq hc, evaluate_eq sound_empty]
  | clear => rfl

theorem sound_after (hc : s.Sound c) (calls : List Call) : s.Sound (s.after c calls) := by
  unfold after
  induction calls generalizing c with
  | nil => exact hc
  | cons call rest ih => exact ih (sound_next hc call)

theorem answers_eq (hc : s.Sound c) (calls : List Call) :
    s.answers c calls = calls.filterMap (s.answer ∅) := by
  -- Over the calls, for every sound cache, since each call leaves another one.
  induction calls generalizing c with
  | nil => rfl
  | cons call rest ih =>
      rw [answers, answer_eq hc, ih (sound_next hc call)]
      cases hanswer : s.answer ∅ call with
      | none =>
          rw [List.filterMap_cons_none hanswer]
          rfl
      | some o =>
          rw [List.filterMap_cons_some hanswer]
          rfl

/-- In a session that starts with an empty cache, each call has the answer that it would have as the
    first one. -/
theorem answers_eq_fresh (s : Snapshot) (calls : List Call) :
    s.answers ∅ calls = calls.filterMap (s.answer ∅) := answers_eq sound_empty calls

end Snapshot

end Worksheet
