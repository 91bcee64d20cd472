import Worksheet.Proofs.Text.Pattern

/-!
# Patterns with groups

Where it matters which part of a match was taken by which part of a pattern, a pattern finds values:
at each place all that can be found, what is tried first in front. Patterns follow one another like
the steps of a program. A part that may be missing is tried first as if it were there.

A text is searched as it is for any pattern. The first match at the first place that has one counts,
and the search goes on behind it. If a pattern only matches where a word starts, then all that it
finds can be told by going from word to word.

## Main definitions

* `Text.Finder`: A pattern with groups, given by what it finds at each place.
* `Text.Finder.boundary`, `literal`, `group`, `optional`: The parts of such patterns.
* `Text.Search`, `Text.Search.all`: A pattern that takes something, and all that it finds in a text.
* `Text.Search.StartsWords`: A pattern that only matches where a word starts.

## Theorems

* `Text.head?_flatMap_of_only`: The first match, if there is one way to go on.
* `Text.Search.StartsWords.all_eq`: What is found from word to word.
-/

namespace Worksheet

namespace Text

/-- What a pattern with groups finds at a place: what the groups have taken and the place behind the
    match, those tried first in front. -/
def Finder (α : Type) : Type := Place → List (α × Place)

namespace Finder

variable {α β : Type}

/-- Patterns one behind the other. Another match of the first is tried when all matches of the
    second behind it are used up. -/
instance : Monad Finder where
  pure a p := [(a, p)]
  bind find next p := (find p).flatMap fun found => next found.1 found.2

/-- A word starts or ends here. -/
def boundary : Finder Unit := fun p => if p.isBoundary then [((), p)] else []

/-- One character. -/
def literal (c : Char) : Finder Unit := fun p =>
  match p.rest with
  | [] => []
  | d :: rest => if d = c then [((), ⟨some d, rest⟩)] else []

/-- A group: what some steps take. -/
def group (steps : List Step) : Finder (List Char) := fun p =>
  (Step.matchesAll steps p).map fun m => (m.taken, m.place)

/-- Something that may be missing. That it is there is tried first. -/
def optional (find : Finder α) : Finder (Option α) := fun p =>
  (find p).map (fun found => (some found.1, found.2)) ++ [(none, p)]

variable {find : Finder α} {next : α → Finder β} {p : Place}

/-- One finder after another goes on behind each match of the first, in its order. -/
theorem bind_apply : (find >>= next) p = (find p).flatMap fun found => next found.1 found.2 := rfl

theorem mem_boundary_iff {found : Unit × Place} :
    found ∈ boundary p ↔ p.isBoundary = true ∧ found.2 = p := by
  rw [boundary]
  by_cases h : p.isBoundary = true
  · rw [if_pos h, List.mem_singleton, and_iff_right h]
    exact ⟨fun hfound => congrArg Prod.snd hfound, fun hfound => Prod.ext rfl hfound⟩
  · rw [if_neg h]
    exact iff_of_false List.not_mem_nil fun hfound => h hfound.1

/-- A literal takes its own character. -/
theorem mem_literal_iff {c : Char} {found : Unit × Place} :
    found ∈ literal c p ↔ p.rest = c :: found.2.rest ∧ found.2.before = some c := by
  rcases p with ⟨before, text⟩
  rcases found with ⟨_, last, behind⟩
  rw [literal]
  cases text with
  | nil => exact iff_of_false List.not_mem_nil fun h => by cases h.1
  | cons d rest =>
      dsimp only
      by_cases hd : d = c
      · rw [if_pos hd, List.mem_singleton, hd]
        simp only [Prod.mk.injEq, true_and, Place.mk.injEq, List.cons.injEq]
        exact ⟨fun h => ⟨h.2.symm, h.1⟩, fun h => ⟨h.2, h.1.symm⟩⟩
      · rw [if_neg hd]
        exact iff_of_false List.not_mem_nil fun h => hd (List.cons.inj h.1).1

end Finder

/-- A pattern with groups that never matches without taking anything. -/
structure Search (α : Type) where
  /-- What it finds at a place. -/
  find : Finder α
  /-- Less of the text is left. -/
  lt_of_mem : ∀ p, ∀ found ∈ find p, found.2.rest.length < p.rest.length

/-- Of results for each element of a list the first is that of the only element that has any. -/
theorem head?_flatMap_of_only {α β : Type} {l : List α} {k : α → List β} {a : α} (hmem : a ∈ l)
    (honly : ∀ b ∈ l, k b ≠ [] → b = a) : (l.flatMap k).head? = (k a).head? := by
  by_cases ha : k a = []
  · rw [ha, List.flatMap_eq_nil_iff.2 fun b hb => ?_]
    by_contra hne
    rw [honly b hb hne] at hne
    exact hne ha
  · -- What stands in front of the one item gives nothing.
    induction l with
    | nil => exact absurd hmem List.not_mem_nil
    | cons b rest ih =>
        rw [List.flatMap_cons]
        by_cases hb : b = a
        · rw [hb, List.head?_append_of_ne_nil _ ha]
        · have hnone : k b = [] := by
            by_contra hne
            exact hb (honly b List.mem_cons_self hne)
          rw [hnone, List.nil_append]
          exact ih (List.mem_of_ne_of_mem (Ne.symm hb) hmem) fun c hc =>
            honly c (List.mem_cons_of_mem b hc)

namespace Search

variable {α : Type}

/-- What is found behind a place from left to right, where the search goes on behind each match. -/
def allFrom (s : Search α) (before : Option Char) (text : List Char) : List α :=
  match _h : (s.find ⟨before, text⟩).head? with
  | some found => found.1 :: s.allFrom found.2.before found.2.rest
  | none =>
    match text with
    | [] => []
    | c :: rest => s.allFrom (some c) rest
termination_by text.length
decreasing_by
  · exact s.lt_of_mem _ _ (List.mem_of_mem_head? _h)
  · exact Nat.lt_succ_self _

/-- All that is found in a text. -/
def all (s : Search α) (text : List Char) : List α := s.allFrom none text

/-- A pattern that matches only where a word starts. -/
def StartsWords (s : Search α) : Prop :=
  ∀ p, p.before.any isWord = true ∨ EndsRun isWord p.rest → s.find p = []

variable {s : Search α} {before : Option Char} {text run rest : List Char}

/-- A search reports the first match and goes on behind it. -/
theorem allFrom_of_head? {found : α × Place} (h : (s.find ⟨before, text⟩).head? = some found) :
    s.allFrom before text = found.1 :: s.allFrom found.2.before found.2.rest := by
  rw [allFrom]
  split
  · rename_i found' hfound
    rw [h, Option.some.injEq] at hfound
    rw [hfound]
  · rename_i hnone
    rw [h] at hnone
    cases hnone

theorem allFrom_nil (h : s.find ⟨before, []⟩ = []) : s.allFrom before [] = [] := by
  rw [allFrom]
  split
  · rename_i hfound
    rw [h] at hfound
    cases hfound
  · rfl

/-- Where there is no match, a search goes on one character later. -/
theorem allFrom_cons {c : Char} (h : (s.find ⟨before, c :: rest⟩).head? = none) :
    s.allFrom before (c :: rest) = s.allFrom (some c) rest := by
  rw [allFrom]
  split
  · rename_i hfound
    rw [h] at hfound
    cases hfound
  · rfl

-- Inside a word nothing is found, so the search goes to its end.
theorem StartsWords.allFrom_inside (h : s.StartsWords) (hbefore : before.any isWord = true)
    (hrun : ∀ c ∈ run, isWord c = true) (rest : List Char) :
    ∃ last, s.allFrom before (run ++ rest) = s.allFrom last rest := by
  induction run generalizing before with
  | nil => exact ⟨before, rfl⟩
  | cons c more ih =>
      have hc : (some c).any isWord = true := hrun c List.mem_cons_self
      rcases ih hc (fun d hd => hrun d (List.mem_cons_of_mem c hd)) with ⟨last, hlast⟩
      refine ⟨last, ?_⟩
      rw [List.cons_append, allFrom_cons (List.head?_eq_none_iff.2 (h _ (Or.inl hbefore))), hlast]

/-- A pattern that matches only where a word starts finds what can be told from one word after the
    other. -/
theorem StartsWords.all_eq (h : s.StartsWords) {g : List Char → List α} (hnil : g [] = [])
    (hmark : ∀ c rest, isWord c = false → g (c :: rest) = g rest)
    (hword : ∀ before run rest, run ≠ [] → (∀ c ∈ run, isWord c = true) → EndsRun isWord rest →
      before.any isWord = false →
        (s.find ⟨before, run ++ rest⟩).head? = none ∧ g (run ++ rest) = g rest ∨
          ∃ found, (s.find ⟨before, run ++ rest⟩).head? = some found ∧
            EndsRun isWord found.2.rest ∧ g (run ++ rest) = found.1 :: g found.2.rest)
    (text : List Char) : s.all text = g text := by
  suffices hfrom : ∀ before : Option Char, (before.any isWord = true → EndsRun isWord text) →
      s.allFrom before text = g text from hfrom none fun hnone => by cases hnone
  -- A match of several words is taken as a whole, so the text left may be much shorter.
  induction hlength : text.length using Nat.strongRecOn generalizing text with
  | _ n ih =>
      intro before hplace
      rcases text_cases text with rfl | ⟨c, rest, rfl, hc⟩ | ⟨run, rest, rfl, hne, hrun, hrest⟩
      · rw [allFrom_nil (h _ (Or.inr endsRun_nil)), hnil]
      · have hnot : (some c).any isWord = true → EndsRun isWord rest := fun hword => by
          rw [Option.any_some, hc] at hword
          cases hword
        rw [List.length_cons] at hlength
        rw [allFrom_cons (List.head?_eq_none_iff.2 (h _ (Or.inr (endsRun_cons hc)))),
          ih rest.length (by omega) rest rfl _ hnot, hmark c rest hc]
      · have hbefore := not_isWord_before hne hrun hplace
        rcases hword before run rest hne hrun hrest hbefore with
          ⟨hnone, hg⟩ | ⟨found, hfound, hends, hg⟩
        · rcases List.exists_cons_of_ne_nil hne with ⟨c, more, rfl⟩
          have hc : (some c).any isWord = true := hrun c List.mem_cons_self
          rcases h.allFrom_inside hc (fun d hd => hrun d (List.mem_cons_of_mem c hd)) rest with
            ⟨last, hlast⟩
          rw [List.length_append, List.length_cons] at hlength
          rw [List.cons_append] at hnone hg ⊢
          rw [hg, allFrom_cons hnone, hlast]
          exact ih rest.length (by omega) rest rfl last fun _ => hrest
        · have hshorter := s.lt_of_mem _ _ (List.mem_of_mem_head? hfound)
          rw [allFrom_of_head? hfound, hg,
            ih found.2.rest.length (hlength ▸ hshorter) found.2.rest rfl _ fun _ => hends]

end Search

end Text

end Worksheet
