import Mathlib
import Worksheet.Evaluation.Cell
import Worksheet.Proofs.Reference.Landing

/-!
# Shifting a formula and reading it

The words of a formula that are addresses are exactly the addresses of its tokens: none hides in a
number or in the name of a function, and none is missed. So if all addresses of the tokens stay in
the grid, the shifted text is a formula again, with the same tokens but for the moved ones. If one
of them leaves the grid, the shifted text has a mark in its place that no formula can have, and it
is not a formula any more.

## Theorems

* `Shift.keeps_iff`: Whether a shift keeps a formula in the grid can be seen from its tokens.
* `Formula.hash_not_mem_of_parse`: No formula has a number sign in it.
* `Shift.parse_shiftText`: Shifting and reading a formula.
-/

namespace Worksheet

open Text Grammar

namespace Shift

variable {s : Shift} {run rest t : List Char} {a : Address}

/-- A word that is no address is kept by any shift. -/
theorem keepsWord_of_other (h : Address.ofChars? run = none) : s.KeepsWord run := by
  intro a ha
  rw [h] at ha
  cases ha

/-- An address that lands is kept. -/
theorem keepsWord_of_lands (h : Address.ofChars? run = some a) (ha : s.Lands a) :
    s.KeepsWord run := by
  intro b hb
  rw [h, Option.some.injEq] at hb
  rw [← hb]
  exact exists_move_iff.2 ha

theorem Keeps.mark {c : Char} (hc : isWord c = false) (h : s.Keeps rest) : s.Keeps (c :: rest) :=
  words_of_mark hc h

/-- A text stays in the grid if the word in front and what is behind it do. -/
theorem Keeps.word (hrun : ∀ c ∈ run, isWord c = true) (hends : run ≠ [] → EndsRun isWord rest)
    (hword : s.KeepsWord run) (h : s.Keeps rest) : s.Keeps (run ++ rest) :=
  words_of_word hrun hends hword h

-- In a well spelled text, runs of letters and digits and runs of digits are whole words.
theorem keeps_run (hspelled : WellSpelled (run ++ rest)) (hrun : ∀ c ∈ run, c.isAlphanum = true)
    (hends : EndsRun Char.isAlphanum rest) (hword : s.KeepsWord run) (h : s.Keeps rest) :
    s.Keeps (run ++ rest) :=
  .word (fun c hc => isWord_of_isAlphanum (hrun c hc)) (fun _ => hspelled.endsRun hrun hends) hword h

/-- Digits in front of a well spelled text are a number, which no shift moves. -/
theorem keeps_digits (hspelled : WellSpelled (run ++ rest)) (hrun : ∀ c ∈ run, c.isDigit = true)
    (hends : EndsRun Char.isDigit rest) (h : s.Keeps rest) : s.Keeps (run ++ rest) := by
  refine .word (fun c hc => isWord_of_isAlphanum (isAlphanum_of_isDigit (hrun c hc))) (fun hne => ?_)
    (keepsWord_of_other (Address.ofChars?_of_digits hrun)) h
  cases run with
  | nil => exact absurd rfl hne
  | cons c x => exact hspelled.endsRun_of_digits hrun hends

/-- One lexeme: the addresses that are words in it are those of its token. -/
theorem keeps_of_starts {position : Nat} {l : Lexeme} {token : Option Token}
    (hstarts : Lexeme.Starts l t rest) (hspelled : WellSpelled t)
    (htoken : l.token? position = .ok token)
    (hlands : ∀ u ∈ token, ∀ a ∈ u.addresses, s.Lands a) (h : s.Keeps rest) : s.Keeps t := by
  have hboundary := Lexeme.isAlphanum_of_starts hstarts htoken
  have hpoint : isWord '.' = false := by decide
  have hpercent : isWord '%' = false := by decide
  have hcolon : isWord ':' = false := by decide
  cases hstarts with
  | blank hblank => exact h.mark (not_isWord_of_isBlank hblank)
  | @mark c _ _ halphanum _ =>
      refine h.mark (Bool.eq_false_iff.2 fun hword => ?_)
      rw [hboundary c rfl hword] at halphanum
      cases halphanum
  | call hnamed hends _ =>
      have halpha := Aggregate.isAlpha_of_isNamed hnamed
      exact keeps_run hspelled (fun c hc => isAlphanum_of_isAlpha (halpha c hc)) hends
        (keepsWord_of_other (Address.ofChars?_of_letters halpha)) h
  | word halpha hrun hends _ _ =>
      rcases map_eq_ok_iff.1 htoken with ⟨a, hread, rfl⟩
      exact keeps_run hspelled (spelled_of_letter halpha hrun).1 hends
        (keepsWord_of_lands (Lexeme.readWord_eq_ok_iff.1 hread)
          (hlands _ rfl a List.mem_cons_self)) h
  | pair halpha hrun _ hsecond hends =>
      have hfirst := isAlphanum_of_mem_cons halpha hrun
      rcases map_eq_ok_iff.1 htoken with ⟨r, hread, rfl⟩
      rcases (Lexeme.readPair_eq_ok_iff hfirst hsecond).1 hread with ⟨a, b, ha, hb, rfl⟩
      -- The token has the corners of the range, which are the two words or the other two corners.
      rcases lands_spanning_iff.1 ⟨hlands _ rfl _ List.mem_cons_self,
        hlands _ rfl _ (List.mem_cons_of_mem _ List.mem_cons_self)⟩ with ⟨hlandsFirst, hlandsSecond⟩
      have hrest := (hspelled.of_word (List.cons_ne_nil _ _)
        (fun c hc => isWord_of_isAlphanum (hfirst c hc)) (endsRun_cons hcolon)).of_mark hcolon
      exact keeps_run hspelled hfirst (endsRun_cons rfl) (keepsWord_of_lands ha hlandsFirst)
        (.mark hcolon (keeps_run hrest hsecond hends (keepsWord_of_lands hb hlandsSecond) h))
  | whole hrun hends => exact keeps_digits hspelled hrun (fun d hd => (hends d hd).1) h
  | wholePercent hrun =>
      exact keeps_digits hspelled hrun (endsRun_cons rfl) (h.mark hpercent)
  | fraction hwhole hfraction hends =>
      have hrest := keeps_digits (hspelled.behind_point hwhole) hfraction (fun d hd => (hends d hd).1) h
      exact keeps_digits hspelled hwhole (endsRun_cons rfl) (hrest.mark hpoint)
  | fractionPercent hwhole hfraction =>
      have hrest := keeps_digits (hspelled.behind_point hwhole) hfraction (endsRun_cons rfl)
        (h.mark hpercent)
      exact keeps_digits hspelled hwhole (endsRun_cons rfl) (hrest.mark hpoint)
  | twoPoints _ _ => cases htoken

/-- If all addresses of the tokens land, the text stays in the grid. -/
theorem keeps_of_tokens {position : Nat} {depth : Int32} {ts : List Token}
    (htokens : tokensFrom position depth (lexemes t) = .ok ts)
    (hchain : ts.IsChain Token.MayPrecede)
    (hlands : ∀ u ∈ ts, ∀ a ∈ u.addresses, s.Lands a) : s.Keeps t := by
  induction t using Lexeme.starts_induction generalizing position depth ts with
  | nil =>
      intro run hrun
      rw [pieces_nil] at hrun
      cases hrun
  | lexeme l t rest hstarts ih =>
      have hspelled := wellSpelled_of_tokens htokens hchain
      rw [lexemes_of_starts hstarts] at htokens
      rcases tokensFrom_cons_eq_ok_iff.1 htokens with ⟨_, token, us, _, htoken, hus, rfl⟩
      -- The tokens are that of the first lexeme and those of the rest.
      have hhead : ∀ u ∈ token, ∀ a ∈ u.addresses, s.Lands a := fun u hu =>
        hlands u (List.mem_append_left _ (Option.mem_toList.2 hu))
      have hrest : ∀ u ∈ us, ∀ a ∈ u.addresses, s.Lands a := fun u hu =>
        hlands u (List.mem_append_right _ hu)
      exact keeps_of_starts hstarts hspelled htoken hhead (ih hus hchain.right_of_append hrest)

-- Blanks around a text are no addresses.
theorem keeps_of_trim (h : s.Keeps (trim t)) : s.Keeps t := by
  rcases exists_trim t with ⟨before, behind, ht, hbefore, hbehind, _, _⟩
  -- Blanks are signs, and among signs there is no word.
  have hmarks : ∀ {marks : List Char}, (∀ c ∈ marks, isBlank c = true) →
      ∀ {run : List Char}, Piece.word run ∉ marks.map Piece.mark := by
    intro marks _ run hrun
    rcases List.mem_map.1 hrun with ⟨c, _, hc⟩
    cases hc
  intro run hrun
  rw [ht, pieces_append_marks fun c hc => not_isWord_of_isBlank (hbehind c hc),
    pieces_marks_append fun c hc => not_isWord_of_isBlank (hbefore c hc), List.mem_append,
    List.mem_append] at hrun
  rcases hrun with (hrun | hrun) | hrun
  · exact absurd hrun (hmarks hbefore)
  · exact h run hrun
  · exact absurd hrun (hmarks hbehind)

end Shift

namespace Lexeme

/-- A number sign is no part of a longer lexeme. -/
theorem Starts.hash_cases {l : Lexeme} {t rest : List Char} (h : Starts l t rest) (hc : '#' ∈ t) :
    l = .stray '#' ∨ '#' ∈ rest := by
  -- The sign is in no run of letters and digits, so it is in what is behind the lexeme.
  have halphanum : ∀ {run : List Char}, (∀ d ∈ run, d.isAlphanum = true) → '#' ∉ run := by
    intro run hrun hmem
    cases hrun '#' hmem
  have hdigits : ∀ {run : List Char}, (∀ d ∈ run, d.isDigit = true) → '#' ∉ run := fun hrun =>
    halphanum fun d hd => isAlphanum_of_isDigit (hrun d hd)
  have hmark : ∀ {d : Char} {behind : List Char}, '#' ≠ d → '#' ∈ d :: behind → '#' ∈ behind :=
    fun hne hmem => (List.mem_cons.1 hmem).resolve_left hne
  cases h with
  | blank hblank =>
      refine Or.inr (hmark ?_ hc)
      rintro rfl
      revert hblank
      decide
  | mark _ _ _ =>
      rcases List.mem_cons.1 hc with rfl | hc
      · exact Or.inl rfl
      · exact Or.inr hc
  | call hnamed _ _ =>
      have hrun := halphanum fun d hd =>
        isAlphanum_of_isAlpha (Aggregate.isAlpha_of_isNamed hnamed d hd)
      exact Or.inr ((List.mem_append.1 hc).resolve_left hrun)
  | word halpha hrun _ _ _ =>
      have hword := halphanum (isAlphanum_of_mem_cons halpha hrun)
      exact Or.inr ((List.mem_append.1 hc).resolve_left hword)
  | pair halpha hrun _ hsecond _ =>
      have hfirst := halphanum (isAlphanum_of_mem_cons halpha hrun)
      have hpartner := hmark (by decide) ((List.mem_append.1 hc).resolve_left hfirst)
      exact Or.inr ((List.mem_append.1 hpartner).resolve_left (halphanum hsecond))
  | whole hrun _ => exact Or.inr ((List.mem_append.1 hc).resolve_left (hdigits hrun))
  | wholePercent hrun =>
      exact Or.inr (hmark (by decide) ((List.mem_append.1 hc).resolve_left (hdigits hrun)))
  | fraction hwhole hfraction _ =>
      have hbehind := hmark (by decide) ((List.mem_append.1 hc).resolve_left (hdigits hwhole))
      exact Or.inr ((List.mem_append.1 hbehind).resolve_left (hdigits hfraction))
  | fractionPercent hwhole hfraction | twoPoints hwhole hfraction =>
      have hbehind := hmark (by decide) ((List.mem_append.1 hc).resolve_left (hdigits hwhole))
      exact Or.inr (hmark (by decide)
        ((List.mem_append.1 hbehind).resolve_left (hdigits hfraction)))

end Lexeme

namespace Formula

/-- A number sign is never part of a formula that is read. -/
theorem hash_not_mem_of_tokens {position : Nat} {depth : Int32} {t : List Char} {ts : List Token}
    (htokens : tokensFrom position depth (lexemes t) = .ok ts) : '#' ∉ t := by
  induction t using Lexeme.starts_induction generalizing position depth ts with
  | nil => exact List.not_mem_nil
  | lexeme l t rest hstarts ih =>
      intro hc
      rw [lexemes_of_starts hstarts] at htokens
      rcases tokensFrom_cons_eq_ok_iff.1 htokens with ⟨_, token, us, _, htoken, hus, _⟩
      rcases hstarts.hash_cases hc with rfl | hc
      · cases htoken
      · exact ih hus hc

/-- No formula has a number sign in it. -/
theorem hash_not_mem_of_parse {text : String} {f : Formula} (h : parse text = .ok f) :
    '#' ∉ text.toList := by
  have hblank : isBlank '#' = false := by decide
  have hblanks : ∀ {marks : List Char}, (∀ c ∈ marks, isBlank c = true) → '#' ∉ marks := by
    intro marks hmarks hmem
    rw [hmarks '#' hmem] at hblank
    cases hblank
  rcases parse_eq_ok_iff.1 h with ⟨body, hbody, htokens⟩
  rcases exists_trim text.toList with ⟨before, behind, ht, hbefore, hbehind, _, _⟩
  rw [ht, hbody, List.mem_append, List.mem_append, List.mem_cons]
  rintro ((hmem | hmem | hmem) | hmem)
  · exact hblanks hbefore hmem
  · cases hmem
  · exact hash_not_mem_of_tokens htokens hmem
  · exact hblanks hbehind hmem

end Formula

namespace Shift

variable {s : Shift} {text : String} {f : Formula} {e : Expression}

-- Each token before a shift has one after it, with its addresses in the grid.
theorem lands_of_moves {ts us : List Token} (h : List.Forall₂ s.MovesToken ts us) :
    ∀ t ∈ ts, ∀ a ∈ t.addresses, s.Lands a := by
  induction h with
  | nil => exact List.forall_mem_nil _
  | cons hhead _ ih => exact List.forall_mem_cons.2 ⟨(moveToken_of_moves hhead).2, ih⟩

/-- A shift keeps the text of a formula in the grid if it does so with the addresses of its tokens. -/
theorem keeps_iff (hparse : Formula.parse text = .ok f) (hderives : Derives .sum f.tokens e) :
    s.Keeps text.toList ↔ ∀ a ∈ f.addresses, s.Lands a := by
  constructor
  · intro hkeeps a ha
    rcases exists_parse_shiftText hkeeps hparse hderives with ⟨f', _, hmoves⟩
    rcases List.mem_flatMap.1 ha with ⟨t, ht, ha⟩
    exact lands_of_moves hmoves t ht a ha
  · -- A word of the text that is an address is an argument, and the arguments are told by the
    -- tokens.
    intro hlands
    rcases Formula.parse_eq_ok_iff.1 hparse with ⟨body, hbody, htokens⟩
    refine keeps_of_trim ?_
    rw [hbody]
    exact .mark (by decide) (keeps_of_tokens htokens (isChain_of_derives hderives)
      fun t ht a ha => hlands a (List.mem_flatMap.2 ⟨t, ht, ha⟩))

/-- What has left the grid is marked in the shifted text. -/
theorem lostReference_within (h : ¬ s.Keeps text.toList) :
    lostReference.toList <:+: (s.shiftText text).toList := by
  simp only [Keeps, KeepsWord, not_forall] at h
  rcases h with ⟨run, hrun, a, ha, hlost⟩
  have hmove : s.move a = none := Option.eq_none_iff_forall_ne_some.2 fun b hb => hlost ⟨b, hb⟩
  have hword : s.shiftPiece (.word run) = lostReference.toList := by
    rw [shiftPiece, shiftWord, ha]
    simp only [hmove]
  rw [shiftText, String.toList_ofList, shiftChars, ← hword, List.flatMap_def]
  exact List.infix_of_mem_flatten (List.mem_map_of_mem hrun)

/-- Shifting the text of a formula and reading it comes to the same as reading it and moving its
    tokens: if all its addresses stay in the grid, the shifted text is a formula with the moved
    tokens, and with the same kind. Otherwise the shifted text has the mark of a lost reference in
    it, is no formula, and has no value anywhere. -/
theorem parse_shiftText (s : Shift) (hparse : Formula.parse text = .ok f)
    (hderives : Derives .sum f.tokens e) :
    ((∀ a ∈ f.addresses, s.Lands a) → ∃ f', Formula.parse (s.shiftText text) = .ok f' ∧
        List.Forall₂ (fun t u => s.moveToken t = some u) f.tokens f'.tokens ∧ f'.kind = f.kind) ∧
      ((∃ a ∈ f.addresses, ¬ s.Lands a) →
        lostReference.toList <:+: (s.shiftText text).toList ∧
          ∃ cause, Formula.parse (s.shiftText text) = .error cause ∧
            ∀ (T : Snapshot) (a : Address) (c : Cache),
              T.evaluate (s.shiftText text) a c = (.error (.malformed cause), c)) := by
  constructor
  · intro hlands
    rcases exists_parse_shiftText ((keeps_iff hparse hderives).2 hlands) hparse hderives with
      ⟨f', hparse', hmoves⟩
    exact ⟨f', hparse', hmoves.imp fun _ _ h => (moveToken_of_moves h).1,
      Formula.kind_of_moves hmoves⟩
  · rintro ⟨a, ha, hlost⟩
    have hmarked := lostReference_within fun hkeeps =>
      hlost ((keeps_iff hparse hderives).1 hkeeps a ha)
    refine ⟨hmarked, ?_⟩
    cases hparse' : Formula.parse (s.shiftText text) with
    | ok f' =>
        -- The mark starts with a number sign.
        exact absurd (hmarked.subset List.mem_cons_self) (Formula.hash_not_mem_of_parse hparse')
    | error cause =>
        refine ⟨cause, rfl, fun T a c => ?_⟩
        rw [Snapshot.evaluate, Snapshot.evaluateWith, hparse']
        rfl

-- Column `C` moves to the left of column `B`, which turns the corners round, and there is no row
-- above the first one.
theorem parse_shiftText_turned :
    (∃ f', Formula.parse ((⟨-2, 0, 1, -1⟩ : Shift).shiftText "=SUM(B1:C1)") = .ok f' ∧
        f'.tokens = [.function .sum, .opening,
          .range (.spanning (.ofIndices 0 0) (.ofIndices 1 0)), .closing]) ∧
      ∃ cause, Formula.parse ((⟨0, -1, -1, -1⟩ : Shift).shiftText "=SUM(B1:C1)") = .error cause := by
  let b : Address := ⟨1, 0, by decide, by decide⟩
  let c : Address := ⟨2, 0, by decide, by decide⟩
  let f : Formula := ⟨[.function .sum, .opening, .range (.spanning b c), .closing]⟩
  have hparse : Formula.parse "=SUM(B1:C1)" = .ok f := by cbv
  have hderives : Derives .sum f.tokens (.call .sum [.range (.spanning b c)]) :=
    .ofProduct (.ofOperand (.call .sum [.range (.spanning b c)]))
  constructor
  · have hlands : ∀ a ∈ f.addresses, (⟨-2, 0, 1, -1⟩ : Shift).Lands a := by
      intro a ha
      rcases List.mem_pair.1 ha with rfl | rfl
      · exact ⟨⟨by decide, by decide⟩, by decide, by decide⟩
      · exact ⟨⟨by decide, by decide⟩, by decide, by decide⟩
    rcases (parse_shiftText _ hparse hderives).1 hlands with ⟨f', hparse', hmoves, _⟩
    refine ⟨f', hparse', ?_⟩
    have hrange : (⟨-2, 0, 1, -1⟩ : Shift).moveRange (.spanning b c) =
        some (.spanning (.ofIndices 0 0) (.ofIndices 1 0)) := by decide
    have hexpected : List.Forall₂ (fun t u => (⟨-2, 0, 1, -1⟩ : Shift).moveToken t = some u)
        f.tokens [.function .sum, .opening,
          .range (.spanning (.ofIndices 0 0) (.ofIndices 1 0)), .closing] :=
      .cons rfl (.cons rfl (.cons (congrArg (Option.map Token.range) hrange) (.cons rfl .nil)))
    -- The moved tokens are determined, so they are the expected ones.
    have hunique : Relator.RightUnique fun t u => (⟨-2, 0, 1, -1⟩ : Shift).moveToken t = some u :=
      fun t u v hu hv => Option.some.inj (hu.symm.trans hv)
    exact hunique.forall₂ hmoves hexpected
  · have hlost : ¬ (⟨0, -1, -1, -1⟩ : Shift).Lands b := fun h => absurd h.2.1 (by decide)
    rcases (parse_shiftText _ hparse hderives).2 ⟨b, List.mem_cons_self, hlost⟩ with
      ⟨_, cause, hparse', _⟩
    exact ⟨cause, hparse'⟩

end Shift

end Worksheet
