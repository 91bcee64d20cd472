import Worksheet.Proofs.Formula.Spelling
import Worksheet.Reference.Shift

/-!
# Moving the words of a text

A shift replaces the words of a text that are addresses and leaves everything between words alone,
so the text falls into the same pieces before and after, as long as no address leaves the grid. What
the shifted text starts with depends on what the text itself starts with: on the same character, or
on a letter if that is a letter.

## Main definitions

* `Shift.Keeps`: No address in a text leaves the grid.

## Theorems

* `Shift.shiftChars_mark`, `Shift.shiftChars_word`: A shift goes through a text piece by piece.
* `Shift.pieces_shiftChars`: The pieces of a shifted text.
* `Shift.wellSpelled_of_shiftChars`: A text is spelled as well as the shifted one.
* `Shift.trim_shiftChars`: Blanks around a text stay around it.
-/

namespace Worksheet

open Text

/-- An address is written in letters and digits. -/
theorem Address.isAlphanum_chars {a : Address} : ∀ c ∈ a.chars, c.isAlphanum = true :=
  isAlphanum_of_ofChars? (ofChars?_chars a)

theorem Address.chars_ne_nil (a : Address) : a.chars ≠ [] := by
  intro h
  have hletters := takeWhile_isAlpha_chars a
  rw [h] at hletters
  exact Column.letters_ne_nil (Nat.succ_pos _) hletters.symm

namespace Shift

variable {s : Shift}

/-- The shift leaves the address that a word is, if it is one, in the grid. -/
def KeepsWord (s : Shift) (run : List Char) : Prop :=
  ∀ a, Address.ofChars? run = some a → ∃ b, s.move a = some b

/-- The shift leaves all addresses in a text in the grid. -/
def Keeps (s : Shift) (t : List Char) : Prop := ∀ run, .word run ∈ pieces t → s.KeepsWord run

-- Either a word is no address and stays, or it is one and moves.
theorem shiftWord_cases {run : List Char} (h : s.KeepsWord run) :
    (Address.ofChars? run = none ∧ s.shiftWord run = run) ∨
      ∃ a b, Address.ofChars? run = some a ∧ s.move a = some b ∧ s.shiftWord run = b.chars := by
  cases hrun : Address.ofChars? run with
  | none => exact Or.inl ⟨rfl, shiftWord_of_other hrun⟩
  | some a =>
      rcases h a hrun with ⟨b, hb⟩
      exact Or.inr ⟨a, b, rfl, hb, shiftWord_of_address hrun hb⟩

/-- A word that stays in the grid does not vanish. -/
theorem shiftWord_ne_nil {run : List Char} (h : s.KeepsWord run) (hne : run ≠ []) :
    s.shiftWord run ≠ [] := by
  rcases shiftWord_cases h with ⟨_, hsame⟩ | ⟨_, b, _, _, hmoved⟩
  · rw [hsame]
    exact hne
  · rw [hmoved]
    exact b.chars_ne_nil

/-- A word that stays in the grid is moved to a word. -/
theorem isWord_shiftWord {run : List Char} (h : s.KeepsWord run)
    (hrun : ∀ c ∈ run, isWord c = true) : ∀ c ∈ s.shiftWord run, isWord c = true := by
  intro c hc
  rcases shiftWord_cases h with ⟨_, hsame⟩ | ⟨_, b, _, _, hmoved⟩
  · rw [hsame] at hc
    exact hrun c hc
  · rw [hmoved] at hc
    exact isWord_of_isAlphanum (Address.isAlphanum_chars c hc)

theorem shiftChars_nil : s.shiftChars [] = [] := by
  rw [shiftChars, pieces_nil, List.flatMap_nil]

/-- A sign is kept. -/
theorem shiftChars_mark {c : Char} {rest : List Char} (hc : isWord c = false) :
    s.shiftChars (c :: rest) = c :: s.shiftChars rest := by
  rw [shiftChars, pieces_mark hc, List.flatMap_cons]
  rfl

/-- A whole word is moved on its own. -/
theorem shiftChars_word {run rest : List Char} (hne : run ≠ []) (hrun : ∀ c ∈ run, isWord c = true)
    (hends : EndsRun isWord rest) :
    s.shiftChars (run ++ rest) = s.shiftWord run ++ s.shiftChars rest := by
  rw [shiftChars, pieces_word hne hrun hends, List.flatMap_cons]
  rfl

-- Where a word has ended it has ended in the shifted text as well.
theorem endsRun_shiftChars {rest : List Char} (h : EndsRun isWord rest) :
    EndsRun isWord (s.shiftChars rest) := by
  cases rest with
  | nil =>
      rw [shiftChars_nil]
      exact endsRun_nil
  | cons c x =>
      rw [shiftChars_mark (h c rfl)]
      exact endsRun_cons (h c rfl)

theorem Keeps.of_mark {c : Char} {rest : List Char} (hc : isWord c = false)
    (h : s.Keeps (c :: rest)) : s.Keeps rest :=
  fun run hrun => h run (mem_pieces_of_mark hc hrun)

/-- If all addresses in a text stay in the grid, so do the one in front and those behind it. -/
theorem Keeps.of_word {run rest : List Char} (hne : run ≠ []) (hrun : ∀ c ∈ run, isWord c = true)
    (hends : EndsRun isWord rest) (h : s.Keeps (run ++ rest)) :
    s.KeepsWord run ∧ s.Keeps rest := by
  refine ⟨h run ?_, fun other hother => h other (mem_pieces_of_word hne hrun hends hother)⟩
  rw [pieces_word hne hrun hends]
  exact List.mem_cons_self

-- The shortest formula with a reference: the equals sign and an address.
theorem pieces_reference (a : Address) : pieces ('=' :: a.chars) = [.mark '=', .word a.chars] := by
  have hword : pieces (a.chars ++ []) = .word a.chars :: pieces [] :=
    pieces_word a.chars_ne_nil (fun c hc => isWord_of_isAlphanum (Address.isAlphanum_chars c hc))
      endsRun_nil
  rw [List.append_nil, pieces_nil] at hword
  rw [pieces_mark (by decide), hword]

/-- A lone reference stays in the grid if its address does. -/
theorem keeps_reference {a b : Address} (h : s.move a = some b) : s.Keeps ('=' :: a.chars) := by
  intro run hrun a' ha'
  rw [pieces_reference, List.mem_cons, List.mem_singleton] at hrun
  rcases hrun with hmark | hword
  · cases hmark
  · cases hword
    rw [Address.ofChars?_chars, Option.some.injEq] at ha'
    exact ⟨b, by rw [← ha', h]⟩

/-- A lone reference is moved to the reference of the moved address. -/
theorem shiftChars_reference {a b : Address} (h : s.move a = some b) :
    s.shiftChars ('=' :: a.chars) = '=' :: b.chars := by
  rw [shiftChars, pieces_reference, List.flatMap_cons, List.flatMap_cons, List.flatMap_nil,
    List.append_nil, shiftPiece, shiftPiece,
    shiftWord_of_address (Address.ofChars?_chars a) h]
  rfl

/-- A piece after the shift. -/
def movePiece (s : Shift) : Piece → Piece
  | .word run => .word (s.shiftWord run)
  | .mark c => .mark c

/-- A shifted text falls into the shifted pieces. -/
theorem pieces_shiftChars {t : List Char} (h : s.Keeps t) :
    pieces (s.shiftChars t) = (pieces t).map s.movePiece := by
  -- Piece by piece: a moved word is a word again, so it does not run into what stands around it.
  induction t using pieces_induction with
  | nil => rw [shiftChars_nil, pieces_nil, List.map_nil]
  | mark c rest hc ih =>
      rw [shiftChars_mark hc, pieces_mark hc, pieces_mark hc, ih (h.of_mark hc), List.map_cons]
      rfl
  | word run rest hne hrun hends ih =>
      rcases h.of_word hne hrun hends with ⟨hkeeps, hrest⟩
      rw [shiftChars_word hne hrun hends, pieces_word hne hrun hends,
        pieces_word (shiftWord_ne_nil hkeeps hne) (isWord_shiftWord hkeeps hrun)
          (endsRun_shiftChars hends), ih hrest, List.map_cons]
      rfl

/-- A text that is well spelled after a shift was so before it. -/
theorem wellSpelled_of_shiftChars {t : List Char} (h : s.Keeps t)
    (hspelled : WellSpelled (s.shiftChars t)) : WellSpelled t := by
  intro run hrun
  have hmem : .word (s.shiftWord run) ∈ pieces (s.shiftChars t) := by
    rw [pieces_shiftChars h]
    exact List.mem_map_of_mem (f := s.movePiece) hrun
  -- A word that moves is an address and well spelled as such; any other is in the shifted text too.
  rcases shiftWord_cases (h run hrun) with ⟨_, hsame⟩ | ⟨a, _, ha, _, _⟩
  · rw [← hsame]
    exact hspelled _ hmem
  · exact spelled_of_ofChars? ha

-- The last character is blank only if it was.
theorem not_isBlank_last_shiftChars {t : List Char} (h : s.Keeps t)
    (hlast : ∀ c ∈ t.getLast?, isBlank c = false) :
    ∀ c ∈ (s.shiftChars t).getLast?, isBlank c = false := by
  intro c hc
  have ht := flatMap_chars_pieces t
  unfold shiftChars at hc
  -- The last character of a text is in its last piece.
  rcases List.eq_nil_or_concat (pieces t) with hnil | ⟨ps, p, hpieces⟩
  · rw [hnil] at hc
    cases hc
  · have hmem : p ∈ pieces t := by
      rw [hpieces, List.concat_eq_append]
      exact List.mem_concat_self
    rw [hpieces, List.concat_eq_append, List.flatMap_append, List.flatMap_singleton] at ht hc
    cases p with
    | mark d =>
        rw [shiftPiece, List.getLast?_concat] at hc
        refine hlast c ?_
        rw [← ht, Piece.chars, List.getLast?_concat]
        exact hc
    | word run =>
        rcases word_of_mem_pieces hmem with ⟨hne, hword⟩
        have hne' := shiftWord_ne_nil (h run hmem) hne
        rw [shiftPiece, List.getLast?_append_of_ne_nil _ hne'] at hc
        exact not_isBlank_of_isWord
          (isWord_shiftWord (h run hmem) hword c (List.mem_of_getLast? hc))

-- A shifted text starts with the same character as before, or with a word as before.
theorem head_shiftChars {t : List Char} (h : s.Keeps t) : ∀ c ∈ (s.shiftChars t).head?,
    t.head? = some c ∨ (isWord c = true ∧ ∃ d ∈ t.head?, isWord d = true) := by
  intro c hc
  -- The text starts with nothing, with a sign, or with a word.
  rcases text_cases t with rfl | ⟨d, rest, rfl, hd⟩ | ⟨run, rest, rfl, hne, hrun, hends⟩
  · rw [shiftChars_nil] at hc
    cases hc
  · rw [shiftChars_mark hd] at hc
    exact Or.inl hc
  · have hkeeps := (h.of_word hne hrun hends).1
    have hne' := shiftWord_ne_nil hkeeps hne
    rw [shiftChars_word hne hrun hends, List.head?_append_of_ne_nil _ hne'] at hc
    refine Or.inr ⟨isWord_shiftWord hkeeps hrun c (List.mem_of_mem_head? hc), ?_⟩
    rcases List.exists_cons_of_ne_nil hne with ⟨d, x, rfl⟩
    exact ⟨d, rfl, hrun d List.mem_cons_self⟩

/-- Signs around a text are kept, and the text between them is moved on its own. -/
theorem shiftChars_surrounded {before core behind : List Char}
    (hbefore : ∀ c ∈ before, isWord c = false) (hbehind : ∀ c ∈ behind, isWord c = false) :
    s.shiftChars (before ++ core ++ behind) = before ++ s.shiftChars core ++ behind := by
  have hmarks : ∀ marks : List Char, (marks.map Piece.mark).flatMap s.shiftPiece = marks := by
    intro marks
    induction marks with
    | nil => rfl
    | cons c rest ih =>
        rw [List.map_cons, List.flatMap_cons, ih]
        rfl
  unfold shiftChars
  rw [pieces_append_marks hbehind, pieces_marks_append hbefore, List.flatMap_append,
    List.flatMap_append, hmarks, hmarks]

/-- Blanks around a text stay around it. -/
theorem trim_shiftChars {t : List Char} (h : s.Keeps t) :
    s.Keeps (trim t) ∧ trim (s.shiftChars t) = s.shiftChars (trim t) := by
  -- Blanks are no words, so they stay in front and behind, and what is left between them starts and
  -- ends with none.
  rcases exists_trim t with ⟨before, behind, ht, hbefore, hbehind, hhead, hlast⟩
  have hmarks : ∀ c ∈ before, isWord c = false := fun c hc => not_isWord_of_isBlank (hbefore c hc)
  have hmarks' : ∀ c ∈ behind, isWord c = false := fun c hc => not_isWord_of_isBlank (hbehind c hc)
  generalize trim t = core at *
  subst ht
  have hkeeps : s.Keeps core := by
    intro run hrun
    refine h run ?_
    rw [pieces_append_marks hmarks', pieces_marks_append hmarks]
    exact List.mem_append_left _ (List.mem_append_right _ hrun)
  refine ⟨hkeeps, ?_⟩
  rw [shiftChars_surrounded hmarks hmarks']
  refine trim_append hbefore hbehind (fun c hc => ?_) (not_isBlank_last_shiftChars hkeeps hlast)
  rcases head_shiftChars hkeeps c hc with hsame | ⟨hword, _⟩
  · exact hhead c hsame
  · exact not_isBlank_of_isWord hword

end Shift

end Worksheet
