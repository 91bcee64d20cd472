import Worksheet.Proofs.Attempt
import Worksheet.Proofs.Formula.Congruence
import Worksheet.Proofs.Reference.Lexemes

/-!
# Moving the references of a formula

A formula that the grammar accepts is still one after a shift that leaves its references in the
grid: the same tokens, but for cells and ranges, which have moved. Conversely a text is such a
formula if the shifted one is. What is wrong with a text may be reported differently, as positions
and spellings change.

## Main definitions

* `Shift.MovesCell`, `Shift.MovesRange`: A cell and a range before and after a shift.

## Theorems

* `Shift.alike_token?`, `Shift.alike_tokensFrom`: The tokens of shifted lexemes.
* `Shift.exists_parse_shiftText`, `Shift.exists_parse_of_shiftText`: Formulas before and after.
-/

namespace Worksheet

open Text Grammar

namespace Shift

variable {s : Shift}

/-- A cell before and after a shift. -/
def MovesCell (s : Shift) (a b : Address) : Prop := s.move a = some b

/-- A range before and after a shift of two opposite corners. -/
def MovesRange (s : Shift) (r t : Range) : Prop :=
  ∃ a b a' b', s.move a = some a' ∧ s.move b = some b' ∧ r = .spanning a b ∧ t = .spanning a' b'

/-- A token before and after a shift. -/
abbrev MovesToken (s : Shift) : Token → Token → Prop := Token.Related s.MovesCell s.MovesRange

/-- A word and the moved word are references both or neither, and then one is moved to the other. -/
theorem alike_readWord {run : List Char} (h : s.KeepsWord run) :
    Alike s.MovesCell (Lexeme.readWord run) (Lexeme.readWord (s.shiftWord run)) := by
  -- A word that is no reference is left as it is, and its error with it.
  rcases shiftWord_cases h with ⟨hnone, hsame⟩ | ⟨a, b, ha, hmove, hmoved⟩
  · rw [hsame]
    have hne : ∀ a, Lexeme.readWord run ≠ .ok a := by
      intro a ha
      rw [Lexeme.readWord_eq_ok_iff, hnone] at ha
      cases ha
    exact alike_of_forall hne hne
  · rw [hmoved, Lexeme.readWord_eq_ok_iff.2 ha,
      Lexeme.readWord_eq_ok_iff.2 (Address.ofChars?_chars b)]
    exact .ok hmove

/-- A word that is no address does not become one. -/
theorem ofChars?_shiftWord_eq_none {run : List Char} (h : Address.ofChars? run = none) :
    Address.ofChars? (s.shiftWord run) = none := by
  rw [shiftWord_of_other h]
  exact h

/-- Two words and the moved words are ranges both or neither, and then the corners are moved. -/
theorem alike_readPair {first second : List Char} (hfirst : ∀ c ∈ first, c.isAlphanum = true)
    (hsecond : ∀ c ∈ second, c.isAlphanum = true) (h : s.KeepsWord first)
    (h' : s.KeepsWord second) :
    Alike s.MovesRange (Lexeme.readPair first second)
      (Lexeme.readPair (s.shiftWord first) (s.shiftWord second)) := by
  have hread := fun r => Lexeme.readPair_eq_ok_iff (r := r) hfirst hsecond
  have hread' := fun r => Lexeme.readPair_eq_ok_iff (r := r) (isAlphanum_shiftWord h hfirst)
    (isAlphanum_shiftWord h' hsecond)
  -- A pair is a range only if both words are references, and a shift keeps what they are.
  rcases shiftWord_cases h with ⟨hnone, _⟩ | ⟨a, b, ha, hmove, hmoved⟩
  · refine alike_of_forall (fun r hr => ?_) fun r hr => ?_
    · rcases (hread r).1 hr with ⟨a, _, ha, _⟩
      rw [hnone] at ha
      cases ha
    · rcases (hread' r).1 hr with ⟨a, _, ha, _⟩
      rw [ofChars?_shiftWord_eq_none hnone] at ha
      cases ha
  · rcases shiftWord_cases h' with ⟨hnone, _⟩ | ⟨a', b', ha', hmove', hmoved'⟩
    · refine alike_of_forall (fun r hr => ?_) fun r hr => ?_
      · rcases (hread r).1 hr with ⟨_, a', _, ha', _⟩
        rw [hnone] at ha'
        cases ha'
      · rcases (hread' r).1 hr with ⟨_, a', _, ha', _⟩
        rw [ofChars?_shiftWord_eq_none hnone] at ha'
        cases ha'
    · have hb : Address.ofChars? (s.shiftWord first) = some b := by
        rw [hmoved, Address.ofChars?_chars]
      have hb' : Address.ofChars? (s.shiftWord second) = some b' := by
        rw [hmoved', Address.ofChars?_chars]
      rw [(hread _).2 ⟨a, a', ha, ha', rfl⟩, (hread' _).2 ⟨b, b', hb, hb', rfl⟩]
      exact .ok ⟨a, a', b, b', hmove, hmove', rfl, rfl⟩

/-- A lexeme means the same after a shift, or has no meaning before and after. -/
theorem alike_token? {l l' : Lexeme} (h : s.MovesLexeme l l') (position position' : Nat) :
    Alike (Option.Rel s.MovesToken) (l.token? position) (l'.token? position') := by
  cases h with
  | word hkeeps =>
      exact (alike_readWord hkeeps).map fun a b hab => .some (.argument (.cell hab))
  | pair hfirst hsecond hkeeps hkeeps' =>
      exact (alike_readPair hfirst hsecond hkeeps hkeeps').map
        fun r t hrt => .some (.argument (.range hrt))
  | same hreference =>
      -- A lexeme that is no reference becomes the same token, or fails both times.
      cases l with
      | blank c => exact .ok .none
      | comma => exact .ok .none
      | call f spelling => exact .ok (.some (.same rfl))
      | word run => cases hreference
      | pair first second => cases hreference
      | operator op => exact .ok (.some (.same rfl))
      | opening => exact .ok (.some (.same rfl))
      | closing => exact .ok (.some (.same rfl))
      | literal whole fraction percent =>
          rw [Lexeme.token?, Lexeme.token?]
          cases Lexeme.readLiteral whole fraction percent with
          | error e => exact .error e e
          | ok x => exact .ok (.some (.same rfl))
      | twoPoints whole fraction => exact .error _ _
      | stray c => exact .error _ _

theorem depthAfter?_of_movesLexeme {l l' : Lexeme} (h : s.MovesLexeme l l') (depth : Int32) :
    l'.depthAfter? depth = l.depthAfter? depth := by
  cases h with
  | word _ | pair _ _ _ _ | same _ => rfl

/-- Shifted lexemes have shifted tokens. -/
theorem alike_tokensFrom {ls ls' : List Lexeme} (h : List.Forall₂ s.MovesLexeme ls ls')
    (position position' : Nat) (depth : Int32) :
    Alike (List.Forall₂ s.MovesToken) (tokensFrom position depth ls)
      (tokensFrom position' depth ls') := by
  -- Positions differ from the first moved reference on, so they are free on both sides. They only
  -- show in errors, which need not agree.
  induction h generalizing position position' depth with
  | nil =>
      rw [tokensFrom, tokensFrom]
      by_cases hdepth : depth = 0
      · rw [if_pos hdepth]
        exact .ok .nil
      · rw [if_neg hdepth]
        exact .error _ _
  | @cons l l' ls ls' hmoves _ ih =>
      rw [tokensFrom, tokensFrom, depthAfter?_of_movesLexeme hmoves]
      cases l.depthAfter? depth with
      | none => exact .error _ _
      | some depth' =>
          refine (alike_token? hmoves position position').bind fun token token' htoken => ?_
          refine (ih _ _ depth').bind fun ts us hrest => ?_
          cases htoken with
          | none => exact .ok hrest
          | some htoken => exact .ok (.cons htoken hrest)

end Shift

/-- A text is a formula if, blanks around it apart, it is an equals sign and lexemes that have
    tokens. -/
theorem Formula.parse_eq_ok_iff {text : String} {f : Formula} : parse text = .ok f ↔
    ∃ body, trim text.toList = '=' :: body ∧ tokensFrom 0 0 (lexemes body) = .ok f.tokens := by
  unfold parse ofChars
  constructor
  · intro h
    split at h
    · cases h
    · rename_i body hbody
      rcases map_eq_ok_iff.1 h with ⟨ts, hts, rfl⟩
      exact ⟨body, hbody, hts⟩
    · cases h
  · rintro ⟨body, hbody, htokens⟩
    rw [hbody]
    exact map_eq_ok_iff.2 ⟨_, htokens, rfl⟩

namespace Shift

variable {s : Shift} {text : String} {f : Formula} {e : Expression}

/-- A formula is one after a shift. -/
theorem exists_parse_shiftText (hkeeps : s.Keeps text.toList) (hparse : Formula.parse text = .ok f)
    (hderives : Derives .sum f.tokens e) :
    ∃ f', Formula.parse (s.shiftText text) = .ok f' ∧
      List.Forall₂ s.MovesToken f.tokens f'.tokens := by
  have hequals : isWord '=' = false := by decide
  rcases Formula.parse_eq_ok_iff.1 hparse with ⟨body, hbody, htokens⟩
  rcases trim_shiftChars hkeeps with ⟨hkeeps', htrim⟩
  rw [hbody] at hkeeps' htrim
  -- The text before is a formula, so it is spelled well, and its lexemes move one by one.
  have hspelled := wellSpelled_of_tokens htokens (isChain_of_derives hderives)
  have hmoves := forall₂_movesLexeme hspelled (hkeeps'.of_mark hequals)
  rcases (alike_tokensFrom hmoves 0 0 0).exists_ok htokens with ⟨us, hus, hrelated⟩
  refine ⟨⟨us⟩, Formula.parse_eq_ok_iff.2 ⟨s.shiftChars body, ?_, hus⟩, hrelated⟩
  rw [shiftText, String.toList_ofList, htrim, shiftChars_mark hequals]

/-- A text is a formula if it is one after a shift. -/
theorem exists_parse_of_shiftText (hkeeps : s.Keeps text.toList)
    (hparse : Formula.parse (s.shiftText text) = .ok f) (hderives : Derives .sum f.tokens e) :
    ∃ f', Formula.parse text = .ok f' ∧ List.Forall₂ s.MovesToken f'.tokens f.tokens := by
  have hequals : isWord '=' = false := by decide
  rcases Formula.parse_eq_ok_iff.1 hparse with ⟨body, hbody, htokens⟩
  rcases trim_shiftChars hkeeps with ⟨hkeeps', htrim⟩
  rw [shiftText, String.toList_ofList, htrim] at hbody
  -- The equals sign belongs to no word, so it stood there before.
  have hhead : '=' ∈ (s.shiftChars (trim text.toList)).head? := by
    rw [hbody]
    rfl
  rcases head_shiftChars hkeeps' '=' hhead with hsame | ⟨hword, _⟩
  · cases htext : trim text.toList with
    | nil =>
        rw [htext] at hsame
        cases hsame
    | cons c before =>
        rw [htext] at hsame hbody hkeeps'
        cases hsame
        rw [shiftChars_mark hequals, List.cons.injEq] at hbody
        rw [← hbody.2] at htokens
        -- Here the text after is the one known to be spelled well, and the one before must be too.
        have hspelled := wellSpelled_of_shiftChars (hkeeps'.of_mark hequals)
          (wellSpelled_of_tokens htokens (isChain_of_derives hderives))
        have hmoves := forall₂_movesLexeme hspelled (hkeeps'.of_mark hequals)
        rcases (alike_tokensFrom hmoves 0 0 0).exists_ok' htokens with ⟨ts, hts, hrelated⟩
        exact ⟨⟨ts⟩, Formula.parse_eq_ok_iff.2 ⟨before, htext, hts⟩, hrelated⟩
  · rw [hequals] at hword
    cases hword

end Shift

end Worksheet
