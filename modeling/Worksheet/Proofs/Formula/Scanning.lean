import Worksheet.Formula.Lexeme
import Worksheet.Proofs.Address.RoundTrip
import Worksheet.Proofs.Text.Pieces

/-!
# What starts a text

A description of the first lexeme of a text that does not scan: which characters it has, and what
may follow them. Every text but the empty one starts with exactly one lexeme in this sense, and it
is the one that is scanned. Facts about all lexemes of a text are proved one form at a time from
this description.

The name of a function is a word of letters only, so a function is called by a whole run of letters
and digits or not at all.

## Main definitions

* `Lexeme.callee?`: The function that a run calls, given what follows it.
* `Lexeme.Starts`: A lexeme, a text that starts with it, and the rest.

## Theorems

* `Lexeme.called?_run`: Whether a function is called depends on a whole run.
* `Lexeme.exists_starts`, `Lexeme.scan_of_starts`: The lexeme that starts a text is scanned.
* `Lexeme.starts_induction`: Induction over the lexemes of a text.
* `lexemes_of_starts`: All lexemes are the first one and those of the rest.
-/

namespace Worksheet

open Text

/-- A run that names a function has the length of its name, in capitals or not. -/
theorem Aggregate.length_of_isNamed {f : Aggregate} {run : List Char} (h : f.isNamed run = true) :
    run.length = f.name.length := by
  have hmap : run.map Char.toUpper = f.name.toList := beq_iff_eq.1 h
  have hlength := congrArg List.length hmap
  rw [List.length_map, String.length_toList] at hlength
  exact hlength

theorem Aggregate.ne_nil_of_isNamed {f : Aggregate} {run : List Char}
    (h : f.isNamed run = true) : run ≠ [] := by
  rintro rfl
  have hlength := length_of_isNamed h
  have hpos := Lexeme.name_length_pos f
  rw [List.length_nil] at hlength
  omega

-- Folding case maps nothing but letters to the letters of a name.
theorem Aggregate.isAlpha_of_isNamed {f : Aggregate} {run : List Char}
    (h : f.isNamed run = true) : ∀ c ∈ run, c.isAlpha = true := by
  have hmap : run.map Char.toUpper = f.name.toList := beq_iff_eq.1 h
  have hname : f.name.toList.all Char.isAlpha = true := by
    cases f <;> rfl
  intro c hc
  refine isAlpha_of_isAlpha_toUpper (List.all_eq_true.1 hname _ ?_)
  rw [← hmap]
  exact List.mem_map_of_mem hc

theorem isAlphanum_of_mem_cons {c : Char} {run : List Char} (halpha : c.isAlpha = true)
    (hrun : ∀ d ∈ run, d.isAlphanum = true) : ∀ d ∈ c :: run, d.isAlphanum = true := by
  intro d hd
  rcases List.mem_cons.1 hd with rfl | hd
  · exact isAlphanum_of_isAlpha halpha
  · exact hrun d hd

namespace Lexeme

/-- The function that a run of letters and digits calls: its name, with a parenthesis opening behind
    it after any blanks. -/
def callee? (run rest : List Char) : Option Aggregate :=
  Aggregate.all.find? fun f => f.isNamed run && (trimStart rest).head? == some '('

variable {run rest : List Char} {f : Aggregate}

theorem head?_trimStart_of_alphanum {c : Char} (h : c.isAlphanum = true) (x : List Char) :
    ((trimStart (c :: x)).head? == some '(') = false := by
  have hblank : isBlank c = false := not_isBlank_of_isWord (isWord_of_isAlphanum h)
  have hne : c ≠ '(' := by
    rintro rfl
    cases h
  rw [trimStart, List.dropWhile_cons_of_neg (Bool.eq_false_iff.1 hblank), List.head?_cons]
  exact beq_eq_false_iff_ne.2 fun h => hne (Option.some.inj h)

/-- Whether a function is called is settled by the whole run of letters and digits in front. -/
theorem called?_run (hrun : ∀ c ∈ run, c.isAlphanum = true)
    (hrest : EndsRun Char.isAlphanum rest) : called? (run ++ rest) = callee? run rest := by
  unfold called? callee?
  congr 1
  funext f
  -- The name is compared with as many characters as it has, fewer or more than the run may have.
  rcases Nat.lt_trichotomy f.name.length run.length with hlt | heq | hgt
  · -- The name would end inside the run.
    have hnamed : f.isNamed run = false := by
      refine Bool.eq_false_iff.2 fun h => ?_
      have := Aggregate.length_of_isNamed h
      omega
    have hdrop : (run ++ rest).drop f.name.length =
        run[f.name.length] :: (run.drop (f.name.length + 1) ++ rest) := by
      rw [List.drop_append_of_le_length (Nat.le_of_lt hlt), List.drop_eq_getElem_cons hlt,
        List.cons_append]
    rw [hnamed, hdrop, head?_trimStart_of_alphanum (hrun _ (List.getElem_mem hlt)),
      Bool.and_false, Bool.false_and]
  · rw [heq, List.take_left', List.drop_left'] <;> rfl
  · -- The name would go on behind the run.
    have hnamed : f.isNamed run = false := by
      refine Bool.eq_false_iff.2 fun h => ?_
      have := Aggregate.length_of_isNamed h
      omega
    have hlonger : f.isNamed ((run ++ rest).take f.name.length) = false := by
      refine Bool.eq_false_iff.2 fun h => ?_
      cases rest with
      | nil =>
          have hlength := Aggregate.length_of_isNamed h
          rw [List.append_nil, List.length_take] at hlength
          omega
      | cons c x =>
          have hmem : c ∈ (run ++ c :: x).take f.name.length := by
            rw [List.take_append, List.mem_append]
            right
            have hpos : f.name.length - run.length = f.name.length - run.length - 1 + 1 := by omega
            rw [hpos, List.take_succ_cons]
            exact List.mem_cons_self
          have halpha := Aggregate.isAlpha_of_isNamed h c hmem
          have hc := hrest c rfl
          rw [isAlphanum_of_isAlpha halpha] at hc
          cases hc
    rw [hnamed, hlonger, Bool.false_and, Bool.false_and]

/-- A function is called by its name with a parenthesis behind it, blanks apart. -/
theorem callee?_eq_some_iff : callee? run rest = some f ↔
    f.isNamed run = true ∧ (trimStart rest).head? = some '(' := by
  unfold callee?
  constructor
  · intro h
    have hfound := List.find?_some h
    rw [Bool.and_eq_true, beq_iff_eq] at hfound
    exact hfound
  · rintro ⟨hnamed, hopen⟩
    -- No two functions have one name, so the first one found is this one.
    have hmap : run.map Char.toUpper = f.name.toList := beq_iff_eq.1 hnamed
    unfold Aggregate.isNamed
    rw [hmap, hopen]
    cases f <;> decide

/-- A run with a digit in it names no function. -/
theorem callee?_of_digit (h : run.any Char.isDigit = true) : callee? run rest = none := by
  refine Option.eq_none_iff_forall_ne_some.2 fun f hf => ?_
  rcases List.any_eq_true.1 h with ⟨c, hc, hdigit⟩
  have halpha := Aggregate.isAlpha_of_isNamed (callee?_eq_some_iff.1 hf).1 c hc
  rw [not_isAlpha_of_isDigit hdigit] at halpha
  cases halpha

/-- A lexeme with a text that starts with it and the rest of this text. -/
inductive Starts : Lexeme → List Char → List Char → Prop where
  | blank {c : Char} {rest : List Char} (hblank : isBlank c = true) :
      Starts (.blank c) (c :: rest) rest
  | mark {c : Char} {rest : List Char} (hblank : isBlank c = false)
      (halphanum : c.isAlphanum = false) (hpoint : c ≠ '.') : Starts (ofChar c) (c :: rest) rest
  | call {f : Aggregate} {run rest : List Char} (hnamed : f.isNamed run = true)
      (hends : EndsRun Char.isAlphanum rest) (hopen : (trimStart rest).head? = some '(') :
      Starts (.call f run) (run ++ rest) rest
  | word {c : Char} {run rest : List Char} (halpha : c.isAlpha = true)
      (hrun : ∀ d ∈ run, d.isAlphanum = true) (hends : EndsRun Char.isAlphanum rest)
      (hcallee : callee? (c :: run) rest = none)
      (halone : (c :: run).any Char.isDigit = true → rest.head? ≠ some ':') :
      Starts (.word (c :: run)) (c :: run ++ rest) rest
  | pair {c : Char} {run second rest : List Char} (halpha : c.isAlpha = true)
      (hrun : ∀ d ∈ run, d.isAlphanum = true) (hdigit : (c :: run).any Char.isDigit = true)
      (hsecond : ∀ d ∈ second, d.isAlphanum = true) (hends : EndsRun Char.isAlphanum rest) :
      Starts (.pair (c :: run) second) (c :: run ++ ':' :: (second ++ rest)) rest
  | whole {c : Char} {run rest : List Char} (hrun : ∀ d ∈ c :: run, d.isDigit = true)
      (hends : ∀ d ∈ rest.head?, d.isDigit = false ∧ d ≠ '.' ∧ d ≠ '%') :
      Starts (.literal (c :: run) none false) (c :: run ++ rest) rest
  | wholePercent {c : Char} {run rest : List Char} (hrun : ∀ d ∈ c :: run, d.isDigit = true) :
      Starts (.literal (c :: run) none true) (c :: run ++ '%' :: rest) rest
  | fraction {whole fraction rest : List Char} (hwhole : ∀ d ∈ whole, d.isDigit = true)
      (hfraction : ∀ d ∈ fraction, d.isDigit = true)
      (hends : ∀ d ∈ rest.head?, d.isDigit = false ∧ d ≠ '.' ∧ d ≠ '%') :
      Starts (.literal whole (some fraction) false) (whole ++ '.' :: (fraction ++ rest)) rest
  | fractionPercent {whole fraction rest : List Char} (hwhole : ∀ d ∈ whole, d.isDigit = true)
      (hfraction : ∀ d ∈ fraction, d.isDigit = true) :
      Starts (.literal whole (some fraction) true) (whole ++ '.' :: (fraction ++ '%' :: rest)) rest
  | twoPoints {whole fraction rest : List Char} (hwhole : ∀ d ∈ whole, d.isDigit = true)
      (hfraction : ∀ d ∈ fraction, d.isDigit = true) :
      Starts (.twoPoints whole fraction) (whole ++ '.' :: (fraction ++ '.' :: rest)) rest

/-- No name of a function starts with anything but a letter. -/
theorem called?_of_not_isAlpha {c : Char} (h : c.isAlpha = false) (cs : List Char) :
    called? (c :: cs) = none := by
  unfold called?
  rw [List.find?_eq_none]
  intro f _ hfound
  rw [Bool.and_eq_true] at hfound
  have hmem : c ∈ (c :: cs).take f.name.length := by
    have hpos := name_length_pos f
    rw [← Nat.succ_pred_eq_of_pos hpos, List.take_succ_cons]
    exact List.mem_cons_self
  have halpha := Aggregate.isAlpha_of_isNamed hfound.1 c hmem
  rw [h] at halpha
  cases halpha

-- The two ways a scan goes on from its first character.
theorem scan_letter {c : Char} {run : List Char} (halpha : c.isAlpha = true)
    (hrun : ∀ d ∈ run, d.isAlphanum = true) (hends : EndsRun Char.isAlphanum rest) :
    scan c (run ++ rest) = match callee? (c :: run) rest with
      -- The call takes as many characters as the name has, which are the run.
      | some f => (.call f (c :: run), rest)
      | none => scanWord (c :: run ++ rest) := by
  have hall := isAlphanum_of_mem_cons halpha hrun
  have hblank : isBlank c = false :=
    not_isBlank_of_isWord (isWord_of_isAlphanum (isAlphanum_of_isAlpha halpha))
  rw [scan, if_neg (Bool.eq_false_iff.1 hblank), ← List.cons_append, called?_run hall hends]
  cases hcallee : callee? (c :: run) rest with
  | some f =>
      have hlength := Aggregate.length_of_isNamed (callee?_eq_some_iff.1 hcallee).1
      dsimp only
      rw [← hlength, List.take_left, List.drop_left]
  | none =>
      dsimp only
      rw [if_pos halpha]

/-- A digit or a point in front starts a number. -/
theorem scan_number {c : Char} {cs : List Char} (hc : c.isDigit = true ∨ c = '.') :
    scan c cs = scanNumber (c :: cs) := by
  have halpha : c.isAlpha = false := by
    rcases hc with hc | rfl
    · exact not_isAlpha_of_isDigit hc
    · rfl
  have hblank : isBlank c = false := by
    rcases hc with hc | rfl
    · exact not_isBlank_of_isWord (isWord_of_isAlphanum (isAlphanum_of_isDigit hc))
    · decide
  have hnumber : (c.isDigit || c = '.') = true := by
    rw [Bool.or_eq_true, decide_eq_true_eq]
    exact hc
  rw [scan, if_neg (Bool.eq_false_iff.1 hblank), called?_of_not_isAlpha halpha]
  dsimp only
  rw [if_neg (Bool.eq_false_iff.1 halpha), if_pos hnumber]

/-- Digits are scanned as a whole number, up to something that does not continue it. -/
theorem scanNumber_whole {whole : List Char} (hwhole : ∀ d ∈ whole, d.isDigit = true)
    (hends : ∀ d ∈ rest.head?, d.isDigit = false ∧ d ≠ '.' ∧ d ≠ '%') :
    scanNumber (whole ++ rest) = (.literal whole none false, rest) := by
  have hrest : EndsRun Char.isDigit rest := fun d hd => (hends d hd).1
  rw [scanNumber, takeWhile_run hwhole hrest, dropWhile_run hwhole hrest]
  split
  · exact absurd rfl (hends '.' rfl).2.1
  · exact absurd rfl (hends '%' rfl).2.2
  · rfl

/-- Digits around a point are scanned as one number with a fraction. -/
theorem scanNumber_fraction {whole fraction : List Char} (hwhole : ∀ d ∈ whole, d.isDigit = true)
    (hfraction : ∀ d ∈ fraction, d.isDigit = true)
    (hends : ∀ d ∈ rest.head?, d.isDigit = false ∧ d ≠ '.' ∧ d ≠ '%') :
    scanNumber (whole ++ '.' :: (fraction ++ rest)) =
      (.literal whole (some fraction) false, rest) := by
  have hpoint : EndsRun Char.isDigit ('.' :: (fraction ++ rest)) := endsRun_cons rfl
  have hrest : EndsRun Char.isDigit rest := fun d hd => (hends d hd).1
  rw [scanNumber, takeWhile_run hwhole hpoint, dropWhile_run hwhole hpoint]
  simp only [takeWhile_run hfraction hrest, dropWhile_run hfraction hrest]
  -- What is behind is no second point and no percent sign.
  split
  · exact absurd rfl (hends '.' rfl).2.1
  · exact absurd rfl (hends '%' rfl).2.2
  · rfl

/-- A run that is not the first of a range is scanned as a word of its own. -/
theorem scanWord_alone {run : List Char} (hrun : ∀ d ∈ run, d.isAlphanum = true)
    (hends : EndsRun Char.isAlphanum rest)
    (halone : run.any Char.isDigit = true → rest.head? ≠ some ':') :
    scanWord (run ++ rest) = (.word run, rest) := by
  rw [scanWord, takeWhile_run hrun hends, dropWhile_run hrun hends]
  split
  · rw [if_neg fun hdigit => halone hdigit rfl]
  · rfl

-- A number starts with a digit, or with its point if it has no whole part.
theorem exists_number {whole : List Char} (hwhole : ∀ d ∈ whole, d.isDigit = true)
    (behind : List Char) : ∃ c cs, whole ++ '.' :: behind = c :: cs ∧
      (c.isDigit = true ∨ c = '.') := by
  cases whole with
  | nil => exact ⟨'.', behind, rfl, Or.inr rfl⟩
  | cons c run =>
      exact ⟨c, run ++ '.' :: behind, rfl, Or.inl (hwhole c List.mem_cons_self)⟩

/-- What starts a text is scanned. -/
theorem scan_of_starts {l : Lexeme} {t : List Char} (h : Starts l t rest) :
    ∃ c cs, t = c :: cs ∧ scan c cs = (l, rest) := by
  -- One form of lexeme at a time; the first character decides between letters and numbers.
  cases h with
  | @blank c _ hblank => exact ⟨c, rest, rfl, by rw [scan, if_pos hblank]⟩
  | @mark c _ hblank halphanum hpoint =>
      rw [Char.isAlphanum, Bool.or_eq_false_iff] at halphanum
      have hnumber : (c.isDigit || c = '.') = false := by
        rw [halphanum.2, Bool.false_or, decide_eq_false_iff_not]
        exact hpoint
      refine ⟨c, rest, rfl, ?_⟩
      rw [scan, if_neg (Bool.eq_false_iff.1 hblank), called?_of_not_isAlpha halphanum.1]
      dsimp only
      rw [if_neg (Bool.eq_false_iff.1 halphanum.1), if_neg (Bool.eq_false_iff.1 hnumber)]
  | @call f run _ hnamed hends hopen =>
      have halpha := Aggregate.isAlpha_of_isNamed hnamed
      cases run with
      | nil => exact absurd rfl (Aggregate.ne_nil_of_isNamed hnamed)
      | cons c run =>
          refine ⟨c, run ++ rest, rfl, ?_⟩
          have hrun : ∀ d ∈ run, d.isAlphanum = true := fun d hd =>
            isAlphanum_of_isAlpha (halpha d (List.mem_cons_of_mem _ hd))
          rw [scan_letter (halpha c List.mem_cons_self) hrun hends,
            callee?_eq_some_iff.2 ⟨hnamed, hopen⟩]
  | @word c run _ halpha hrun hends hcallee halone =>
      refine ⟨c, run ++ rest, rfl, ?_⟩
      rw [scan_letter halpha hrun hends, hcallee]
      dsimp only
      exact scanWord_alone (isAlphanum_of_mem_cons halpha hrun) hends halone
  | @pair c run second _ halpha hrun hdigit hsecond hends =>
      -- A run with a digit calls no function, so the colon is looked at.
      have hcolon : EndsRun Char.isAlphanum (':' :: (second ++ rest)) := endsRun_cons rfl
      refine ⟨c, run ++ ':' :: (second ++ rest), rfl, ?_⟩
      rw [scan_letter halpha hrun hcolon, callee?_of_digit hdigit]
      dsimp only
      have hall := isAlphanum_of_mem_cons halpha hrun
      rw [scanWord, takeWhile_run hall hcolon, dropWhile_run hall hcolon]
      simp only [if_pos hdigit, takeWhile_run hsecond hends, dropWhile_run hsecond hends]
  | @whole c run _ hrun hends =>
      refine ⟨c, run ++ rest, rfl, ?_⟩
      rw [scan_number (Or.inl (hrun c List.mem_cons_self)), ← List.cons_append,
        scanNumber_whole hrun hends]
  | @wholePercent c run _ hrun =>
      have hpercent : EndsRun Char.isDigit ('%' :: rest) := endsRun_cons rfl
      refine ⟨c, run ++ '%' :: rest, rfl, ?_⟩
      rw [scan_number (Or.inl (hrun c List.mem_cons_self)), ← List.cons_append, scanNumber,
        takeWhile_run hrun hpercent, dropWhile_run hrun hpercent]
      rfl
  | @fraction whole fraction _ hwhole hfraction hends =>
      rcases exists_number hwhole (fraction ++ rest) with ⟨c, cs, ht, hc⟩
      refine ⟨c, cs, ht, ?_⟩
      rw [scan_number hc, ← ht, scanNumber_fraction hwhole hfraction hends]
  | @fractionPercent whole fraction _ hwhole hfraction =>
      have hpoint : EndsRun Char.isDigit ('.' :: (fraction ++ '%' :: rest)) := endsRun_cons rfl
      have hpercent : EndsRun Char.isDigit ('%' :: rest) := endsRun_cons rfl
      rcases exists_number hwhole (fraction ++ '%' :: rest) with ⟨c, cs, ht, hc⟩
      refine ⟨c, cs, ht, ?_⟩
      rw [scan_number hc, ← ht, scanNumber, takeWhile_run hwhole hpoint,
        dropWhile_run hwhole hpoint]
      simp only [takeWhile_run hfraction hpercent, dropWhile_run hfraction hpercent]
  | @twoPoints whole fraction _ hwhole hfraction =>
      have hpoint : EndsRun Char.isDigit ('.' :: (fraction ++ '.' :: rest)) := endsRun_cons rfl
      have hpoint' : EndsRun Char.isDigit ('.' :: rest) := endsRun_cons rfl
      rcases exists_number hwhole (fraction ++ '.' :: rest) with ⟨c, cs, ht, hc⟩
      refine ⟨c, cs, ht, ?_⟩
      rw [scan_number hc, ← ht, scanNumber, takeWhile_run hwhole hpoint,
        dropWhile_run hwhole hpoint]
      simp only [takeWhile_run hfraction hpoint', dropWhile_run hfraction hpoint']

-- The maximal run from a letter is a call, a corner of a range or a word.
theorem exists_starts_letter {c : Char} (halpha : c.isAlpha = true) (cs : List Char) :
    ∃ l rest, Starts l (c :: cs) rest := by
  rcases exists_run Char.isAlphanum cs with ⟨run, rest, rfl, hrun, hends⟩
  cases hcallee : callee? (c :: run) rest with
  | some f =>
      rcases callee?_eq_some_iff.1 hcallee with ⟨hnamed, hopen⟩
      exact ⟨_, _, .call hnamed hends hopen⟩
  | none =>
      -- With a digit in the word, a colon behind it makes a range.
      by_cases hpartner : (c :: run).any Char.isDigit = true ∧ rest.head? = some ':'
      · rcases hpartner with ⟨hdigit, hcolon⟩
        cases rest with
        | nil => cases hcolon
        | cons d x =>
            cases hcolon
            rcases exists_run Char.isAlphanum x with ⟨second, behind, rfl, hsecond, hbehind⟩
            exact ⟨_, _, .pair halpha hrun hdigit hsecond hbehind⟩
      · exact ⟨_, _, .word halpha hrun hends hcallee fun hdigit hcolon =>
          hpartner ⟨hdigit, hcolon⟩⟩

-- The maximal run of digits goes on with a point and more digits, or is a whole number.
theorem exists_starts_number {c : Char} (hc : c.isDigit = true ∨ c = '.') (cs : List Char) :
    ∃ l rest, Starts l (c :: cs) rest := by
  rcases exists_run Char.isDigit (c :: cs) with ⟨whole, rest, ht, hwhole, hends⟩
  rw [ht]
  by_cases hpoint : rest.head? = some '.'
  · cases rest with
    | nil => cases hpoint
    | cons d x =>
        cases hpoint
        rcases exists_run Char.isDigit x with ⟨fraction, behind, rfl, hfraction, hbehind⟩
        cases behind with
        | nil =>
            exact ⟨_, _, .fraction hwhole hfraction fun d hd => absurd hd (Option.not_mem_none d)⟩
        | cons d y =>
            by_cases hsecond : d = '.'
            · rw [hsecond]
              exact ⟨_, _, .twoPoints hwhole hfraction⟩
            by_cases hpercent : d = '%'
            · rw [hpercent]
              exact ⟨_, _, .fractionPercent hwhole hfraction⟩
            refine ⟨_, _, .fraction hwhole hfraction ?_⟩
            intro e he
            cases he
            exact ⟨hbehind d rfl, hsecond, hpercent⟩
  · cases whole with
    | nil =>
        -- Without a digit in front there has to be a point.
        rw [List.nil_append] at ht
        subst ht
        rcases hc with hc | rfl
        · rw [hends c rfl] at hc
          cases hc
        · exact absurd rfl hpoint
    | cons d run =>
        cases rest with
        | nil => exact ⟨_, _, .whole hwhole fun d hd => absurd hd (Option.not_mem_none d)⟩
        | cons e y =>
            by_cases hpercent : e = '%'
            · rw [hpercent]
              exact ⟨_, _, .wholePercent hwhole⟩
            refine ⟨_, _, .whole hwhole ?_⟩
            intro g hg
            cases hg
            exact ⟨hends e rfl, fun h => hpoint (congrArg some h), hpercent⟩

/-- Every text but the empty one starts with a lexeme. -/
theorem exists_starts (c : Char) (cs : List Char) : ∃ l rest, Starts l (c :: cs) rest := by
  by_cases hblank : isBlank c = true
  · exact ⟨_, _, .blank hblank⟩
  by_cases halpha : c.isAlpha = true
  · exact exists_starts_letter halpha cs
  by_cases hnumber : c.isDigit = true ∨ c = '.'
  · exact exists_starts_number hnumber cs
  · have halphanum : c.isAlphanum = false := by
      rw [Char.isAlphanum, Bool.or_eq_false_iff]
      exact ⟨Bool.eq_false_iff.2 halpha, Bool.eq_false_iff.2 fun h => hnumber (Or.inl h)⟩
    exact ⟨_, _, .mark (Bool.eq_false_iff.2 hblank) halphanum fun h => hnumber (Or.inr h)⟩

/-- A lexeme takes at least one character. -/
theorem Starts.length_lt {l : Lexeme} {t : List Char} (h : Starts l t rest) :
    rest.length < t.length := by
  rcases scan_of_starts h with ⟨c, cs, rfl, hscan⟩
  have hle := length_scan c cs
  rw [hscan] at hle
  exact Nat.lt_succ_of_le hle

/-- What holds of the empty text, and of a text if it holds behind its first lexeme, holds of all
    texts. -/
theorem starts_induction {P : List Char → Prop} (nil : P [])
    (lexeme : ∀ l t rest, Starts l t rest → P rest → P t) (t : List Char) : P t := by
  -- Each lexeme takes a character at least, so the induction is on the length of the text.
  induction hlength : t.length using Nat.strongRecOn generalizing t with
  | _ n ih =>
      cases t with
      | nil => exact nil
      | cons c cs =>
          rcases exists_starts c cs with ⟨l, rest, hstarts⟩
          have hlt := hstarts.length_lt
          rw [hlength] at hlt
          exact lexeme l _ rest hstarts (ih _ hlt rest rfl)

end Lexeme

/-- All lexemes are the one that starts the text and those of the rest. -/
theorem lexemes_of_starts {l : Lexeme} {t rest : List Char} (h : Lexeme.Starts l t rest) :
    lexemes t = l :: lexemes rest := by
  rcases Lexeme.scan_of_starts h with ⟨c, cs, rfl, hscan⟩
  rw [lexemes, hscan]

end Worksheet
