import Worksheet.Decimal.Reading
import Worksheet.Formula.Error
import Worksheet.Formula.Expression
import Worksheet.Formula.Lexeme

/-!
# Formulas

A formula is a text that starts with the equals sign, apart from blanks around it. Its lexemes are
turned into tokens from left to right, so the first thing wrong with the text is what is reported.
Parentheses have to match already here; everything else about the order of the tokens shows only
when the formula is evaluated.

## Main definitions

* `Lexeme.token?`: What a lexeme stands for, if it has a meaning.
* `tokensFrom`: The tokens of a list of lexemes, checking parentheses.
* `Formula`: The tokens of a formula.
* `Formula.parse`: The formula that a text is, or what is wrong with it.
* `Formula.cells`, `Formula.ranges`: The references in it, each once.
* `Formula.kind`: Whether it has references or calls functions.
* `Formula.expression`: The expression that its tokens form.

## Theorems

* `tokensFrom_nil`: Lexemes run out well exactly when no parenthesis is open.
-/

namespace Worksheet

namespace Lexeme

/-- The number for digits before and behind a point. -/
def readLiteral (whole : List Char) (fraction : Option (List Char)) (percent : Bool) :
    Except SyntaxError Float :=
  if whole.isEmpty && (fraction.getD []).isEmpty then
    .error (.badNumber (String.ofList (literalChars whole fraction)))
  else
    let x := Decimal.toFloat whole (fraction.getD [])
    .ok (if percent then x / 100.0 else x)

/-- The cell that a word names. -/
def readWord (run : List Char) : Except SyntaxError Address :=
  if run.any Char.isDigit then
    (Address.ofChars run).mapError (.badCell (String.ofList run))
  else
    .error (.unknownWord (String.ofList run))

/-- The range that two words with a colon between them name. -/
def readPair (first second : List Char) : Except SyntaxError Range :=
  let text := first ++ ':' :: second
  (Range.ofChars text).mapError (.badRange (String.ofList text))

/-- The token that a lexeme at a position stands for; blanks and commas stand for none. -/
def token? (position : Nat) : Lexeme → Except SyntaxError (Option Token)
  | blank _ | comma => .ok none
  | call f _ => .ok (some (.function f))
  | word run => (readWord run).map fun a => some (.cell a)
  | pair first second => (readPair first second).map fun r => some (.range r)
  | operator op => .ok (some (.operator op))
  | opening => .ok (some .opening)
  | closing => .ok (some .closing)
  | literal whole fraction percent =>
    (readLiteral whole fraction percent).map fun x => some (.number x)
  | l@(twoPoints _ _) => .error (.badNumber (String.ofList l.chars))
  | stray c => .error (.unexpected c position)

/-- How many bytes the text of a lexeme takes. -/
def size (l : Lexeme) : Nat := l.chars.foldl (fun bytes c => bytes + c.utf8Size) 0

/-- How many parentheses are open behind a lexeme, if none closes too early. They are counted in a
    word of 32 bits with a sign, and one closes too early if it makes the count negative. -/
def depthAfter? (depth : Int32) : Lexeme → Option Int32
  | opening => some (depth + 1)
  | closing => if depth - 1 < 0 then none else some (depth - 1)
  | _ => some depth

end Lexeme

/-- The tokens of the lexemes from a position on, with `depth` parentheses open. -/
def tokensFrom (position : Nat) (depth : Int32) : List Lexeme → Except SyntaxError (List Token)
  | [] => if depth = 0 then .ok [] else .error .unmatchedOpening
  | l :: rest =>
    match l.depthAfter? depth with
    | none => .error (.unmatchedClosing (position + l.size))
    | some depth' => do
      let token ← l.token? position
      let tokens ← tokensFrom (position + l.size) depth' rest
      return token.toList ++ tokens

theorem tokensFrom_nil (position : Nat) (depth : Int32) :
    (∃ ts, tokensFrom position depth [] = .ok ts) ↔ depth = 0 := by
  rw [tokensFrom]
  constructor
  · rintro ⟨ts, h⟩
    split at h
    · assumption
    · cases h
  · intro h
    exact ⟨[], if_pos h⟩

/-- A formula without its equals sign, as a list of tokens. -/
structure Formula where
  /-- The tokens from left to right. -/
  tokens : List Token

namespace Formula

/-- What a formula is made of. -/
inductive Kind where
  /-- It has neither references nor functions. -/
  | constant
  /-- It has references but no functions. -/
  | expression
  /-- It calls a function. -/
  | function
  deriving DecidableEq, Repr

/-- The formula with the given text behind the equals sign. -/
def ofBody (body : List Char) : Except SyntaxError Formula :=
  (tokensFrom 0 0 (lexemes body)).map Formula.mk

/-- The formula that characters form. -/
def ofChars (cs : List Char) : Except SyntaxError Formula :=
  match Text.trim cs with
  | [] => .error .empty
  | '=' :: body => ofBody body
  | _ => .error .noEquals

/-- The formula that a text is, or what is wrong with it. -/
def parse (text : String) : Except SyntaxError Formula := ofChars text.toList

/-- The cells named by themselves, in the order of their first mention. -/
def cells (f : Formula) : List Address :=
  f.tokens.foldl (fun seen t =>
    match t with
    | .cell a => if a ∈ seen then seen else seen ++ [a]
    | _ => seen) []

/-- The ranges named, in the order of their first mention. -/
def ranges (f : Formula) : List Range :=
  f.tokens.foldl (fun seen t =>
    match t with
    | .range r => if r ∈ seen then seen else seen ++ [r]
    | _ => seen) []

/-- Whether the formula names a cell by itself. -/
def references (f : Formula) (a : Address) : Bool := f.cells.contains a

/-- Whether a token is the name of a function. -/
def isFunction : Token → Bool
  | .function _ => true
  | _ => false

/-- What the formula is made of. -/
def kind (f : Formula) : Kind :=
  if f.tokens.any isFunction then .function
  else if f.cells.isEmpty && f.ranges.isEmpty then .constant
  else .expression

/-- The expression that the tokens form. -/
def expression (f : Formula) : Expression := Expression.ofTokens f.tokens

end Formula

end Worksheet
