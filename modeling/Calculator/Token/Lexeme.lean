import Calculator.Text.WhiteSpace
import Calculator.Token.Basic

/-!
# From text to tokens

A text is read character by character.  The characters read last may form a *lexeme* that the next one can still
extend: a number, a run of minus signs or a run of small letters.  When it cannot, the lexeme is closed and becomes a
token.

* a number is digits, possibly a point, and possibly more digits;
* a run of minus signs counts as one sign, a minus if their number is odd and a plus if it is even;
* a run of small letters is the operator `e` or the name of a function;
* `+ * / ^ ( )` are tokens by themselves, and white space only separates.

`tokenize` stops at the first character that begins no lexeme and at the first letter run that names no function.
-/

namespace Calculator

/-- Why a text has no tokens; positions count characters from the start. -/
inductive LexicalError
  /-- The character at `position` begins no lexeme. -/
  | invalidCharacter (character : Char) (position : Nat)
  /-- The letter run that ends just before `position` is no name. -/
  | invalidFunctionName (name : String) (position : Nat)
  deriving DecidableEq, Repr

namespace LexicalError

/-- Where the error lies. -/
def position : LexicalError → Nat
  | invalidCharacter _ position => position
  | invalidFunctionName _ position => position

/-- The error in words. -/
def message : LexicalError → String
  | invalidCharacter c position => "Invalid character: " ++ c.toString ++ " at position " ++ toString position
  | invalidFunctionName name position => "Invalid function: " ++ name ++ " at position " ++ toString position

end LexicalError

/-- What the next character may extend.  Texts are kept with the latest character first. -/
inductive Lexeme
  /-- Nothing: white space, or a token that is complete. -/
  | closed
  /-- The digits of a number up to now. -/
  | whole (text : List Char)
  /-- A number with its point. -/
  | fraction (text : List Char)
  /-- A run of minus signs, of an odd or even number. -/
  | minus (odd : Bool)
  /-- A run of small letters. -/
  | word (text : List Char)
  deriving DecidableEq, Repr

namespace Lexeme

/-- The lexeme with one more character, if that belongs to it. -/
def extend? : Lexeme → Char → Option Lexeme
  | closed, _ => none
  | whole text, c =>
    if c.isDigit then some (whole (c :: text)) else if c = '.' then some (fraction (c :: text)) else none
  | fraction text, c => if c.isDigit then some (fraction (c :: text)) else none
  | minus odd, c => if c = '-' then some (minus !odd) else none
  | word text, c => if c.isLower then some (word (c :: text)) else none

/-- The lexeme that begins with a character, if one does and is not complete at once. -/
def start? (c : Char) : Option Lexeme :=
  if c.isDigit then some (whole [c])
  else if c = '-' then some (minus true)
  else if c.isLower then some (word [c])
  else none

end Lexeme

/-- The token that a character is by itself. -/
def symbolToken? : Char → Option Token
  | '+' => some (.operator .add)
  | '*' => some (.operator .mul)
  | '/' => some (.operator .div)
  | '^' => some (.operator .pow)
  | '(' => some .leftParen
  | ')' => some .rightParen
  | _ => none

/-- The token that a run of small letters is. -/
def wordToken? (word : String) : Option Token :=
  if word = "e" then some (.operator .sci) else (Function.ofName? word).map .function

/-- How far a text has been read: the tokens that are complete, the lexeme that follows them and the number of
characters read. -/
structure Scan where
  tokens : Array Token := #[]
  lexeme : Lexeme := .closed
  position : Nat := 0
  deriving DecidableEq, Repr

namespace Scan

/-- Closes the lexeme. -/
def close (s : Scan) : Except LexicalError Scan :=
  let push (t : Token) : Scan := { s with tokens := s.tokens.push t, lexeme := .closed }
  match s.lexeme with
  | .closed => .ok s
  | .whole text | .fraction text => .ok (push (.number (String.ofList text.reverse)))
  | .minus odd => .ok (push (.operator (if odd then .sub else .add)))
  | .word text =>
    let word := String.ofList text.reverse
    match wordToken? word with
    | some t => .ok (push t)
    | none => .error (.invalidFunctionName word s.position)

/-- Reads a character that belongs to no earlier lexeme. -/
def start (s : Scan) (c : Char) : Except LexicalError Scan :=
  match Lexeme.start? c with
  | some lexeme => .ok { s with lexeme, position := s.position + 1 }
  | none =>
    match symbolToken? c with
    | some t => .ok { s with tokens := s.tokens.push t, position := s.position + 1 }
    | none =>
      if isWhiteSpace c then .ok { s with position := s.position + 1 }
      else .error (.invalidCharacter c s.position)

/-- Reads a character. -/
def step (s : Scan) (c : Char) : Except LexicalError Scan :=
  match s.lexeme.extend? c with
  | some lexeme => .ok { s with lexeme, position := s.position + 1 }
  | none => do
    let closed ← s.close
    closed.start c

end Scan

/-- The tokens of a text. -/
def tokenize (source : String) : Except LexicalError (List Token) := do
  let s ← source.toList.foldlM Scan.step {}
  let s ← s.close
  return s.tokens.toList

end Calculator
