import Calculator.Expr.Basic
import Calculator.Number.Shortest

/-!
# Listings of trees

A tree is listed over several lines, a node per block: its kind, its fields one step further in, each closed by a
comma, and a closing bracket.
-/

namespace Calculator

/-- A line of a listing: how many steps it is set in, and what it says. -/
structure ListingLine where
  level : Nat
  text : String
  deriving DecidableEq, Repr

namespace ListingLine

/-- The line with its margin, four spaces a step. -/
def render (line : ListingLine) : String :=
  String.ofList (List.replicate (4 * line.level) ' ') ++ line.text

end ListingLine

/-- The same lines one step further in. -/
def setIn (lines : List ListingLine) : List ListingLine :=
  lines.map fun line => { line with level := line.level + 1 }

/-- Adds `text` at the start of the first line. -/
def putBefore (text : String) : List ListingLine → List ListingLine
  | [] => []
  | line :: lines => { line with text := text ++ line.text } :: lines

/-- Adds a comma at the end of the last line. -/
def closeField : List ListingLine → List ListingLine
  | [] => []
  | [line] => [{ line with text := line.text ++ "," }]
  | line :: lines => line :: closeField lines

/-- A block: an opening line, its fields set in, a closing line. -/
def block (opening : String) (fields : List (List ListingLine)) (closing : String) : List ListingLine :=
  ⟨0, opening⟩ :: setIn (fields.flatMap closeField) ++ [⟨0, closing⟩]

/-- A field with its name. -/
def namedField (name : String) (lines : List ListingLine) : List ListingLine :=
  putBefore (name ++ ": ") lines

/-- The lines of a binary operator. -/
def BinaryOp.listing (op : BinaryOp) : List ListingLine :=
  [⟨0, op.label⟩]

/-- The lines of a prefix operator. -/
def UnaryOp.listing : UnaryOp → List ListingLine
  | .identity => [⟨0, "Identity"⟩]
  | .negate => [⟨0, "Negate"⟩]
  | .function f => block "Function(" [[⟨0, f.label⟩]] ")"

namespace Expr

/-- The lines a tree is listed by. -/
def listing : Expr → List ListingLine
  | value x => block "Value(" [[⟨0, detailedText x⟩]] ")"
  | unary op e =>
    block "UnaryOp \x7b" [namedField "op" op.listing, namedField "operand" e.listing] "\x7d"
  | binary op l r =>
    block "BinaryOp \x7b" [namedField "op" op.listing, namedField "left" l.listing, namedField "right" r.listing]
      "\x7d"

/-- The listing as one text. -/
def listingText (e : Expr) : String :=
  "\n".intercalate (e.listing.map ListingLine.render)

end Expr

end Calculator
