import Highlighter.Number.Decimal
import Highlighter.Span
import Highlighter.Text.Quoted

/-!
The tree view: one line a span, with its category, range and quoted text, joined to the line of its
parent by a rule in the margin.
-/

set_option autoImplicit false

namespace Highlighter.Tree

def label (source : List Char) (category : Category) (start stop : Nat) : List Char :=
  category.name.toList ++ ' ' :: decimal start ++ "..".toList ++ decimal stop ++
    ' ' :: Quoted.quote (Span.textOf source start stop)

def connector (isLast : Bool) : List Char := if isLast then "└─ ".toList else "├─ ".toList

/-- What the margin of the children has in place of the connector. -/
def margin (isLast : Bool) : List Char := if isLast then "   ".toList else "│  ".toList

mutual

def lineOf (source indent : List Char) (isLast : Bool) : Span → List Char
  | ⟨category, start, stop, children⟩ =>
    indent ++ connector isLast ++ label source category start stop ++
      '\n' :: lines source (indent ++ margin isLast) children

def lines (source indent : List Char) : List Span → List Char
  | [] => []
  | span :: spans => lineOf source indent spans.isEmpty span ++ lines source indent spans

end

def render (source : List Char) (spans : List Span) : List Char := lines source [] spans

end Highlighter.Tree
