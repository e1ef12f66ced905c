import Highlighter.Span

/-!
Markup: the source text with every span between tags, the spans inside it between tags of their own.
The class attribute of a tag names the category, behind a class that all tags have in common.
-/

set_option autoImplicit false

namespace Highlighter.Markup

def defaultClass : String := "token"

/-- Characters that markup gives a meaning are written as entities. -/
def escapeChar (c : Char) : List Char :=
  match c with
  | '&' => "&amp;".toList
  | '<' => "&lt;".toList
  | '>' => "&gt;".toList
  | '"' => "&quot;".toList
  | '\'' => "&#39;".toList
  | c => [c]

def escape (text : List Char) : List Char := text.flatMap escapeChar

/-- The tag before a span. Without a common class the category stands alone. -/
def openTag (commonClass : List Char) (category : Category) : List Char :=
  "<span class=\"".toList ++ (if commonClass.isEmpty then [] else commonClass ++ [' ']) ++
    category.name.toList ++ "\">".toList

def closeTag : List Char := "</span>".toList

def gap (source : List Char) (reached start : Nat) : Option (List Char) :=
  if reached < start then (slice? source reached start).map escape else some []

mutual

def renderOne (source commonClass : List Char) : Span → Option (List Char)
  | ⟨category, start, stop, children⟩ => do
    let inside ← renderAll source commonClass start stop children
    some (openTag commonClass category ++ inside ++ closeTag)

/-- The markup of the range from `reached` to `bound`. -/
def renderAll (source commonClass : List Char) (reached bound : Nat) :
    List Span → Option (List Char)
  | [] => gap source reached bound
  | span :: spans => do
    let before ← gap source reached span.start
    let token ← renderOne source commonClass span
    let after ← renderAll source commonClass span.stop bound spans
    some (before ++ (token ++ after))

end

/-- The markup of `source`. There is none if the spans leave a stretch between them that is not one
of the text. -/
def render (commonClass source : List Char) (spans : List Span) : Option (List Char) :=
  renderAll source commonClass 0 (byteLength source) spans

end Highlighter.Markup
