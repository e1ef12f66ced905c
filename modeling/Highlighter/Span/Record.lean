import Highlighter.Span

/-!
Records: spans together with the text they cover.
-/

set_option autoImplicit false

namespace Highlighter

structure Record where
  category : Category
  start : Nat
  stop : Nat
  text : List Char
  children : List Record
  deriving Repr

namespace Record

mutual

def ofSpan (source : List Char) : Span → Record
  | ⟨category, start, stop, children⟩ =>
    ⟨category, start, stop, Span.textOf source start stop, ofSpans source children⟩

def ofSpans (source : List Char) : List Span → List Record
  | [] => []
  | span :: spans => ofSpan source span :: ofSpans source spans

end

end Record

end Highlighter
