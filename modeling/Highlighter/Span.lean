import Highlighter.Category
import Highlighter.Text.Bytes

/-!
Spans of a text and forests of them: their text, the order in which they are met, and the plain
stretches between them. Offsets count bytes of UTF-8 and are taken as they are given: a span may have
been made for another text.
-/

set_option autoImplicit false

namespace Highlighter

/-- A classified range of a text, with the spans found inside it. -/
structure Span where
  category : Category
  start : Nat
  stop : Nat
  children : List Span
  deriving Repr

namespace Span

mutual

/-- Deriving does not see through the list of children, so spans are compared here. -/
def decEq : (span other : Span) → Decidable (span = other)
  | ⟨category, start, stop, children⟩, ⟨otherCategory, otherStart, otherStop, others⟩ =>
    match decEqAll children others with
    | isTrue same =>
      decidable_of_iff (category = otherCategory ∧ start = otherStart ∧ stop = otherStop) (by simp [same])
    | isFalse differs => isFalse (by simp [differs])

def decEqAll : (spans others : List Span) → Decidable (spans = others)
  | [], [] => isTrue rfl
  | [], _ :: _ => isFalse nofun
  | _ :: _, [] => isFalse nofun
  | span :: spans, other :: others =>
    match decEq span other, decEqAll spans others with
    | isTrue same, isTrue sameAll => isTrue (by rw [same, sameAll])
    | isFalse differs, _ => isFalse (by simp [differs])
    | _, isFalse differs => isFalse (by simp [differs])

end

instance : DecidableEq Span := decEq

def length (span : Span) : Nat := span.stop - span.start

def isEmpty (span : Span) : Bool := span.start == span.stop

/-- The text of a range, or nothing if the range is not one of this text. -/
def textOf (source : List Char) (start stop : Nat) : List Char := (slice? source start stop).getD []

theorem textOf_of_slice? {source covered : List Char} {start stop : Nat}
    (slice : slice? source start stop = some covered) : textOf source start stop = covered := by
  rw [textOf, slice, Option.getD_some]

def text (span : Span) (source : List Char) : List Char := textOf source span.start span.stop

mutual

/-- The span, and then everything inside it. -/
def preorder : Span → List Span
  | ⟨category, start, stop, children⟩ => ⟨category, start, stop, children⟩ :: preorderAll children

/-- Every span of a forest, each before the spans inside it and those before its next sibling. -/
def preorderAll : List Span → List Span
  | [] => []
  | span :: spans => span.preorder ++ preorderAll spans

end

mutual

def size : Span → Nat
  | ⟨_, _, _, children⟩ => sizeAll children + 1

def sizeAll : List Span → Nat
  | [] => 0
  | span :: spans => span.size + sizeAll spans

end

/-- Empty a stack of spans, each replaced by the spans inside it once it has been met. -/
def unstack : Nat → List Span → List Span
  | 0, _ => []
  | _ + 1, [] => []
  | steps + 1, span :: stack => span :: unstack steps (span.children ++ stack)

/-- The spans of a forest from left to right, those inside a span directly behind it. -/
def flatten (spans : List Span) : List Span := unstack (sizeAll spans) spans

/-- Top-level spans as pairs of a category and a text. -/
def tokens (source : List Char) (spans : List Span) : List (Category × List Char) :=
  spans.map fun span => (span.category, span.text source)

def allTokens (source : List Char) (spans : List Span) : List (Category × List Char) :=
  tokens source (flatten spans)

end Span

/-- A stretch of a text: plain, or one span of it. -/
inductive Segment where
  | plain (start stop : Nat)
  | token (span : Span)

namespace Segment

def start : Segment → Nat
  | .plain start _ => start
  | .token span => span.start

def stop : Segment → Nat
  | .plain _ stop => stop
  | .token span => span.stop

def text (segment : Segment) (source : List Char) : List Char :=
  Span.textOf source segment.start segment.stop

/-- The spans, with the plain stretches before, between and behind them as far as `bound`. A stretch
is plain if the span that follows begins behind the place reached. -/
def within (reached bound : Nat) : List Span → List Segment
  | [] => if reached < bound then [.plain reached bound] else []
  | span :: spans =>
    if reached < span.start then
      .plain reached span.start :: .token span :: within span.stop bound spans
    else .token span :: within span.stop bound spans

def ofSpans (source : List Char) (spans : List Span) : List Segment :=
  within 0 (byteLength source) spans

/-- The texts of all segments in a row. -/
def reconstruct (source : List Char) (spans : List Span) : List Char :=
  (ofSpans source spans).flatMap (·.text source)

end Segment

end Highlighter
