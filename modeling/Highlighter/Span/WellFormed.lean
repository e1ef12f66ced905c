import Highlighter.Number.Decimal
import Highlighter.Span
import Highlighter.Text.Quoted

/-!
When a forest of spans fits a text: no span is empty, siblings are in order and apart, children stay
inside their parent, and no character is cut.
-/

set_option autoImplicit false

namespace Highlighter

namespace Span

mutual

def describe : Span → List Char
  | ⟨category, start, stop, children⟩ =>
    "ClassifiedSpan \x7b category: ".toList ++ category.label.toList ++
      ", start: ".toList ++ decimal start ++ ", end: ".toList ++ decimal stop ++
      ", children: [".toList ++ describeAll children ++ "] \x7d".toList

def describeAll : List Span → List Char
  | [] => []
  | [span] => span.describe
  | span :: spans => span.describe ++ ", ".toList ++ describeAll spans

end

inductive Defect where
  | empty
  | overlaps (reached : Nat)
  | escapes (start stop : Nat)
  | splits
  deriving DecidableEq, Repr

/-- Of several defects the first is reported. -/
def defect? (source : List Char) (reached start stop : Nat) (span : Span) : Option Defect :=
  if span.stop ≤ span.start then some .empty
  else if span.start < reached then some (.overlaps reached)
  else if stop < span.stop then some (.escapes start stop)
  else if !isBoundary source span.start || !isBoundary source span.stop then some .splits
  else none

structure Misfit where
  span : Span
  defect : Defect
  deriving Repr

mutual

/-- Check a span against the place reached in its parent's range, and then everything inside it. -/
def checkOne (source : List Char) (reached start stop : Nat) : Span → Except Misfit Unit
  | ⟨category, first, last, children⟩ =>
    match defect? source reached start stop ⟨category, first, last, children⟩ with
    | some defect => .error ⟨⟨category, first, last, children⟩, defect⟩
    | none => checkAll source first first last children

def checkAll (source : List Char) (reached start stop : Nat) : List Span → Except Misfit Unit
  | [] => .ok ()
  | span :: spans =>
    match checkOne source reached start stop span with
    | .error misfit => .error misfit
    | .ok () => checkAll source span.stop start stop spans

end

/-- Find the first span of a forest that does not fit `source`. -/
def check (source : List Char) (spans : List Span) : Except Misfit Unit :=
  checkAll source 0 0 (byteLength source) spans

/-- What is said of a span that does not fit `source`. -/
def Misfit.message (misfit : Misfit) (source : List Char) : List Char :=
  let span := misfit.span.describe
  let place := " in ".toList ++ Quoted.quote source
  match misfit.defect with
  | .empty => "empty span ".toList ++ span ++ place
  | .overlaps reached =>
    "span ".toList ++ span ++ " overlaps its predecessor (ends at ".toList ++ decimal reached ++
      ")".toList ++ place
  | .escapes start stop =>
    "span ".toList ++ span ++ " escapes its bounds ".toList ++ decimal start ++ "..".toList ++
      decimal stop ++ place
  | .splits => "span ".toList ++ span ++ " splits a character".toList ++ place

end Span

end Highlighter
