import Highlighter.Pattern.Marks

/-!
Ways on from somewhere, as a tree in the order of preference. Ways meet where they go on in the same
manner: at a point of a pattern and an offset in a text, which the tree names. `explore` finds the
first answer and goes on from each meeting once.
-/

set_option autoImplicit false

namespace Highlighter

inductive Ways (α : Type) where
  | fail
  | answer (found : α)
  /-- The ways of `first`, and behind them those of `second`. -/
  | orElse (first : Ways α) (second : Unit → Ways α)
  | meet (point offset : Nat) (next : Unit → Ways α)

namespace Ways

variable {α : Type}

/-- The first choice of a repetition goes on if it is eager, and leaves if it is lazy. -/
def either (eager : Bool) (goOn leave : Unit → Ways α) : Ways α :=
  if eager then (goOn ()).orElse leave else (leave ()).orElse goOn

/-- The first answer, and the marks of what has been tried. A meeting that is marked has been tried
already, or is being tried, so it is left out. -/
def explore : Ways α → Marks → Option α × Marks
  | .fail, marks => (none, marks)
  | .answer found, marks => (some found, marks)
  | .orElse first second, marks =>
    match first.explore marks with
    | (some found, marks) => (some found, marks)
    | (none, marks) => (second ()).explore marks
  | .meet point offset next, marks =>
    if marks.contains point offset then (none, marks)
    else (next ()).explore (marks.insert point offset)

end Ways

end Highlighter
