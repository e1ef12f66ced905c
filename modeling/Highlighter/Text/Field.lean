/-!
Fields: a text cut to a greatest number of characters and then filled with blanks to a least one.
-/

set_option autoImplicit false

namespace Highlighter

inductive Alignment where
  | left
  | right
  | center
  deriving DecidableEq, Repr

structure Field where
  alignment : Alignment := .left
  width : Nat := 0
  precision : Option Nat := none
  deriving DecidableEq, Repr

namespace Field

/-- How many of the blanks stand before the text; of an odd number, a centred text has the greater
part behind it. -/
def leading (alignment : Alignment) (blanks : Nat) : Nat :=
  match alignment with
  | .left => 0
  | .right => blanks
  | .center => blanks / 2

def fill (field : Field) (text : List Char) : List Char :=
  let kept := match field.precision with
    | none => text
    | some precision => text.take precision
  let blanks := field.width - kept.length
  let before := leading field.alignment blanks
  List.replicate before ' ' ++ kept ++ List.replicate (blanks - before) ' '

theorem width_le_length_fill (field : Field) (text : List Char) :
    field.width ≤ (field.fill text).length := by
  have leading_le : ∀ blanks, leading field.alignment blanks ≤ blanks := by
    intro blanks
    cases field.alignment <;> simp [leading]
    omega
  simp only [fill, List.length_append, List.length_replicate]
  split <;> grind

end Field

end Highlighter
