import Highlighter.Span

/-!
The stack walk over a forest meets the spans in preorder (`Span.flatten_eq_preorderAll`).
-/

set_option autoImplicit false

namespace Highlighter.Span

theorem sizeAll_append (spans others : List Span) :
    sizeAll (spans ++ others) = sizeAll spans + sizeAll others := by
  induction spans with
  | nil => simp [sizeAll]
  | cons span spans ih => simp [sizeAll, ih, Nat.add_assoc]

theorem preorderAll_append (spans others : List Span) :
    preorderAll (spans ++ others) = preorderAll spans ++ preorderAll others := by
  induction spans with
  | nil => rfl
  | cons span spans ih => simp [preorderAll, ih]

theorem size_eq (span : Span) : span.size = sizeAll span.children + 1 := by
  cases span
  rfl

theorem preorder_eq (span : Span) : span.preorder = span :: preorderAll span.children := by
  cases span
  rfl

/-- A step takes one span off the stack and leaves those inside it. -/
theorem unstack_eq_preorderAll {steps : Nat} {stack : List Span} (enough : sizeAll stack ≤ steps) :
    unstack steps stack = preorderAll stack := by
  induction steps generalizing stack with
  | zero => cases stack with
    | nil => rfl
    | cons span stack =>
      rw [sizeAll, size_eq] at enough
      omega
  | succ steps ih => cases stack with
    | nil => rfl
    | cons span stack =>
      have left : sizeAll (span.children ++ stack) ≤ steps := by
        rw [sizeAll, size_eq] at enough
        rw [sizeAll_append]
        omega
      rw [unstack, ih left, preorderAll_append, preorderAll, preorder_eq, List.cons_append]

theorem flatten_eq_preorderAll (spans : List Span) : flatten spans = preorderAll spans :=
  unstack_eq_preorderAll (Nat.le_refl _)

end Highlighter.Span
