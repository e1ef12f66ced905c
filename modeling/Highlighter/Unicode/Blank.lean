import Highlighter.Unicode.Ranges

/-!
The Unicode property White_Space.
-/

set_option autoImplicit false

namespace Highlighter.Unicode

/-- White space: the tabulators and line breaks of ASCII, the space, the next-line control, and the
spaces and separators beyond. -/
def blankRanges : Ranges := #[
  (0x9, 0xd), (0x20, 0x20), (0x85, 0x85), (0xa0, 0xa0), (0x1680, 0x1680), (0x2000, 0x200a),
  (0x2028, 0x2029), (0x202f, 0x202f), (0x205f, 0x205f), (0x3000, 0x3000)]

def asciiBlankRanges : Ranges := #[(0x9, 0xd), (0x20, 0x20)]

def isBlank (c : Char) : Bool := blankRanges.contains c

theorem isBlank_of_isWhitespace {c : Char} (white : c.isWhitespace = true) : isBlank c = true := by
  simp only [Char.isWhitespace, Bool.or_eq_true, decide_eq_true_eq] at white
  rcases white with ((rfl | rfl) | rfl) | rfl <;> decide

end Highlighter.Unicode
