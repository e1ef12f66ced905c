import Highlighter.Text.Bytes
import Highlighter.Unicode.Extender
import Highlighter.Unicode.Printable

/-!
Quoted literals: a text between double quotes, on one line and in visible characters. What has no
visible form of its own, or would join the character before it, is written by its scalar value.
-/

set_option autoImplicit false

namespace Highlighter.Quoted

/-- A scalar value in hexadecimal digits between braces. -/
def escapeCode (c : Char) : List Char :=
  ['\\', 'u', '\x7b'] ++ Nat.toDigits 16 c.toNat ++ ['\x7d']

def escapeChar (c : Char) : List Char :=
  match c with
  | '\x00' => ['\\', '0']
  | '\t' => ['\\', 't']
  | '\r' => ['\\', 'r']
  | '\n' => ['\\', 'n']
  | '\\' => ['\\', '\\']
  | '"' => ['\\', '"']
  | c => if Unicode.isExtender c || !Unicode.isPrintable c then escapeCode c else [c]

def quote (text : List Char) : List Char := '"' :: text.flatMap escapeChar ++ ['"']

end Highlighter.Quoted
