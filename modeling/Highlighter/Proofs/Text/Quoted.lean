import Highlighter.Proofs.Number.Digits
import Highlighter.Proofs.Text.Escapes
import Highlighter.Proofs.Text.Runs
import Highlighter.Text.Quoted

/-!
Quoted literals read back. Each character is read from its escape (`Quoted.char?_escapeChar`), so a literal
gives its text and ends where the quote closes (`Quoted.quote_inj`); it takes one line.
-/

set_option autoImplicit false

namespace Highlighter.Quoted

variable {c d : Char} {text other rest others : List Char}

/-- What the letter of an escape stands for. -/
def escaped? : Char → Option Char
  | '0' => some '\x00'
  | 't' => some '\t'
  | 'r' => some '\r'
  | 'n' => some '\n'
  | '\\' => some '\\'
  | '"' => some '"'
  | _ => none

/-- A scalar value in hexadecimal digits, up to the brace that closes. -/
def coded? (text : List Char) : Option (Char × List Char) :=
  let digits := text.takeWhile (· != '\x7d')
  (natOfDigits? 16 digits).map fun code => (Char.ofNat code, text.drop (digits.length + 1))

/-- The first character of a literal. -/
def char? : List Char → Option (Char × List Char)
  | '\\' :: 'u' :: '\x7b' :: rest => coded? rest
  | '\\' :: c :: rest => (escaped? c).map (·, rest)
  | c :: rest => some (c, rest)
  | [] => none

theorem noBrace (isDigit : c.isAlphanum = true) : (c != '\x7d') = true := by
  simp only [bne_iff_ne]
  rintro rfl
  cases isDigit

theorem coded?_digits (n : Nat) (rest : List Char) :
    coded? (Nat.toDigits 16 n ++ '\x7d' :: rest) = some (Char.ofNat n, rest) := by
  have isCode : natOfDigits? 16 (Nat.toDigits 16 n) = some n :=
    natOfDigits?_toDigits (by decide) (by decide) 0 n
  have isRun : (Nat.toDigits 16 n ++ '\x7d' :: rest).takeWhile (· != '\x7d') = Nat.toDigits 16 n :=
    takeWhile_run (fun c known => noBrace (isAlphanum_of_mem_toDigits (by decide) (by decide) known))
      (endsRun_cons rfl)
  simp only [coded?, isRun, isCode, Option.map_some, List.drop_append, List.drop_eq_nil_of_le, Nat.le_add_right,
    Nat.add_sub_cancel_left, List.nil_append, List.drop_succ_cons, List.drop_zero]

theorem char?_escapeCode (c : Char) (rest : List Char) : char? (escapeCode c ++ rest) = some (c, rest) := by
  have spelled : escapeCode c ++ rest =
      '\\' :: 'u' :: '\x7b' :: (Nat.toDigits 16 c.toNat ++ '\x7d' :: rest) := by
    simp [escapeCode]
  rw [spelled, char?, coded?_digits, Char.ofNat_toNat]

theorem char?_escapeChar (c : Char) (rest : List Char) : char? (escapeChar c ++ rest) = some (c, rest) := by
  unfold escapeChar
  split
  iterate 6 rfl
  next noEscape _ =>
    split
    · exact char?_escapeCode c rest
    -- A character that stands for itself begins no escape.
    · have other : c ≠ '\\' := noEscape
      rw [List.singleton_append, char?]
      all_goals simp [other]

theorem exists_escapeChar (c : Char) : ∃ d more, escapeChar c = d :: more ∧ d ≠ '"' := by
  unfold escapeChar
  split
  iterate 6 exact ⟨'\\', _, rfl, by decide⟩
  next noQuote =>
    split
    · exact ⟨'\\', _, rfl, by decide⟩
    · exact ⟨c, [], rfl, noQuote⟩

theorem escapes_char : Escapes escapeChar '"' := .of_reader exists_escapeChar char?_escapeChar

theorem quote_append (text rest : List Char) :
    quote text ++ rest = '"' :: (text.flatMap escapeChar ++ '"' :: rest) := by
  simp [quote]

theorem quote_inj (same : quote text ++ rest = quote other ++ others) : text = other ∧ rest = others := by
  rw [quote_append, quote_append] at same
  exact escapes_char.flatMap_inj (List.cons.inj same).2

theorem noBreak_escapeChar (c : Char) : '\n' ∉ escapeChar c := by
  unfold escapeChar
  split
  iterate 6 decide
  next noBreak _ _ =>
    split
    · intro known
      simp only [escapeCode, List.mem_append, List.mem_cons, Char.reduceEq, List.not_mem_nil, or_self, or_false,
        false_or] at known
      cases isAlphanum_of_mem_toDigits (by decide) (by decide) known
    · simpa using fun same => noBreak same.symm

theorem noBreak_quote (text : List Char) : '\n' ∉ quote text := by
  simp [quote, noBreak_escapeChar]

end Highlighter.Quoted
