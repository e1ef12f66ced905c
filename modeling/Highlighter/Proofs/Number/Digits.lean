import Highlighter.Number.Decimal

/-!
Numbers and their digits. The digits that a number is written in are read as that number
(`natOfDigits?_toDigits`), so no two numbers are written alike, and there are no zeros in front.
-/

set_option autoImplicit false

namespace Highlighter

variable {base n value : Nat}

/-- One more digit of a number that is being read. -/
def addDigit (base value : Nat) (c : Char) : Option Nat :=
  (digitValue? c).bind fun digit => if digit < base then some (value * base + digit) else none

theorem natOfDigits?_eq (base : Nat) (digits : List Char) : natOfDigits? base digits =
    if digits.isEmpty then none else digits.foldlM (addDigit base) 0 := rfl

/-- A way to write digits that does not change what they are read as. -/
def Keeps (shape : Char → Char) : Prop :=
  ∀ digit < 16, digitValue? (shape digit.digitChar) = some digit

instance (shape : Char → Char) : Decidable (Keeps shape) :=
  inferInstanceAs (Decidable (∀ digit < 16, _))

theorem keeps_id : Keeps id := by decide

theorem keeps_toUpper : Keeps Char.toUpper := by decide

section

variable {shape : Char → Char}

theorem addDigit_digitChar (keeps : Keeps shape) {digit : Nat} (small : base ≤ 16) (bound : digit < base) :
    addDigit base value (shape digit.digitChar) = some (value * base + digit) := by
  rw [addDigit, keeps digit (Nat.lt_of_lt_of_le bound small), Option.bind_some, if_pos bound]

theorem foldlM_toDigits (keeps : Keeps shape) (some_base : 1 < base) (small : base ≤ 16) (n : Nat) :
    ((Nat.toDigits base n).map shape).foldlM (addDigit base) 0 = some n := by
  induction n using Nat.strongRecOn with
  | ind n ih =>
    rw [Nat.toDigits_eq_if some_base]
    split
    · next single =>
      rw [List.map_cons, List.foldlM_cons, addDigit_digitChar keeps small single, Nat.zero_mul, Nat.zero_add]
      rfl
    · next more =>
      have positive : 0 < base := Nat.lt_trans Nat.zero_lt_one some_base
      have shorter : n / base < n := Nat.div_lt_self (by omega) some_base
      rw [List.map_append, List.foldlM_append, ih (n / base) shorter, Option.bind_eq_bind, Option.bind_some,
        List.map_cons, List.foldlM_cons, addDigit_digitChar keeps small (Nat.mod_lt n positive),
        Nat.div_add_mod']
      rfl

/-- Zeros in front make no difference. -/
theorem natOfDigits?_map_toDigits (keeps : Keeps shape) (some_base : 1 < base) (small : base ≤ 16)
    (zeros n : Nat) :
    natOfDigits? base (List.replicate zeros '0' ++ (Nat.toDigits base n).map shape) = some n := by
  rw [natOfDigits?_eq, if_neg (by simp [Nat.toDigits_ne_nil])]
  induction zeros with
  | zero => exact foldlM_toDigits keeps some_base small n
  | succ zeros ih =>
    have zero : addDigit base 0 '0' = some 0 := by
      have digit : addDigit base 0 (id (Nat.digitChar 0)) = some (0 * base + 0) :=
        addDigit_digitChar keeps_id small (Nat.lt_trans Nat.zero_lt_one some_base)
      rwa [Nat.zero_mul, Nat.zero_add] at digit
    rw [List.replicate_succ, List.cons_append, List.foldlM_cons, zero]
    exact ih

end

theorem natOfDigits?_toDigits (some_base : 1 < base) (small : base ≤ 16) (zeros n : Nat) :
    natOfDigits? base (List.replicate zeros '0' ++ Nat.toDigits base n) = some n := by
  have read := natOfDigits?_map_toDigits keeps_id some_base small zeros n
  rwa [List.map_id] at read

theorem natOfDigits?_decimal (n : Nat) : natOfDigits? 10 (decimal n) = some n :=
  natOfDigits?_toDigits (by decide) (by decide) 0 n

theorem decimal_injective {m : Nat} (same : decimal n = decimal m) : n = m :=
  Option.some.inj ((natOfDigits?_decimal n).symm.trans (same ▸ natOfDigits?_decimal m))

theorem decimal_ne_nil (n : Nat) : decimal n ≠ [] := Nat.toDigits_ne_nil

theorem isAlphanum_digitChar {digit : Nat} (small : digit < 16) : digit.digitChar.isAlphanum = true := by
  decide +revert

theorem isAlphanum_of_mem_toDigits {c : Char} (some_base : 1 < base) (small : base ≤ 16)
    (known : c ∈ Nat.toDigits base n) : c.isAlphanum = true := by
  induction n using Nat.strongRecOn with
  | ind n ih =>
    rw [Nat.toDigits_eq_if some_base] at known
    split at known
    · next single =>
      rw [List.mem_singleton.1 known]
      exact isAlphanum_digitChar (Nat.lt_of_lt_of_le single small)
    · next more =>
      rcases List.mem_append.1 known with before | isLast
      · exact ih (n / base) (Nat.div_lt_self (by omega) some_base) before
      · rw [List.mem_singleton.1 isLast]
        exact isAlphanum_digitChar (Nat.lt_of_lt_of_le (Nat.mod_lt n (by omega)) small)

theorem isDigit_of_mem_decimal {c : Char} (known : c ∈ decimal n) : c.isDigit = true :=
  Nat.isDigit_of_mem_toDigits (by decide) (by decide) known

theorem noBreak_decimal (n : Nat) : '\n' ∉ decimal n := by
  intro known
  cases isDigit_of_mem_decimal known

theorem eq_zero_of_digitChar {digit : Nat} (bound : digit < 10) (zero : digit.digitChar = '0') :
    digit = 0 := by
  decide +revert

/-- Zero alone begins with a zero. -/
theorem eq_zero_of_head? (zero : (decimal n).head? = some '0') : n = 0 := by
  induction n using Nat.strongRecOn with
  | ind n ih =>
    rw [decimal, Nat.toDigits_eq_if (by decide)] at zero
    split at zero
    · next single => exact eq_zero_of_digitChar single (Option.some.inj zero)
    · next more =>
      obtain ⟨c, digits, head⟩ := List.exists_cons_of_ne_nil (decimal_ne_nil (n / 10))
      rw [← decimal, head] at zero
      have less := ih (n / 10) (by omega) (by rw [head]; exact zero)
      omega

end Highlighter
