/-!
Numbers in positional notation: digits read, and decimal digits with a power of ten.
-/

set_option autoImplicit false

namespace Highlighter

def decimal (n : Nat) : List Char := Nat.toDigits 10 n

/-- The value of a digit; letters of either case go on from nine. -/
def digitValue? (c : Char) : Option Nat :=
  if c.isDigit then some (c.toNat - '0'.toNat)
  else if 'a' ≤ c && c ≤ 'z' then some (c.toNat - 'a'.toNat + 10)
  else if 'A' ≤ c && c ≤ 'Z' then some (c.toNat - 'A'.toNat + 10)
  else none

/-- The value of digits of this base; there is at least one. -/
def natOfDigits? (base : Nat) (digits : List Char) : Option Nat :=
  if digits.isEmpty then none
  else digits.foldlM (fun value c =>
    (digitValue? c).bind fun digit => if digit < base then some (value * base + digit) else none) 0

/-- The number `digits * 10 ^ power`, below zero if it is negative. -/
structure Decimal where
  isNegative : Bool := false
  digits : Nat
  power : Int := 0
  deriving DecidableEq, Repr

namespace Decimal

def takeSign : List Char → Bool × List Char
  | '-' :: rest => (true, rest)
  | '+' :: rest => (false, rest)
  | text => (false, text)

/-- The power of ten behind an `e`, of which nothing else may remain. -/
def readPower? : List Char → Option Int
  | [] => some 0
  | c :: rest =>
    if c != 'e' && c != 'E' then none
    else
      let (isNegative, digits) := takeSign rest
      (natOfDigits? 10 digits).map fun power => if isNegative then -(power : Int) else power

/-- An unsigned number: digits with at most one point before, among or behind them, and a power of
ten if there is one. -/
def read? (text : List Char) : Option Decimal :=
  let whole := text.takeWhile Char.isDigit
  let rest := text.dropWhile Char.isDigit
  let (fraction, rest) := match rest with
    | '.' :: rest => (rest.takeWhile Char.isDigit, rest.dropWhile Char.isDigit)
    | rest => ([], rest)
  match natOfDigits? 10 (whole ++ fraction), readPower? rest with
  | some digits, some power => some { digits, power := power - fraction.length }
  | _, _ => none

/-- The digits and as many zeros as the power asks for, or a point among the digits. -/
def write (number : Decimal) : List Char :=
  let digits := decimal number.digits
  let sign := if number.isNegative then ['-'] else []
  if 0 ≤ number.power then sign ++ digits ++ List.replicate number.power.toNat '0'
  else
    let places := number.power.natAbs
    let padded := List.replicate (places + 1 - digits.length) '0' ++ digits
    sign ++ padded.take (padded.length - places) ++ '.' :: padded.drop (padded.length - places)

def trim (number : Decimal) : Nat → Decimal
  | 0 => number
  | steps + 1 =>
    if number.digits != 0 && number.digits % 10 == 0 then
      { number with digits := number.digits / 10, power := number.power + 1 : Decimal }.trim steps
    else number

end Decimal

end Highlighter
