import Highlighter.Number.Decimal

/-!
Numbers of double precision: the one nearest to a decimal number, and the shortest decimal number to
which it is the nearest one.
-/

set_option autoImplicit false

namespace Highlighter

inductive Double where
  /-- The number `significand * 2 ^ exponent`, with a significand below `2 ^ 53`. -/
  | finite (isNegative : Bool) (significand : Nat) (exponent : Int)
  | infinite (isNegative : Bool)
  | notANumber
  deriving DecidableEq, Repr

namespace Double

def leastExponent : Int := -1074

def greatestExponent : Int := 971

/-- The factors that turn `base ^ power` into a quotient of whole numbers. -/
def powerQuotient (base : Nat) (power : Int) : Nat × Nat :=
  if 0 ≤ power then (base.pow power.toNat, 1) else (1, base.pow power.natAbs)

/-- The whole number nearest to a quotient; a half goes to the even neighbour. -/
def roundQuotient (numerator denominator : Nat) : Nat :=
  let whole := numerator / denominator
  let twice := 2 * (numerator % denominator)
  if denominator < twice || (twice == denominator && whole % 2 == 1) then whole + 1 else whole

/-- The number of this exponent nearest to a quotient. -/
def significandAt (numerator denominator : Nat) (exponent : Int) : Nat :=
  let (up, down) := powerQuotient 2 exponent
  roundQuotient (numerator * down) (denominator * up)

def nearest (isNegative : Bool) (numerator denominator : Nat) : Double :=
  let magnitude : Int := numerator.log2 - denominator.log2
  let low := max (magnitude - 53) leastExponent
  let exponent := if significandAt numerator denominator low < 1 <<< 53 then low else low + 1
  let significand := significandAt numerator denominator exponent
  let (significand, exponent) :=
    if significand == 1 <<< 53 then (1 <<< 52, exponent + 1) else (significand, exponent)
  if greatestExponent < exponent then .infinite isNegative
  else .finite isNegative significand exponent

/-- The double nearest to a decimal number. What is far out of range is not computed. -/
def ofDecimal (number : Decimal) : Double :=
  let magnitude : Int := (decimal number.digits).length + number.power
  if number.digits == 0 || magnitude < -400 then .finite number.isNegative 0 leastExponent
  else if 400 < magnitude then .infinite number.isNegative
  else
    let (up, down) := powerQuotient 10 number.power
    nearest number.isNegative (number.digits * up) down

/-- Whether `digits * 10 ^ power` lies between `low` and `high` quarters of the unit of a double,
bounds included or not. -/
def liesBetween (low high : Nat) (unit : Nat × Nat) (included : Bool) (digits : Nat) (power : Int) :
    Bool :=
  let (up, down) := powerQuotient 10 power
  let number := 4 * digits * up * unit.2
  let least := low * unit.1 * down
  let greatest := high * unit.1 * down
  if included then least ≤ number && number ≤ greatest else least < number && number < greatest

/-- The decimal number of so many digits that is nearest to a double, if that is the nearest double
in turn; halfway between two it is the greater one. `leading` is the power of ten above the double. -/
def withDigits? (significand : Nat) (exponent leading : Int) (count : Nat) : Option (Nat × Int) :=
  let power := leading - count
  let unit := powerQuotient 2 exponent
  let (up, down) := powerQuotient 10 power
  let low := 4 * significand - if significand == 1 <<< 52 && leastExponent < exponent then 1 else 2
  let lies := fun digits =>
    liesBetween low (4 * significand + 2) unit (significand % 2 == 0) digits power
  let numerator := significand * unit.1 * down
  let denominator := unit.2 * up
  let below := numerator / denominator
  let candidates :=
    if 2 * (numerator % denominator) < denominator then [below, below + 1] else [below + 1, below]
  (candidates.find? lies).map (·, power)

def leadingPower (significand : Nat) (exponent : Int) : Int :=
  let unit := powerQuotient 2 exponent
  let isAbove := fun power : Int =>
    let (up, down) := powerQuotient 10 power
    significand * unit.1 * down < up * unit.2
  ((List.range 640).map fun step : Nat => (step : Int) - 325).find? isAbove |>.getD 315

/-- The shortest decimal number to which a double is the nearest, and of those the nearest to it. -/
def shortest (isNegative : Bool) (significand : Nat) (exponent : Int) : Decimal :=
  if significand == 0 then { isNegative, digits := 0 }
  else
    let leading := leadingPower significand exponent
    match (List.range 17).findSome? fun step =>
        withDigits? significand exponent leading (step + 1) with
    | some (digits, power) => ({ isNegative, digits, power : Decimal }).trim 20
    | none => { isNegative, digits := significand }

/-- A double in decimal notation, without a power of ten and without a point if it is whole. -/
def write : Double → List Char
  | .finite isNegative significand exponent => (shortest isNegative significand exponent).write
  | .infinite false => "inf".toList
  | .infinite true => "-inf".toList
  | .notANumber => "NaN".toList

end Double

end Highlighter
