/-!
How UTF-8 writes ranges of scalar values. A range is cut into parts of which each is written by a
sequence of byte ranges: any choice of one byte from each range writes a member of the part, and every
member is written so. The parts come in increasing order.
-/

set_option autoImplicit false

namespace Highlighter.Unicode

/-- Every scalar value is less than this. -/
def codeBound : Nat := 0x110000

def byteCount (code : Nat) : Nat :=
  if code < 0x80 then 1 else if code < 0x800 then 2 else if code < 0x10000 then 3 else 4

/-- One range of bytes for each byte of a sequence. -/
abbrev ByteRanges := List (Nat × Nat)

/-- Numbers with one leading digit and `trailing` further digits to base 64, from `first` to `last`,
cut into parts with a range for each digit. -/
def digitRanges : Nat → Nat → Nat → List ByteRanges
  | 0, first, last => [[(first, last)]]
  | trailing + 1, first, last =>
    let unit := 64 ^ (trailing + 1)
    let (high, low) := (first / unit, first % unit)
    let (highest, lowest) := (last / unit, last % unit)
    if high == highest then (digitRanges trailing low lowest).map ((high, high) :: ·)
    else
      let startsWhole := low == 0
      let endsWhole := lowest == unit - 1
      let whole := if startsWhole then high else high + 1
      let behind := if endsWhole then highest + 1 else highest
      (if startsWhole then [] else (digitRanges trailing low (unit - 1)).map ((high, high) :: ·)) ++
        (if whole < behind then [(whole, behind - 1) :: List.replicate (trailing + 1) (0, 63)]
          else []) ++
        (if endsWhole then [] else (digitRanges trailing 0 lowest).map ((highest, highest) :: ·))

/-- The byte ranges for digit ranges: the leading byte tells how many bytes there are. -/
def ofDigits : ByteRanges → ByteRanges
  | [] => []
  | [(first, last)] => [(first, last)]
  | (first, last) :: trailing =>
    let mark := match trailing.length with
      | 1 => 0xc0
      | 2 => 0xe0
      | _ => 0xf0
    (first + mark, last + mark) :: trailing.map fun (first, last) => (first + 0x80, last + 0x80)

/-- The longest runs of scalar values that take equally many bytes, with the number of bytes behind
the leading one. No scalar value lies between the third and the fourth. -/
def blocks : List (Nat × Nat × Nat) := [
  (0, 0x7f, 0), (0x80, 0x7ff, 1), (0x800, 0xd7ff, 2), (0xe000, 0xffff, 2), (0x10000, 0x10ffff, 3)]

def byteRanges (first last : Nat) : List ByteRanges :=
  blocks.flatMap fun (low, high, trailing) =>
    if max first low ≤ min last high then
      (digitRanges trailing (max first low) (min last high)).map ofDigits
    else []

end Highlighter.Unicode
