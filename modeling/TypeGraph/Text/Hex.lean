/-!
# Hexadecimal text

Addresses, operands and discriminant bytes are written in lowercase hexadecimal. This module holds
the two ways of doing so: with as few digits as possible, and filled up with zeros to a least
number of digits.

## Main definitions

* `Text.hex` — the digits alone
* `Text.hexPadded` — at least a given number of digits

## Main results

* `Text.hexPadded_eq_hex` — filling up changes nothing once there are enough digits
-/

namespace TypeGraph

namespace Text

/-- The lowercase hexadecimal digits of `n`, without leading zeros; zero is written `0`. -/
def hex (n : Nat) : String := String.ofList (Nat.toDigits 16 n)

/-- The hexadecimal digits of `n`, filled up on the left with zeros to at least `width` digits. -/
def hexPadded (width n : Nat) : String := String.ofList ((Nat.toDigits 16 n).leftpad width '0')

/-- A number that has enough digits is not filled up. -/
theorem hexPadded_eq_hex {width n : Nat} (h : width ≤ (Nat.toDigits 16 n).length) :
    hexPadded width n = hex n := by
  simp [hexPadded, hex, List.leftpad, Nat.sub_eq_zero_of_le h]

end Text

end TypeGraph
