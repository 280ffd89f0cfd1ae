/-!
Numerals: natural numbers written in a base, after at most one plus sign.

Letters count as digits beyond nine in either case. Leading zeros do not matter.
-/

namespace ByteStreams

namespace Numeral

def digit? (character : Char) : Option Nat :=
  let code := character.toNat
  if 48 ≤ code ∧ code ≤ 57 then some (code - 48)
  else if 97 ≤ code ∧ code ≤ 122 then some (code - 87)
  else if 65 ≤ code ∧ code ≤ 90 then some (code - 55)
  else none

def digitIn? (base : Nat) (character : Char) : Option Nat :=
  (digit? character).filter (· < base)

def continue? (base number : Nat) : List Char → Option Nat
  | [] => some number
  | character :: rest =>
      match digitIn? base character with
      | some digit => continue? base (number * base + digit) rest
      | none => none

def digits? (base : Nat) : List Char → Option Nat
  | [] => none
  | character :: rest => continue? base 0 (character :: rest)

/-- The number that a numeral of a base stands for, unless it is above `greatest`. -/
def parse? (base greatest : Nat) (text : List Char) : Option Nat :=
  let digits := match text with
    | '+' :: rest => rest
    | _ => text
  (digits? base digits).filter (· ≤ greatest)

example : parse? 16 255 ['+', 'e', '2'] = some 226 := by decide +kernel

example : parse? 10 255 ['2', '5', '6'] = none := by decide +kernel

example : parse? 10 255 ['+'] = none := by decide +kernel

end Numeral

end ByteStreams
