/-
  NetBoot.Text.Hex — numbers and bytes as lower-case hexadecimal text.

  `hex` has no leading zeros, `hexPadded` has at least a given number of digits, and `hex0x`
  carries the `0x` mark. `digit?` reads one digit of either case and `ofDigits?` a run of them,
  most significant first.
-/

import NetBoot.Bytes

namespace NetBoot.Text

/-- Lower-case digits without leading zeros; zero is `0`. -/
def hex (n : Nat) : String := String.ofList (Nat.toDigits 16 n)

/-- At least `width` digits, filled with zeros on the left. -/
def hexPadded (width n : Nat) : String :=
  let ds := Nat.toDigits 16 n
  String.ofList (List.replicate (width - ds.length) '0' ++ ds)

def hex0x (n : Nat) : String := "0x" ++ hex n

/-- Marked with `0x`, filled with zeros to at least `digits` digits behind the mark. -/
def hex0xPadded (digits n : Nat) : String := "0x" ++ hexPadded digits n

/-- Two digits a byte. -/
def hexOfBytes (bs : List UInt8) : String := String.join (bs.map fun b => hexPadded 2 b.toNat)

/-- The value of a digit of either case. -/
def digit? (c : Char) : Option Nat :=
  if '0' ≤ c ∧ c ≤ '9' then some (c.toNat - '0'.toNat)
  else if 'a' ≤ c ∧ c ≤ 'f' then some (c.toNat - 'a'.toNat + 10)
  else if 'A' ≤ c ∧ c ≤ 'F' then some (c.toNat - 'A'.toNat + 10)
  else none

/-- The number a run of digits spells; `none` when one of them is no digit. -/
def ofDigits? (cs : List Char) : Option Nat :=
  cs.foldlM (fun n c => (digit? c).map (16 * n + ·)) 0

end NetBoot.Text
