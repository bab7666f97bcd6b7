/-
  NetBoot.Key — keystrokes as the boot client sees them, from the scan code and unit that the
  firmware reports.

  The scan code decides first: arrows, function keys and escape have their own, and only scan
  code zero is a character, of which the printable ASCII range is kept as such.
-/

import NetBoot.Bytes

namespace NetBoot

inductive Key where
  | char (c : Char)
  | enter
  | escape
  | backspace
  | up
  | down
  /-- Function key `n`, from 1. -/
  | function (n : UInt8)
  /-- The scan code, or the unit, of any other keystroke. -/
  | unknown (code : UInt16)
  deriving DecidableEq, Repr

namespace Key

/-- The key of a unit that comes with scan code zero. -/
def ofUnit (unit : UInt16) : Key :=
  if unit = 0x08 then .backspace
  else if unit = 0x0D then .enter
  else if unit = 0x1B then .escape
  else if 0x20 ≤ unit ∧ unit < 0x7F then .char (Char.ofNat unit.toNat)
  else .unknown unit

def ofStroke (scan unit : UInt16) : Key :=
  if scan = 0x01 then .up
  else if scan = 0x02 then .down
  else if 0x0B ≤ scan ∧ scan ≤ 0x16 then .function (scan - 0x0A).toUInt8
  else if scan = 0x17 then .escape
  else if scan = 0 then ofUnit unit
  else .unknown scan

/-- The value of a decimal digit key. -/
def digit? : Key → Option Nat
  | .char c => if c.isDigit then some (c.toNat - '0'.toNat) else none
  | _ => none

end Key

end NetBoot
