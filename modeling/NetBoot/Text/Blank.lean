/-
  NetBoot.Text.Blank — blank characters, trimming, lines, and ASCII case.

  Blank is the Unicode property White_Space, so it covers more than ASCII; `isBlankByte` is its
  part that a raw byte can be tested for in server answers.
-/

import NetBoot.Bytes

namespace NetBoot.Text

/-- The Unicode property White_Space. -/
def isBlank (c : Char) : Bool :=
  let n := c.toNat
  (9 ≤ n && n ≤ 13) || n == 0x20 || n == 0x85 || n == 0xA0 || n == 0x1680 ||
    (0x2000 ≤ n && n ≤ 0x200A) || n == 0x2028 || n == 0x2029 || n == 0x202F || n == 0x205F || n == 0x3000

/-- Tab, line feed, form feed, carriage return, space. -/
def isBlankByte (b : UInt8) : Bool := b == 9 || b == 10 || b == 12 || b == 13 || b == 32

def dropBlank (cs : List Char) : List Char := cs.dropWhile isBlank

/-- Drops what satisfies `p` at the end. -/
def dropEndWhile {α : Type} (p : α → Bool) (xs : List α) : List α := (xs.reverse.dropWhile p).reverse

def dropEndBlank (cs : List Char) : List Char := dropEndWhile isBlank cs

/-- Without the blanks at either end. -/
def trim (cs : List Char) : List Char := dropEndBlank (dropBlank cs)

/-- The lines of a text. A line feed ends a line, so a text that ends in one has no empty line
    behind it; a carriage return before the line feed belongs to the line's end. -/
def lines (cs : List Char) : List (List Char) :=
  match (cs.splitOn '\n').reverse with
  | [] => []
  | last :: front =>
    let ended := front.reverse.map dropReturn
    if last.isEmpty then ended else ended ++ [last]
where
  dropReturn (l : List Char) : List Char :=
    if l.getLast? = some '\r' then l.dropLast else l

def lowerByte (b : UInt8) : UInt8 := if 65 ≤ b && b ≤ 90 then b + 32 else b

/-- Equal up to the case of ASCII letters. -/
def sameLetters (a b : List Char) : Bool := a.map Char.toLower == b.map Char.toLower

end NetBoot.Text
