/-
  NetBoot.Text.Utf16 — 16-bit units: text as UTF-16, units as text, and the one-unit-a-character
  strings (UCS-2) that firmware takes.

  Firmware strings end at a zero unit. A character outside the basic plane has no such form and
  is written as a question mark; reading is the full UTF-16 reading, an unpaired surrogate
  becoming U+FFFD.
-/

import NetBoot.Text.Utf8

namespace NetBoot.Text

def isHighSurrogate (u : UInt16) : Bool := 0xD800 ≤ u && u ≤ 0xDBFF

def isLowSurrogate (u : UInt16) : Bool := 0xDC00 ≤ u && u ≤ 0xDFFF

def isSurrogate (u : UInt16) : Bool := 0xD800 ≤ u && u ≤ 0xDFFF

/-- The character that a surrogate pair spells. -/
def ofPair (hi lo : UInt16) : Char :=
  Char.ofNat (0x10000 + (hi.toNat - 0xD800) * 0x400 + (lo.toNat - 0xDC00))

/-- The units of one character: one below U+10000, a surrogate pair from there on. -/
def units (c : Char) : List UInt16 :=
  let n := c.toNat
  if n < 0x10000 then [UInt16.ofNat n]
  else [UInt16.ofNat (0xD800 + (n - 0x10000) / 0x400), UInt16.ofNat (0xDC00 + (n - 0x10000) % 0x400)]

def encodeUtf16 (cs : List Char) : List UInt16 := cs.flatMap units

/-- Units as text; an unpaired surrogate becomes U+FFFD. -/
def decodeUtf16 : List UInt16 → List Char
  | [] => []
  | u :: r =>
    if isHighSurrogate u then
      match r with
      | v :: r' =>
        if isLowSurrogate v then ofPair u v :: decodeUtf16 r' else replacement :: decodeUtf16 (v :: r')
      | [] => [replacement]
    else if isLowSurrogate u then replacement :: decodeUtf16 r
    else Char.ofNat u.toNat :: decodeUtf16 r

namespace Ucs2

/-- The single unit of a character, a question mark for one that has none. -/
def unit (c : Char) : UInt16 :=
  if c.toNat < 0x10000 then UInt16.ofNat c.toNat else 63

/-- The text as firmware takes it, with its zero unit. -/
def encode (cs : List Char) : List UInt16 := cs.map unit ++ [0]

/-- The same for the text console, where a line feed needs a carriage return before it. -/
def encodeConsole (cs : List Char) : List UInt16 :=
  (cs.flatMap fun c => if c = '\n' then [13, unit c] else [unit c]) ++ [0]

/-- The text before the first zero unit. -/
def decode (us : List UInt16) : List Char := decodeUtf16 (us.takeWhile (· != 0))

/-- The text in a firmware buffer of `size` bytes; `none` for no buffer and for one too short to
    hold a unit. -/
def decodeBuffer (buffer : Option (List UInt16)) (size : Nat) : Option (List Char) :=
  match buffer with
  | none => none
  | some us => if size < 2 then none else some (decode (us.take (size / 2)))

end Ucs2

end NetBoot.Text
