/-
  NetBoot.Text.Utf8 — bytes as UTF-8 text, read strictly or with replacement, and text cut to a
  byte length.

  `scan` reads one character at the front of a byte string: either the character, or the length
  of the longest beginning of one that the bytes still spell. `decode?` fails on the latter,
  `decodeLossy` writes U+FFFD for it. `cut` keeps the longest run of whole characters that fits
  (`utf8Len_cut_le`), so it never splits one.
-/

import NetBoot.Bytes

namespace NetBoot.Text

/-- What stands in for bytes that spell no character. -/
def replacement : Char := Char.ofNat 0xFFFD

def isContinuation (b : UInt8) : Bool := 0x80 ≤ b && b ≤ 0xBF

/-- What a lead byte announces: how many bytes follow, the range of the first of them, and the
    bits the lead byte itself carries. -/
def lead? (b : UInt8) : Option (Nat × UInt8 × UInt8 × Nat) :=
  if 0xC2 ≤ b && b ≤ 0xDF then some (1, 0x80, 0xBF, b.toNat - 0xC0)
  else if b == 0xE0 then some (2, 0xA0, 0xBF, 0)
  else if b == 0xED then some (2, 0x80, 0x9F, 13)
  else if 0xE1 ≤ b && b ≤ 0xEF then some (2, 0x80, 0xBF, b.toNat - 0xE0)
  else if b == 0xF0 then some (3, 0x90, 0xBF, 0)
  else if 0xF1 ≤ b && b ≤ 0xF3 then some (3, 0x80, 0xBF, b.toNat - 0xF0)
  else if b == 0xF4 then some (3, 0x80, 0x8F, 4)
  else none

/-- Reads `need` more continuation bytes onto `acc`, having read `k` so far. -/
def scanTail : Nat → Nat → Nat → List UInt8 → Option Char × Nat
  | 0, acc, k, _ => (some (Char.ofNat acc), k)
  | _ + 1, _, k, [] => (none, k)
  | need + 1, acc, k, c :: r =>
    if isContinuation c then scanTail need (acc * 64 + (c.toNat - 0x80)) (k + 1) r else (none, k)

/-- Reads the character that `b` begins: the character, if the bytes spell one, and how many
    bytes of `r` belong to it. -/
def scan (b : UInt8) (r : List UInt8) : Option Char × Nat :=
  if b < 0x80 then (some (Char.ofNat b.toNat), 0)
  else match lead? b, r with
    | some (need, lo, hi, bits), c :: r' =>
      if lo ≤ c && c ≤ hi then scanTail (need - 1) (bits * 64 + (c.toNat - 0x80)) 1 r' else (none, 0)
    | _, _ => (none, 0)

/-- Every byte string as text; what spells no character becomes U+FFFD. -/
def decodeLossy : List UInt8 → List Char
  | [] => []
  | b :: r => (scan b r).1.getD replacement :: decodeLossy (r.drop (scan b r).2)
termination_by bs => bs.length
decreasing_by simp only [List.length_drop, List.length_cons]; omega

/-- The text the bytes spell, if they are well formed throughout. -/
def decode? : List UInt8 → Option (List Char)
  | [] => some []
  | b :: r => do
    let c ← (scan b r).1
    let cs ← decode? (r.drop (scan b r).2)
    return c :: cs
termination_by bs => bs.length
decreasing_by simp only [List.length_drop, List.length_cons]; omega

def stringLossy (b : Bytes) : String := String.ofList (decodeLossy b.toList)

def string? (b : Bytes) : Option String := (decode? b.toList).map String.ofList

/-! ## Cutting text to a byte length -/

/-- Bytes the text takes. -/
def utf8Len : List Char → Nat
  | [] => 0
  | c :: r => c.utf8Size + utf8Len r

/-- The longest run of whole characters at the front that takes at most `max` bytes. -/
def cut : Nat → List Char → List Char
  | _, [] => []
  | max, c :: r => if c.utf8Size ≤ max then c :: cut (max - c.utf8Size) r else []

def cutString (max : Nat) (s : String) : String := String.ofList (cut max s.toList)

theorem cut_prefix (max : Nat) (cs : List Char) : cut max cs <+: cs := by
  induction cs generalizing max with
  | nil => exact List.prefix_refl _
  | cons c r ih =>
    simp only [cut]
    split
    · exact (List.prefix_cons_inj c).mpr (ih _)
    · exact List.nil_prefix

theorem utf8Len_cut_le (max : Nat) (cs : List Char) : utf8Len (cut max cs) ≤ max := by
  induction cs generalizing max with
  | nil => exact Nat.zero_le _
  | cons c r ih =>
    simp only [cut]
    split
    · have := ih (max - c.utf8Size)
      simp only [utf8Len]
      omega
    · exact Nat.zero_le _

theorem cut_eq_self {max : Nat} {cs : List Char} (h : utf8Len cs ≤ max) : cut max cs = cs := by
  induction cs generalizing max with
  | nil => rfl
  | cons c r ih =>
    simp only [utf8Len] at h
    simp only [cut]
    rw [if_pos (by omega), ih (by omega)]

end NetBoot.Text
