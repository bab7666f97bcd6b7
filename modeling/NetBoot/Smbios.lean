/-
  NetBoot.Smbios — the system's UUID in the tables that the firmware leaves behind.

  An entry point tells where the structure table lies. The table is a run of structures: a type, a
  length, a formatted area of that length in all, and a set of strings closed by two zero bytes.
  The UUID stands in the first structure of type 1, if that is long enough to have one and the
  bytes are neither all zero (not present) nor all ones (not set). `Structure.encode` writes
  structures the way the walk takes them.
-/

import NetBoot.Bytes
import NetBoot.Address

namespace NetBoot.Smbios

/-- Where a structure table lies, and how long it is at most. -/
structure TableRange where
  address : Address
  length : Nat
  deriving DecidableEq, Repr

/-- A table of no length, or at address zero, is none. -/
def TableRange.isEmpty (t : TableRange) : Bool := t.address == 0 || t.length == 0

/-- The bytes of a 32-bit entry point. -/
def entryPointSize : Nat := 0x1f

/-- The bytes of a 64-bit entry point. -/
def entryPoint3Size : Nat := 0x18

/-- The table of a 32-bit entry point, marked `_SM_` and `_DMI_`. -/
def entryPoint? (entry : Bytes) : Option TableRange :=
  if entry.size < entryPointSize then none
  else if !(entry.holdsAt 0 [0x5f, 0x53, 0x4d, 0x5f] && entry.holdsAt 0x10 [0x5f, 0x44, 0x4d, 0x49, 0x5f]) then none
  else do
    let length ← entry.u16At? 0x16
    let address ← entry.u32At? 0x18
    return ⟨address.toUInt64, length.toNat⟩

/-- The table of a 64-bit entry point, marked `_SM3_`. -/
def entryPoint3? (entry : Bytes) : Option TableRange :=
  if entry.size < entryPoint3Size then none
  else if !entry.holdsAt 0 [0x5f, 0x53, 0x4d, 0x33, 0x5f] then none
  else do
    let length ← entry.u32At? 0x0c
    let address ← entry.u64At? 0x10
    return ⟨address, length.toNat⟩

/-! ## Structures -/

/-- Describes the system, and holds its UUID. -/
def systemInformation : UInt8 := 1

/-- Closes the table. -/
def endOfTable : UInt8 := 127

/-- The bytes of a structure in front of its data: type, length and a 16-bit handle. -/
def headerSize : Nat := 4

/-- Where the UUID stands in a structure of type 1. -/
def uuidOffset : Nat := 8

/-- The shortest structure of type 1 that has a UUID. -/
def uuidMinLength : Nat := 0x19

/-- A structure: its data stand behind the type and the length byte. -/
structure Structure where
  kind : UInt8
  data : List UInt8
  strings : List (List UInt8)
  deriving DecidableEq, Repr

namespace Structure

/-- The formatted area: type, length and data. -/
def formatted (s : Structure) : List UInt8 := s.kind :: UInt8.ofNat (s.data.length + 2) :: s.data

/-- The strings, each closed by a zero byte, and one zero byte more; two when there is none. -/
def encodeStrings : List (List UInt8) → List UInt8
  | [] => [0, 0]
  | strings => strings.flatMap (· ++ [0]) ++ [0]

def encode (s : Structure) : List UInt8 := s.formatted ++ encodeStrings s.strings

end Structure

/-- What follows the first two zero bytes in a row. -/
def afterStrings? : List UInt8 → Option (List UInt8)
  | a :: b :: r => if a = 0 ∧ b = 0 then some r else afterStrings? (b :: r)
  | _ => none

theorem length_afterStrings? {l r : List UInt8} (h : afterStrings? l = some r) : r.length < l.length := by
  fun_induction afterStrings? l with
  | case1 a b t _ =>
    obtain rfl := Option.some.inj h
    simp only [List.length_cons]
    omega
  | case2 a b t _ ih =>
    have := ih h
    simp only [List.length_cons] at this ⊢
    omega
  | case3 => cases h

/-- The UUID in the formatted area of a structure of type 1. -/
def uuidOf? (area : List UInt8) : Option (List UInt8) :=
  if area.length < uuidMinLength then none
  else
    let uuid := (area.drop uuidOffset).take 16
    if uuid.all (· == 0) || uuid.all (· == 0xff) then none else some uuid

/-- The system's UUID by a structure table. -/
def systemUuid? : List UInt8 → Option (List UInt8)
  | kind :: len :: rest =>
    let table := kind :: len :: rest
    if table.length < headerSize || len.toNat < headerSize || table.length < len.toNat then none
    else if kind == systemInformation then uuidOf? (table.take len.toNat)
    else if kind == endOfTable then none
    else
      match _h : afterStrings? (table.drop len.toNat) with
      | none => none
      | some next => systemUuid? next
  | _ => none
termination_by table => table.length
decreasing_by
  have := length_afterStrings? _h
  simp only [List.length_drop, table] at this
  omega

/-- Digits of the bytes with these numbers. -/
def uuidPart (uuid : List UInt8) (positions : List Nat) : String :=
  Text.hexOfBytes (positions.map fun i => uuid.getD i 0)

/-- The text of a UUID, whose first three fields are stored low byte first. -/
def uuidText (uuid : List UInt8) : String :=
  "-".intercalate ([[3, 2, 1, 0], [5, 4], [7, 6], [8, 9], [10, 11, 12, 13, 14, 15]].map (uuidPart uuid))

end NetBoot.Smbios
