/-
  NetBoot.Proofs.Menu.Limits — how long the strings of a menu are.

  Of each string of a record no more bytes are read than its limit. They need not be UTF-8, and the limit
  may fall within a character; then the text that is kept has U+FFFD in their place and can be longer than
  the limit (`split_guid_overruns`). How long it is depends on the bytes of the field alone (`Keeps`): it
  is within the limit if the bytes up to there are UTF-8, at most two bytes over it if the field is UTF-8
  and cut within a character, and never longer than three times the limit (`kept_strings_bounded`).
-/

import NetBoot.Proofs.Menu.Grammar
import NetBoot.Proofs.Text.Replacement

namespace NetBoot.Menu.Grammar

open Text (decodeLossy gained)
open Menu.Record (encode maxText maxCommand maxGuid maxPathPrefix)
open File (content parse)

/-! ## One string -/

/-- The bytes are UTF-8. -/
def IsUtf8 (bs : List UInt8) : Prop := ∃ cs : List Char, bs = cs.flatMap String.utf8EncodeChar

/-- How long a string is that is kept of the bytes of a field. -/
structure Keeps (max : Nat) (field : List UInt8) (s : String) : Prop where
  size_eq : s.utf8ByteSize = (field.take max).length + gained (field.take max)
  le_of_isUtf8_take : IsUtf8 (field.take max) → s.utf8ByteSize ≤ max
  le_of_isUtf8 : IsUtf8 field → s.utf8ByteSize ≤ max + 2
  le : s.utf8ByteSize ≤ 3 * max

theorem keeps_decodeLossy (max : Nat) (field : List UInt8) :
    Keeps max field (String.ofList (decodeLossy (field.take max))) := by
  have hsize := Text.utf8ByteSize_ofList (decodeLossy (field.take max))
  have hlen := Text.utf8Len_decodeLossy (field.take max)
  have htake := List.length_take_le max field
  refine ⟨by rw [hsize, hlen], ?_, ?_, ?_⟩
  · intro h
    obtain ⟨cs, hcs⟩ := h
    rw [hsize, hlen, hcs, Text.gained_flatMap_utf8EncodeChar, ← hcs]
    omega
  · intro h
    obtain ⟨cs, rfl⟩ := h
    rw [hsize]
    exact Text.utf8Len_decodeLossy_take cs max
  · have hgained := Text.gained_le (field.take max)
    omega

/-- Bytes none of which begins a character fill three times the limit. -/
example : (String.ofList (decodeLossy ((List.replicate 41 0xff).take maxGuid))).utf8ByteSize = 3 * maxGuid := by
  decide +kernel

/-! ## The strings of a record -/

/-- A length in four digits and that many bytes. -/
def Counted (field bs : List UInt8) : Prop := ∃ digits, bs = digits ++ field ∧ Numeral 4 field.length digits

/-- The bytes of the four strings of a record. -/
structure Strings where
  text : List UInt8
  command : List UInt8
  guid : List UInt8
  path : List UInt8

/-- The strings are those of the record. -/
def Strings.In (f : Strings) (record : List UInt8) : Prop :=
  ∃ kind flags text command guid path last, record = kind ++ flags ++ text ++ command ++ guid ++ path ++ [last] ∧
    kind.length = 2 ∧ flags.length = 8 ∧ Counted f.text text ∧ Counted f.command command ∧ Counted f.guid guid ∧
    Counted f.path path

/-- The entry keeps the strings of the record. -/
def KeepsStrings (e : Entry) (record : List UInt8) : Prop :=
  ∃ f : Strings, f.In record ∧ Keeps maxText f.text e.text ∧ Keeps maxCommand f.command e.command ∧
    Keeps maxGuid f.guid e.bootEnvGuid ∧ Keeps maxPathPrefix f.path e.pathPrefix

theorem Field.exists_keeps {max : Nat} {s : String} {bs : List UInt8} (h : Field max s bs) :
    ∃ field, Counted field bs ∧ Keeps max field s := by
  obtain ⟨len, digits, field, hbs, hdigits, hlen, hs⟩ := h
  subst hlen
  refine ⟨field, ⟨digits, hbs, hdigits⟩, ?_⟩
  have htake : field.take (min field.length max) = field.take max := by
    rw [Nat.min_comm, ← List.take_take, List.take_length]
  rw [hs, htake]
  exact keeps_decodeLossy max field

theorem Record.keepsStrings {e : Entry} {record : List UInt8} (h : Record e record) : KeepsStrings e record := by
  obtain ⟨_, hkind, hflags, htext, hcommand, hguid, hpath⟩ := h
  obtain ⟨text, ht, hkt⟩ := htext.exists_keeps
  obtain ⟨command, hc, hkc⟩ := hcommand.exists_keeps
  obtain ⟨guid, hg, hkg⟩ := hguid.exists_keeps
  obtain ⟨path, hp, hkp⟩ := hpath.exists_keeps
  refine ⟨⟨text, command, guid, path⟩, ?_, hkt, hkc, hkg, hkp⟩
  exact ⟨_, _, _, _, _, _, _, rfl, hkind.2, hflags.2, ht, hc, hg, hp⟩

theorem Records.exists_keepsStrings {es : List Entry} {bs : List UInt8} (h : Records es bs) :
    ∃ rs : List (List UInt8), bs = rs.flatten ∧ List.Forall₂ KeepsStrings es rs := by
  induction h with
  | nil => exact ⟨[], rfl, .nil⟩
  | @cons e es record rest he _ ih =>
    obtain ⟨rs, hrest, hkept⟩ := ih
    exact ⟨record :: rs, by rw [List.flatten_cons, hrest], .cons he.keepsStrings hkept⟩

/-! ## The strings of a menu -/

/-- The records of a menu file and its entries correspond one to one, and each entry keeps of the strings of its record
    what their limits and their bytes allow. -/
theorem kept_strings_bounded {data : Bytes} {es : List Entry} (h : parse data = .ok es) :
    ∃ rs rest, content data = rs.flatten ++ rest ∧ rest.length ≤ 1 ∧ List.Forall₂ KeepsStrings es rs := by
  obtain ⟨-, records, rest, hdata, hrecords, hrest⟩ := parse_ok_iff.mp h
  obtain ⟨rs, hrs, hkept⟩ := hrecords.exists_keepsStrings
  exact ⟨rs, rest, by rw [hdata, hrs], hrest, hkept⟩

/-- A file of one entry, whose text has fewer characters than bytes. -/
theorem oneEntry_bounded :
    let e : Entry := ⟨.chainload, 1, "Städte", "\\wdsmgfw.efi", "guid-1", "/pe"⟩
    parse (encode e).toArray = .ok [e] ∧ ∃ rs rest, content (encode e).toArray = rs.flatten ++ rest ∧
      rest.length ≤ 1 ∧ List.Forall₂ KeepsStrings [e] rs := by
  intro e
  have h : parse (encode e).toArray = .ok [e] := by decide +kernel
  exact ⟨h, kept_strings_bounded h⟩

/-- An identifier of 41 bytes of UTF-8 that is cut within its last character is kept as 42 bytes. -/
theorem split_guid_overruns :
    let file := encode ⟨.text, 0, "", "", "00000000-0000-0000-0000-000000000000/00é", ""⟩
    ∃ e, parse file.toArray = .ok [e] ∧ e.bootEnvGuid.utf8ByteSize = 42 ∧ ¬ e.bootEnvGuid.utf8ByteSize ≤ maxGuid := by
  refine ⟨⟨.text, 0, "", "", "00000000-0000-0000-0000-000000000000/00\uFFFD", ""⟩, ?_, ?_, ?_⟩ <;> decide +kernel

end NetBoot.Menu.Grammar
