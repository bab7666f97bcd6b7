/-
  NetBoot.Proofs.Image.Container — which image of a fat container a machine gets.

  The container is written here by positions: the magic number, the count of entries, and a table of
  entries of twenty bytes. `Selects` says what a machine gets: the image of the first entry of its CPU
  type among those that are scanned, or an error if that one image is not all there, also when a later
  entry would do. `select` gives that and nothing else, on any bytes (`select_iff`).

  A container that is written has its entries and its images where the entries say (`encode_entry`,
  `encode_image`), so of the images that went in, a machine gets the first one for it.
-/

import NetBoot.Image.Fat
import NetBoot.Proofs.Bytes
import NetBoot.Proofs.Image.Format

namespace NetBoot.Image.Fat

/-! ## The format -/

section Positions

variable (raw : Bytes)

/-- The file has a header, and that starts with the magic number. -/
def Marked : Prop := 8 ≤ raw.size ∧ field raw 0 4 = 0x0ef1fab9

/-- How many entries are scanned: those that are announced, as far as the file holds them whole. -/
def scanned : Nat := min (field raw 4 4) ((raw.size - 8) / 20)

def cpuTypeOf (i : Nat) : Nat := field raw (8 + 20 * i) 4

/-- Where the image of an entry starts. -/
def startOf (i : Nat) : Nat := field raw (8 + 20 * i + 8) 4

/-- How long the image of an entry is. -/
def lengthOf (i : Nat) : Nat := field raw (8 + 20 * i + 12) 4

/-- The image of an entry ends below `2 ^ 32`, and in the file. -/
def Fits (i : Nat) : Prop := startOf raw i + lengthOf raw i < 0x100000000 ∧ startOf raw i + lengthOf raw i ≤ raw.size

/-- The entry is for this machine. A machine without a CPU type has no entry. -/
def IsFor (machine : Machine) (i : Nat) : Prop := machine.cpuType?.map (·.toNat) = some (cpuTypeOf raw i)

end Positions

/-- The first entry for a machine among those that are scanned. -/
structure FirstFor (raw : Bytes) (machine : Machine) (i : Nat) : Prop where
  marked : Marked raw
  scanned : i < scanned raw
  isFor : IsFor raw machine i
  first : ∀ j, j < i → ¬IsFor raw machine j

/-- What a machine gets of a file. -/
inductive Selects (raw : Bytes) (machine : Machine) : Except LoadError Selection → Prop
  | plain (h : ¬Marked raw) : Selects raw machine (.ok .whole)
  | found (i : Nat) (hi : FirstFor raw machine i) (hfits : Fits raw i) :
      Selects raw machine (.ok (.part (startOf raw i) (lengthOf raw i)))
  /-- An entry behind the first one is not tried. -/
  | cut (i : Nat) (hi : FirstFor raw machine i) (hcut : ¬Fits raw i) : Selects raw machine (.error .truncatedImage)
  | missing (hm : Marked raw) (h : ∀ i, i < scanned raw → ¬IsFor raw machine i) :
      Selects raw machine (.error .noCompatibleArch)

variable {raw : Bytes} {machine : Machine}

theorem FirstFor.unique {i j : Nat} (hi : FirstFor raw machine i) (hj : FirstFor raw machine j) : i = j := by
  rcases Nat.lt_trichotomy i j with hlt | heq | hlt
  · exact absurd hi.isFor (hj.first i hlt)
  · exact heq
  · exact absurd hj.isFor (hi.first j hlt)

theorem Selects.unique {r r' : Except LoadError Selection} (h : Selects raw machine r) (h' : Selects raw machine r') :
    r = r' := by
  cases h with
  | plain hm =>
    cases h' with
    | plain => rfl
    | found i hi => exact absurd hi.marked hm
    | cut i hi => exact absurd hi.marked hm
    | missing hm' => exact absurd hm' hm
  | found i hi hfits =>
    cases h' with
    | plain hm => exact absurd hi.marked hm
    | found j hj => rw [hi.unique hj]
    | cut j hj hcut => exact absurd (hi.unique hj ▸ hfits) hcut
    | missing hm hnone => exact absurd hi.isFor (hnone i hi.scanned)
  | cut i hi hcut =>
    cases h' with
    | plain hm => exact absurd hi.marked hm
    | found j hj hfits => exact absurd (hj.unique hi ▸ hfits) hcut
    | cut j hj => rfl
    | missing hm hnone => exact absurd hi.isFor (hnone i hi.scanned)
  | missing hm hnone =>
    cases h' with
    | plain hm' => exact absurd hm hm'
    | found j hj => exact absurd hj.isFor (hnone j hj.scanned)
    | cut j hj => exact absurd hj.isFor (hnone j hj.scanned)
    | missing => rfl

/-! ## The selector -/

/-- An entry and the positions of its fields. -/
structure IsEntry (raw : Bytes) (i : Nat) (e : Entry) : Prop where
  cpuType : e.cpuType.toNat = cpuTypeOf raw i
  start : e.offset.toNat = startOf raw i
  length : e.size.toNat = lengthOf raw i

theorem exists_entry {i : Nat} (h : i < (raw.size - 8) / 20) :
    ∃ e, Entry.at? raw (headerSize + entrySize * i) = some e ∧ IsEntry raw i e := by
  have hroom : 8 + 20 * i + 20 ≤ raw.size := by omega
  have hword (k : Nat) (hk : k + 4 ≤ 20) :
      ∃ v, raw.u32At? (8 + 20 * i + k) = some v ∧ v.toNat = field raw (8 + 20 * i + k) 4 := by
    obtain ⟨v, hv⟩ := Bytes.exists_u32At? (show 8 + 20 * i + k + 4 ≤ raw.size by omega)
    exact ⟨v, hv, (u32At?_iff.mp hv).2⟩
  obtain ⟨cpuType, hcpuType, htype⟩ := hword 0 (by omega)
  obtain ⟨subtype, hsubtype, -⟩ := hword 4 (by omega)
  obtain ⟨offset, hoffset, hstart⟩ := hword 8 (by omega)
  obtain ⟨size, hsize, hlength⟩ := hword 12 (by omega)
  obtain ⟨align, halign, -⟩ := hword 16 (by omega)
  refine ⟨⟨cpuType, subtype, offset, size, align⟩, ?_, htype, hstart, hlength⟩
  rw [Nat.add_zero] at hcpuType
  rw [headerSize, entrySize, Entry.at?, hcpuType, hsubtype, hoffset, hsize, halign]
  rfl

theorem header_eq_some_iff {h : Header} : Header.at? raw 0 = some h ↔
    8 ≤ raw.size ∧ h.magic.toNat = field raw 0 4 ∧ h.count.toNat = field raw 4 4 := by
  simp only [Header.at?, Option.bind_eq_bind, Option.bind_eq_some_iff, u32At?_iff, Nat.zero_add]
  constructor
  · intro hh
    obtain ⟨magic, hmagic, count, hcount, hh⟩ := hh
    cases hh
    exact ⟨hcount.1, hmagic.2, hcount.2⟩
  · intro hh
    exact ⟨h.magic, ⟨by omega, hh.2.1⟩, h.count, ⟨hh.1, hh.2.2⟩, rfl⟩

theorem marked_iff {h : Header} (hh : Header.at? raw 0 = some h) : Marked raw ↔ h.magic = magic := by
  obtain ⟨hsize, hmagic, -⟩ := header_eq_some_iff.mp hh
  rw [Marked, ← hmagic, ← UInt32.toNat_inj]
  exact and_iff_right hsize

/-- An entry of the scan, tested for its CPU type. -/
theorem any_entry_iff {cpuType : UInt32} (hmachine : machine.cpuType? = some cpuType) {i : Nat}
    (h : i < (raw.size - 8) / 20) :
    (Entry.at? raw (headerSize + entrySize * i)).any (·.cpuType == cpuType) = true ↔ IsFor raw machine i := by
  obtain ⟨e, he, hentry⟩ := exists_entry h
  rw [he, Option.any_some, IsFor, hmachine, Option.map_some, Option.some_inj, ← hentry.cpuType, UInt32.toNat_inj,
    beq_iff_eq, eq_comm]

/-- The scan ends at the first entry for the machine, or finds that there is none. -/
theorem find?_entries {cpuType : UInt32} (hmachine : machine.cpuType? = some cpuType) {header : Header}
    (hheader : Header.at? raw 0 = some header) (hm : Marked raw) :
    match (entries raw header.count.toNat).find? (·.cpuType == cpuType) with
    | some e => ∃ i, FirstFor raw machine i ∧ IsEntry raw i e
    | none => ∀ i, i < scanned raw → ¬IsFor raw machine i := by
  obtain ⟨-, -, hcount⟩ := header_eq_some_iff.mp hheader
  have hscanned : min header.count.toNat ((raw.size - headerSize) / entrySize) = scanned raw := by
    rw [hcount]
    rfl
  have hlt {i : Nat} (hi : i < scanned raw) : i < (raw.size - 8) / 20 := Nat.lt_of_lt_of_le hi (Nat.min_le_right _ _)
  rw [entries, hscanned, List.find?_filterMap]
  cases hfind : (List.range (scanned raw)).find? fun i =>
      (Entry.at? raw (headerSize + entrySize * i)).any (·.cpuType == cpuType) with
  | none =>
    intro i hi hfor
    have hno := List.find?_range_eq_none.mp hfind i hi
    rw [(any_entry_iff hmachine (hlt hi)).mpr hfor] at hno
    cases hno
  | some i =>
    obtain ⟨hany, hmem, hfirst⟩ := List.find?_range_eq_some.mp hfind
    have hi := List.mem_range.mp hmem
    obtain ⟨e, he, hentry⟩ := exists_entry (hlt hi)
    have hscan : FirstFor raw machine i := by
      refine ⟨hm, hi, (any_entry_iff hmachine (hlt hi)).mp hany, fun j hj hfor => ?_⟩
      have hno := hfirst j hj
      rw [(any_entry_iff hmachine (hlt (Nat.lt_trans hj hi))).mpr hfor] at hno
      cases hno
    rw [Option.bind_some, he]
    exact ⟨i, hscan, hentry⟩

theorem select_of_unmarked (h : ¬Marked raw) : select raw machine = .ok .whole := by
  unfold select
  cases hheader : Header.at? raw 0 with
  | none => rfl
  | some header => exact if_pos fun hmagic => h ((marked_iff hheader).mpr hmagic)

theorem exists_header (h : Marked raw) : ∃ header, Header.at? raw 0 = some header := by
  have hsize := h.1
  obtain ⟨magic, hmagic⟩ := Bytes.exists_u32At? (show 0 + 4 ≤ raw.size by omega)
  obtain ⟨count, hcount⟩ := Bytes.exists_u32At? (show 0 + 4 + 4 ≤ raw.size by omega)
  exact ⟨⟨magic, count⟩, by rw [Header.at?, hmagic, hcount]; rfl⟩

theorem select_of_marked (h : Marked raw) {header : Header} (hheader : Header.at? raw 0 = some header) :
    select raw machine =
      demand machine.cpuType? .noCompatibleArch >>= fun cpuType =>
        demand ((entries raw header.count.toNat).find? (·.cpuType == cpuType)) .noCompatibleArch >>= fun e =>
          e.part raw := by
  unfold select
  rw [hheader]
  exact if_neg (not_not_intro ((marked_iff hheader).mp h))

/-- The check of an entry is that its image fits. -/
theorem fits_iff {i : Nat} {e : Entry} (he : IsEntry raw i e) :
    e.offset.toNat + e.size.toNat < UInt32.size ∧ e.offset.toNat + e.size.toNat ≤ raw.size ↔ Fits raw i := by
  rw [he.start, he.length]
  rfl

theorem part_of_fits {i : Nat} {e : Entry} (he : IsEntry raw i e) (h : Fits raw i) :
    e.part raw = .ok (.part (startOf raw i) (lengthOf raw i)) := by
  show (need _ _ >>= fun _ => .ok (Selection.part e.offset.toNat e.size.toNat)) = _
  rw [need, if_pos ((fits_iff he).mpr h), he.start, he.length]
  rfl

theorem part_of_not_fits {i : Nat} {e : Entry} (he : IsEntry raw i e) (h : ¬Fits raw i) :
    e.part raw = .error .truncatedImage := by
  show (need _ _ >>= fun _ => .ok (Selection.part e.offset.toNat e.size.toNat)) = _
  rw [need, if_neg fun hsum => h ((fits_iff he).mp hsum)]
  rfl

theorem selects_select (raw : Bytes) (machine : Machine) : Selects raw machine (select raw machine) := by
  by_cases hm : Marked raw
  · obtain ⟨header, hheader⟩ := exists_header hm
    rw [select_of_marked hm hheader]
    cases hmachine : machine.cpuType? with
    | none =>
      refine .missing hm fun i _ hfor => ?_
      rw [IsFor, hmachine] at hfor
      cases hfor
    | some cpuType =>
      have hscan := find?_entries hmachine hheader hm
      show Selects raw machine
        (demand ((entries raw header.count.toNat).find? (·.cpuType == cpuType)) .noCompatibleArch >>=
          fun e => e.part raw)
      cases hfind : (entries raw header.count.toNat).find? (·.cpuType == cpuType) with
      | none =>
        rw [hfind] at hscan
        exact .missing hm hscan
      | some e =>
        rw [hfind] at hscan
        obtain ⟨i, hi, he⟩ := hscan
        show Selects raw machine (e.part raw)
        by_cases hfits : Fits raw i
        · rw [part_of_fits he hfits]
          exact .found i hi hfits
        · rw [part_of_not_fits he hfits]
          exact .cut i hi hfits
  · rw [select_of_unmarked hm]
    exact .plain hm

theorem select_iff {r : Except LoadError Selection} : select raw machine = r ↔ Selects raw machine r := by
  constructor
  · rintro rfl
    exact selects_select raw machine
  · intro h
    exact (selects_select raw machine).unique h

/-! ## A container that is written -/

/-- The first image of the machine's type. -/
def imageFor (machine : Machine) (parts : List (UInt32 × Bytes)) : Option Bytes :=
  machine.cpuType?.bind fun cpuType => List.lookup cpuType parts

/-- The images, one behind the other. -/
def bodies (parts : List (UInt32 × Bytes)) : Bytes := parts.foldr (fun p r => p.2 ++ r) #[]

/-- The table of entries, one behind the other. -/
def tableOf (es : List Entry) : Bytes := es.foldr (fun e r => e.encode ++ r) #[]

@[simp] theorem bodies_cons (p : UInt32 × Bytes) (l : List (UInt32 × Bytes)) : bodies (p :: l) = p.2 ++ bodies l := rfl

@[simp] theorem size_encode_entry (e : Entry) : e.encode.size = 20 := by simp [Entry.encode]

@[simp] theorem length_entriesFrom (offset : Nat) (parts : List (UInt32 × Bytes)) :
    (entriesFrom offset parts).length = parts.length := by
  induction parts generalizing offset with
  | nil => rfl
  | cons p parts ih => simp [entriesFrom, ih]

/-- An entry of the table says where its image starts among the others. -/
theorem getElem?_entriesFrom (offset : Nat) (parts : List (UInt32 × Bytes)) (i : Nat) :
    (entriesFrom offset parts)[i]? = parts[i]?.map fun p =>
      ⟨p.1, 0, UInt32.ofNat (offset + (bodies (parts.take i)).size), UInt32.ofNat p.2.size, 0⟩ := by
  induction parts generalizing offset i with
  | nil => simp [entriesFrom]
  | cons p parts ih =>
    cases i with
    | zero => simp [entriesFrom, bodies]
    | succ i => simp [entriesFrom, ih, Nat.add_assoc]

/-- An image among the others. -/
theorem bodies_split {parts : List (UInt32 × Bytes)} {i : Nat} {p : UInt32 × Bytes} (h : parts[i]? = some p) :
    bodies parts = bodies (parts.take i) ++ p.2 ++ bodies (parts.drop (i + 1)) := by
  induction parts generalizing i with
  | nil => simp at h
  | cons p' parts ih =>
    cases i with
    | zero =>
      obtain rfl : p' = p := by simpa using h
      simp [bodies]
    | succ i =>
      have htail := ih (i := i) (by simpa using h)
      rw [List.take_succ_cons, List.drop_succ_cons, bodies_cons, bodies_cons, htail]
      simp [Array.append_assoc]

section Encode

variable {parts : List (UInt32 × Bytes)}

/-- What stands before the images. -/
def front (parts : List (UInt32 × Bytes)) : Bytes :=
  Bytes.ofU32 magic ++ Bytes.ofU32 (UInt32.ofNat parts.length) ++ tableOf (entriesFrom (bodyStart parts.length) parts)

theorem encode_eq (parts : List (UInt32 × Bytes)) : encode parts = front parts ++ bodies parts := rfl

@[simp] theorem size_front (parts : List (UInt32 × Bytes)) : (front parts).size = bodyStart parts.length := by
  simp only [front, tableOf, Array.size_append, Bytes.size_ofU32, Bytes.size_pieces size_encode_entry,
    length_entriesFrom]
  rfl

theorem size_encode (parts : List (UInt32 × Bytes)) :
    (encode parts).size = 8 + 20 * parts.length + (bodies parts).size := by
  rw [encode_eq, Array.size_append, size_front]
  rfl

theorem length_lt (h : (encode parts).size < 0x100000000) : parts.length < 0x100000000 := by
  rw [size_encode] at h
  omega

/-- The fields of an entry that stands in a file. -/
theorem entry_of_carries {b : Bytes} {pos : Nat} {e : Entry} (h : b.Carries pos e.encode) :
    field b pos 4 = e.cpuType.toNat ∧ field b (pos + 8) 4 = e.offset.toNat ∧ field b (pos + 12) 4 = e.size.toNat := by
  obtain ⟨h, -⟩ := Bytes.carries_append.mp h
  obtain ⟨h, hsize⟩ := Bytes.carries_append.mp h
  obtain ⟨h, hoffset⟩ := Bytes.carries_append.mp h
  obtain ⟨htype, -⟩ := Bytes.carries_append.mp h
  exact ⟨field_of_u32 htype, field_of_u32 hoffset, field_of_u32 hsize⟩

/-- The magic number, the count and the table stand one behind the other. -/
theorem encode_carries (parts : List (UInt32 × Bytes)) :
    (encode parts).Carries 0 (Bytes.ofU32 magic) ∧
      (encode parts).Carries 4 (Bytes.ofU32 (UInt32.ofNat parts.length)) ∧
      (encode parts).Carries 8 (tableOf (entriesFrom (bodyStart parts.length) parts)) := by
  have hfront : (encode parts).Carries 0 (front parts) := (Bytes.carries_self _).append _
  obtain ⟨hhead, htable⟩ := Bytes.carries_append.mp hfront
  obtain ⟨hmagic, hcount⟩ := Bytes.carries_append.mp hhead
  exact ⟨hmagic, hcount, htable⟩

theorem marked_encode (parts : List (UInt32 × Bytes)) : Marked (encode parts) := by
  refine ⟨?_, field_of_u32 (encode_carries parts).1⟩
  rw [size_encode]
  omega

/-- Every entry that is written is scanned. -/
theorem scanned_encode (h : (encode parts).size < 0x100000000) : scanned (encode parts) = parts.length := by
  have hcount : field (encode parts) 4 4 = parts.length := by
    rw [field_of_u32 (encode_carries parts).2.1, UInt32.toNat_ofNat', Nat.mod_eq_of_lt (length_lt h)]
  rw [scanned, hcount, size_encode]
  omega

section Placed

variable {i : Nat} {p : UInt32 × Bytes}

theorem size_encode_split (hp : parts[i]? = some p) :
    bodyStart parts.length + (bodies (parts.take i)).size + p.2.size ≤ (encode parts).size := by
  rw [encode_eq, bodies_split hp]
  simp only [Array.size_append, size_front]
  omega

/-- An entry of a container says the type of its image and where that is. -/
theorem encode_entry (h : (encode parts).size < 0x100000000) (hp : parts[i]? = some p) :
    cpuTypeOf (encode parts) i = p.1.toNat ∧
      startOf (encode parts) i = bodyStart parts.length + (bodies (parts.take i)).size ∧
      lengthOf (encode parts) i = p.2.size := by
  have hroom := size_encode_split hp
  have he : (entriesFrom (bodyStart parts.length) parts)[i]? =
      some ⟨p.1, 0, UInt32.ofNat (bodyStart parts.length + (bodies (parts.take i)).size),
        UInt32.ofNat p.2.size, 0⟩ := by
    rw [getElem?_entriesFrom, hp, Option.map_some]
  obtain ⟨htype, hstart, hlength⟩ :=
    entry_of_carries ((encode_carries parts).2.2.trans (Bytes.carries_pieces size_encode_entry he))
  refine ⟨htype, ?_, ?_⟩
  · rw [startOf, hstart, UInt32.toNat_ofNat', Nat.mod_eq_of_lt (by omega)]
  · rw [lengthOf, hlength, UInt32.toNat_ofNat', Nat.mod_eq_of_lt (by omega)]

theorem fits_encode (h : (encode parts).size < 0x100000000) (hp : parts[i]? = some p) : Fits (encode parts) i := by
  obtain ⟨-, hstart, hlength⟩ := encode_entry h hp
  have hroom := size_encode_split hp
  rw [Fits, hstart, hlength]
  omega

/-- The part that an entry of a container points at is the image that went in. -/
theorem encode_image (h : (encode parts).size < 0x100000000) (hp : parts[i]? = some p) :
    (Selection.part (startOf (encode parts) i) (lengthOf (encode parts) i)).apply (encode parts) = p.2 := by
  obtain ⟨-, hstart, hlength⟩ := encode_entry h hp
  have hbody : (bodies parts).Carries (bodies (parts.take i)).size p.2 := by
    rw [bodies_split hp]
    exact Bytes.carries_between _ _ _
  have hplace := hbody.prepend (front parts)
  rw [size_front, ← hstart] at hplace
  rw [hlength]
  exact hplace.extract

theorem isFor_encode_iff (h : (encode parts).size < 0x100000000) (hp : parts[i]? = some p) :
    IsFor (encode parts) machine i ↔ machine.cpuType? = some p.1 := by
  rw [IsFor, (encode_entry h hp).1]
  cases machine.cpuType? with
  | none => simp
  | some cpuType => simp [UInt32.toNat_inj]

end Placed

/-- The first image of the machine's type is at the first entry for the machine. -/
theorem firstFor_encode (h : (encode parts).size < 0x100000000) {cpuType : UInt32}
    (hmachine : machine.cpuType? = some cpuType) {l l' : List (UInt32 × Bytes)} {image : Bytes}
    (hparts : parts = l ++ (cpuType, image) :: l') (hfirst : ∀ p ∈ l, cpuType ≠ p.1) :
    FirstFor (encode parts) machine l.length := by
  have hp : parts[l.length]? = some (cpuType, image) := by simp [hparts]
  refine ⟨marked_encode parts, ?_, (isFor_encode_iff h hp).mpr hmachine, ?_⟩
  · rw [scanned_encode h, hparts]
    simp
  · intro j hj hfor
    have hpj : parts[j]? = some l[j] := by simp [hparts, List.getElem?_append_left hj]
    have htype := (isFor_encode_iff h hpj).mp hfor
    rw [hmachine, Option.some_inj] at htype
    exact hfirst l[j] (List.getElem_mem hj) htype

/-- Without an image of the machine's type no entry is for the machine. -/
theorem not_isFor_encode (h : (encode parts).size < 0x100000000) (hnone : imageFor machine parts = none) {i : Nat}
    (hi : i < scanned (encode parts)) : ¬IsFor (encode parts) machine i := by
  intro hfor
  rw [scanned_encode h] at hi
  have hmachine := (isFor_encode_iff h (List.getElem?_eq_getElem hi)).mp hfor
  rw [imageFor, hmachine, Option.bind_some, List.lookup_eq_none_iff] at hnone
  simpa using hnone parts[i] (List.getElem_mem hi)

theorem apply_select_encode (h : (encode parts).size < 0x100000000) :
    (select (encode parts) machine).map (·.apply (encode parts)) =
      demand (imageFor machine parts) .noCompatibleArch := by
  cases himage : imageFor machine parts with
  | none =>
    rw [select_iff.mpr (.missing (marked_encode parts) fun i hi => not_isFor_encode h himage hi)]
    rfl
  | some image =>
    obtain ⟨cpuType, hmachine, hlookup⟩ := Option.bind_eq_some_iff.mp himage
    obtain ⟨l, l', hparts, hfirst⟩ := List.lookup_eq_some_iff.mp hlookup
    have hp : parts[l.length]? = some (cpuType, image) := by simp [hparts]
    have hscan : FirstFor (encode parts) machine l.length :=
      firstFor_encode h hmachine hparts fun p hmem => bne_iff_ne.mp (hfirst p hmem)
    rw [select_iff.mpr (.found _ hscan (fits_encode h hp))]
    exact congrArg Except.ok (encode_image h hp)

end Encode

/-- What a machine gets of a file, of any bytes; and of the images that went into a container it gets
the first one of its type. -/
theorem select_takes_first (machine : Machine) :
    (∀ raw r, select raw machine = r ↔ Selects raw machine r) ∧
      ∀ parts : List (UInt32 × Bytes), (encode parts).size < 0x100000000 →
        (select (encode parts) machine).map (·.apply (encode parts)) =
          demand (imageFor machine parts) .noCompatibleArch :=
  ⟨fun _ _ => select_iff, fun _ h => apply_select_encode h⟩

/-- Of two images of its type the machine gets the first one, though one of another type is before it. -/
theorem select_takes_first_arm64 :
    (encode [(0x01000007, #[1, 2]), (0x0100000c, #[3, 4, 5]), (0x0100000c, #[6])]).size < 0x100000000 ∧
      (select (encode [(0x01000007, #[1, 2]), (0x0100000c, #[3, 4, 5]), (0x0100000c, #[6])]) .arm64).map
        (·.apply (encode [(0x01000007, #[1, 2]), (0x0100000c, #[3, 4, 5]), (0x0100000c, #[6])])) = .ok #[3, 4, 5] := by
  have hsize : (encode [(0x01000007, #[1, 2]), (0x0100000c, #[3, 4, 5]), (0x0100000c, #[6])]).size < 0x100000000 := by
    decide
  exact ⟨hsize, (select_takes_first .arm64).2 _ hsize⟩

end NetBoot.Image.Fat
