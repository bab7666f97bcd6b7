/-
  NetBoot.Proofs.Smbios — the UUID in a table of whole structures, and in any bytes at all.

  Only the formatted area of a structure says how long it is. Its strings end where two zero bytes stand
  in a row, and that is behind all of them: each has a byte other than zero and none has a zero byte, so
  between two strings one zero stands alone (`afterStrings?_encodeStrings`). So the walk goes from structure
  to structure and never stops within one (`systemUuid?_encode`), whatever stands in the formatted areas.

  Any bytes at all may lie where an entry point says that the table is. `walk` goes through them by offsets,
  and insists on every index, every slice and every sum. It is refused none, and comes to the same
  (`walk_eq`).
-/

import Mathlib.Algebra.Group.Nat.Defs
import NetBoot.Proofs.Image.Strict.Basic
import NetBoot.Smbios

namespace NetBoot.Smbios

/-! ## Whole structures -/

/-- A structure that can be written: the length byte has room for its length, which takes in the header,
    and no string is empty or holds a zero byte. -/
structure Structure.Writable (s : Structure) : Prop where
  covers : headerSize ≤ s.formatted.length
  fits : s.formatted.length ≤ 255
  strings : ∀ t ∈ s.strings, t ≠ [] ∧ 0 ∉ t

/-- The first structure that describes the system, if the table does not end before it. -/
def FirstSystem (structures : List Structure) (s : Structure) : Prop :=
  ∃ before behind, structures = before ++ s :: behind ∧ s.kind = systemInformation ∧
    ∀ t ∈ before, t.kind ≠ systemInformation ∧ t.kind ≠ endOfTable

/-- The formatted area has a UUID that is present and set. -/
structure HoldsUuid (area uuid : List UInt8) : Prop where
  long : 0x19 ≤ area.length
  eq : uuid = (area.drop 8).take 16
  present : uuid ≠ List.replicate 16 0
  set : uuid ≠ List.replicate 16 0xff

variable {s t : Structure} {structures : List Structure} {rest : List UInt8}

theorem firstSystem_cons :
    FirstSystem (s :: structures) t ↔
      s.kind = systemInformation ∧ t = s ∨
        s.kind ≠ systemInformation ∧ s.kind ≠ endOfTable ∧ FirstSystem structures t := by
  constructor
  · rintro ⟨before, behind, hsplit, ht, hbefore⟩
    cases before with
    | nil =>
      obtain ⟨rfl, -⟩ := List.cons.inj hsplit
      exact .inl ⟨ht, rfl⟩
    | cons u before =>
      obtain ⟨rfl, hrest⟩ := List.cons.inj hsplit
      obtain ⟨hu, hbefore⟩ := List.forall_mem_cons.mp hbefore
      exact .inr ⟨hu.1, hu.2, before, behind, hrest, ht, hbefore⟩
  · rintro (⟨hs, rfl⟩ | ⟨hs, hend, before, behind, rfl, ht, hbefore⟩)
    · exact ⟨[], structures, rfl, hs, fun u hu => absurd hu List.not_mem_nil⟩
    · exact ⟨s :: before, behind, rfl, ht, List.forall_mem_cons.mpr ⟨⟨hs, hend⟩, hbefore⟩⟩

theorem uuidOf?_eq_some_iff {area uuid : List UInt8} : uuidOf? area = some uuid ↔ HoldsUuid area uuid := by
  have hall (x : UInt8) (hlong : ¬ area.length < uuidMinLength) :
      ((area.drop uuidOffset).take 16).all (· == x) = true ↔
        (area.drop uuidOffset).take 16 = List.replicate 16 x := by
    have hlength : ((area.drop uuidOffset).take 16).length = 16 := by
      rw [List.length_take, List.length_drop]
      rw [uuidMinLength] at hlong
      rw [uuidOffset]
      omega
    rw [List.eq_replicate_iff, List.all_eq_true]
    simp only [beq_iff_eq, hlength, true_and]
  unfold uuidOf?
  by_cases hlong : area.length < uuidMinLength
  · rw [if_pos hlong]
    constructor
    · intro h
      cases h
    · intro h
      exact absurd h.long (Nat.not_le.mpr hlong)
  · rw [if_neg hlong]
    dsimp only
    split
    · next hno =>
      rw [Bool.or_eq_true, hall 0 hlong, hall 0xff hlong] at hno
      constructor
      · intro h
        cases h
      · rintro ⟨-, rfl, hpresent, hset⟩
        rcases hno with hno | hno
        · exact absurd hno hpresent
        · exact absurd hno hset
    · next hyes =>
      rw [Bool.or_eq_true, hall 0 hlong, hall 0xff hlong, not_or] at hyes
      rw [Option.some_inj]
      constructor
      · rintro rfl
        exact ⟨Nat.not_lt.mp hlong, rfl, hyes.1, hyes.2⟩
      · intro h
        exact h.eq.symm

/-! ## The end of the strings -/

section Strings

variable {b c : UInt8} {string : List UInt8} {strings : List (List UInt8)}

theorem afterStrings?_cons (h : ¬ (c = 0 ∧ b = 0)) (r : List UInt8) :
    afterStrings? (c :: b :: r) = afterStrings? (b :: r) := by
  rw [afterStrings?, if_neg h]

/-- A string is passed up to the zero behind it. -/
theorem afterStrings?_string (h : 0 ∉ string) (r : List UInt8) :
    afterStrings? (string ++ 0 :: r) = afterStrings? (0 :: r) := by
  induction string with
  | nil => rfl
  | cons c string ih =>
    rw [List.mem_cons, not_or] at h
    rw [← ih h.2]
    cases string with
    | nil => exact afterStrings?_cons (fun hc => h.1 hc.1.symm) r
    | cons b string => exact afterStrings?_cons (fun hc => h.1 hc.1.symm) _

/-- From the zero behind a string, the other strings are passed and the set ends. -/
theorem afterStrings?_behind (h : ∀ t ∈ strings, t ≠ [] ∧ 0 ∉ t) (rest : List UInt8) :
    afterStrings? (0 :: (strings.flatMap (· ++ [0]) ++ [0] ++ rest)) = some rest := by
  induction strings with
  | nil =>
    rw [List.flatMap_nil, List.nil_append, List.singleton_append, afterStrings?]
    exact if_pos ⟨rfl, rfl⟩
  | cons string strings ih =>
    obtain ⟨⟨hne, hzero⟩, hstrings⟩ := List.forall_mem_cons.mp h
    obtain ⟨b, string, rfl⟩ := List.exists_cons_of_ne_nil hne
    -- the zero in front stands alone, for the string begins with another byte
    have hb : ¬ ((0 : UInt8) = 0 ∧ b = 0) := fun h => hzero (h.2 ▸ List.mem_cons_self)
    have hpassed := (afterStrings?_string hzero _).trans (ih hstrings)
    simp only [List.flatMap_cons, List.append_assoc, List.cons_append, List.nil_append] at hpassed ⊢
    rw [afterStrings?_cons hb, hpassed]

theorem afterStrings?_encodeStrings (h : ∀ t ∈ strings, t ≠ [] ∧ 0 ∉ t) (rest : List UInt8) :
    afterStrings? (Structure.encodeStrings strings ++ rest) = some rest := by
  cases strings with
  | nil => exact if_pos ⟨rfl, rfl⟩
  | cons string strings =>
    obtain ⟨⟨-, hzero⟩, hstrings⟩ := List.forall_mem_cons.mp h
    have hbehind := afterStrings?_behind hstrings rest
    rw [← afterStrings?_string hzero] at hbehind
    simpa [Structure.encodeStrings] using hbehind

end Strings

/-! ## The walk -/

theorem systemUuid?_cons_cons (kind len : UInt8) (r : List UInt8) :
    systemUuid? (kind :: len :: r) =
      if (kind :: len :: r).length < headerSize ∨ len.toNat < headerSize ∨ (kind :: len :: r).length < len.toNat then
        none
      else if kind = systemInformation then uuidOf? ((kind :: len :: r).take len.toNat)
      else if kind = endOfTable then none
      else (afterStrings? ((kind :: len :: r).drop len.toNat)).bind systemUuid? := by
  rw [systemUuid?]
  simp only [Bool.or_eq_true, decide_eq_true_eq, or_assoc, beq_iff_eq]
  congr 3
  split
  · next h => rw [h, Option.bind_none]
  · next h => rw [h, Option.bind_some]

/-- A structure is passed whole, if it is none that ends the walk. -/
theorem systemUuid?_encode (hs : s.Writable) (rest : List UInt8) :
    systemUuid? (s.encode ++ rest) =
      if s.kind = systemInformation then uuidOf? s.formatted
      else if s.kind = endOfTable then none
      else systemUuid? rest := by
  have hlen : (UInt8.ofNat (s.data.length + 2)).toNat = s.formatted.length :=
    UInt8.toNat_ofNat_of_lt' (Nat.lt_succ_of_le hs.fits)
  have htable : s.encode ++ rest = s.formatted ++ (Structure.encodeStrings s.strings ++ rest) :=
    List.append_assoc _ _ _
  have hlong : s.formatted.length ≤ (s.encode ++ rest).length := by
    rw [htable, List.length_append]
    exact Nat.le_add_right _ _
  have htake : (s.encode ++ rest).take s.formatted.length = s.formatted := by rw [htable, List.take_left]
  have hdrop : (s.encode ++ rest).drop s.formatted.length = Structure.encodeStrings s.strings ++ rest := by
    rw [htable, List.drop_left]
  have hcovers := hs.covers
  obtain ⟨r, hr⟩ : ∃ r, s.encode ++ rest = s.kind :: UInt8.ofNat (s.data.length + 2) :: r := ⟨_, rfl⟩
  rw [hr] at hlong htake hdrop ⊢
  rw [systemUuid?_cons_cons, hlen, if_neg (by omega), htake, hdrop, afterStrings?_encodeStrings hs.strings,
    Option.bind_some]

theorem systemUuid?_eq_some_iff (hstructures : ∀ s ∈ structures, s.Writable) {behind : List UInt8}
    (hbehind : behind = [] ∨ ∃ s ∈ structures, s.kind = endOfTable) (uuid : List UInt8) :
    systemUuid? (structures.flatMap Structure.encode ++ behind) = some uuid ↔
      ∃ s, FirstSystem structures s ∧ HoldsUuid s.formatted uuid := by
  induction structures with
  | nil =>
    obtain rfl : behind = [] := by simpa using hbehind
    rw [List.flatMap_nil, List.append_nil, systemUuid?]
    · simp [FirstSystem]
    · simp
  | cons s structures ih =>
    obtain ⟨hs, hstructures⟩ := List.forall_mem_cons.mp hstructures
    rw [List.flatMap_cons, List.append_assoc, systemUuid?_encode hs]
    simp only [firstSystem_cons]
    by_cases hsystem : s.kind = systemInformation
    · rw [if_pos hsystem, uuidOf?_eq_some_iff]
      simp [hsystem]
    · rw [if_neg hsystem]
      by_cases hend : s.kind = endOfTable
      · rw [if_pos hend]
        simp [hend, show endOfTable ≠ systemInformation by decide]
      · rw [if_neg hend, ih hstructures ?_]
        · simp [hsystem, hend]
        · simpa [hend] using hbehind

/-! ## Any bytes -/

section Walk

open Image (Strict)
open Image.Strict (fits fits_of_lt slice slice_of_le ok_bind)

/-- The byte at a position. -/
def byteAt (b : Bytes) (pos : Nat) : Strict UInt8 := demand b[pos]? .outOfRange

/-- Where the first two zero bytes in a row stand, from a position on. Both are shown to be there before
    they are read. -/
def doubleZero? (b : Bytes) (pos : Nat) : Option Nat :=
  if h : pos + 1 < b.size then
    if b[pos] = 0 ∧ b[pos + 1] = 0 then some pos else doubleZero? b (pos + 1)
  else none
termination_by b.size - pos

/-- The UUID in a formatted area of a length at an offset. -/
def uuidAt (table : Bytes) (offset len : Nat) : Strict (Option (List UInt8)) := do
  if len < uuidMinLength then return none
  else
    fits (offset + uuidOffset + 16)
    let uuid := (← slice table (offset + uuidOffset) (offset + uuidOffset + 16)).toList
    return if uuid.all (· == 0) || uuid.all (· == 0xff) then none else some uuid

/-- How far behind a position its strings end, less the two zero bytes. -/
def stringsAt (table : Bytes) (start : Nat) : Strict (Option Nat) := do
  let strings ← slice table start table.size
  return doubleZero? strings 0

/-- The walk from an offset on. -/
def walk (table : Bytes) (offset : Nat) : Strict (Option (List UInt8)) := do
  fits (offset + headerSize)
  if _h : offset + headerSize ≤ table.size then
    let kind ← byteAt table offset
    let len := (← byteAt table (offset + 1)).toNat
    if len < headerSize then return none
    else
      fits (offset + len)
      if table.size < offset + len then return none
      else if kind = systemInformation then uuidAt table offset len
      else if kind = endOfTable then return none
      else
        (← stringsAt table (offset + len)).elim (return none) fun stop => do
          fits (offset + len + stop + 2)
          walk table (offset + len + stop + 2)
  else return none
termination_by table.size - offset
decreasing_by
  rw [headerSize] at _h
  omega

variable {table : Bytes} {offset : Nat}

theorem byteAt_of_lt {b : Bytes} {pos : Nat} (h : pos < b.size) : byteAt b pos = .ok b[pos] := by
  rw [byteAt, Array.getElem?_eq_getElem h]
  rfl

theorem drop_eq {b : Bytes} {pos : Nat} (h : pos < b.size) : b.toList.drop pos = b[pos] :: b.toList.drop (pos + 1) := by
  rw [List.drop_eq_getElem_cons (by simpa using h), Array.getElem_toList]

theorem afterStrings?_drop (b : Bytes) (pos : Nat) :
    afterStrings? (b.toList.drop pos) = (doubleZero? b pos).map fun stop => b.toList.drop (stop + 2) := by
  fun_induction doubleZero? b pos with
  | case1 pos h hzero =>
    rw [drop_eq (Nat.lt_of_succ_lt h), drop_eq h, afterStrings?, if_pos hzero]
    rfl
  | case2 pos h hzero ih => rw [drop_eq (Nat.lt_of_succ_lt h), drop_eq h, afterStrings?_cons hzero, ← ih, ← drop_eq h]
  | case3 pos h =>
    have hshort : (b.toList.drop pos).length < 2 := by
      rw [List.length_drop, Array.length_toList]
      omega
    rcases hdrop : b.toList.drop pos with _ | ⟨x, _ | ⟨y, r⟩⟩
    · rfl
    · rfl
    · rw [hdrop] at hshort
      simp only [List.length_cons] at hshort
      omega

theorem doubleZero?_lt {b : Bytes} {pos stop : Nat} (h : doubleZero? b pos = some stop) : stop + 2 ≤ b.size := by
  fun_induction doubleZero? b pos with
  | case1 pos hlt hzero =>
    obtain rfl := Option.some.inj h
    exact hlt
  | case2 pos hlt hzero ih => exact ih h
  | case3 => cases h

theorem systemUuid?_short {l : List UInt8} (h : l.length < headerSize) : systemUuid? l = none := by
  rcases l with _ | ⟨kind, _ | ⟨len, r⟩⟩
  · rw [systemUuid?]
    simp
  · rw [systemUuid?]
    simp
  · rw [systemUuid?_cons_cons, if_pos (.inl h)]

theorem uuidAt_eq {len : Nat} (hsize : table.size < 2 ^ 63) (hinside : offset + len ≤ table.size) :
    uuidAt table offset len = .ok (uuidOf? ((table.toList.drop offset).take len)) := by
  have hword : UInt64.size = 2 ^ 64 := rfl
  have hlength : ((table.toList.drop offset).take len).length = len := by
    rw [List.length_take, List.length_drop, Array.length_toList]
    omega
  unfold uuidAt uuidOf?
  rw [hlength]
  by_cases hshort : len < uuidMinLength
  · rw [if_pos hshort, if_pos hshort]
    rfl
  · have hlong : 25 ≤ len := Nat.not_lt.mp hshort
    have huuid : (table.extract (offset + uuidOffset) (offset + uuidOffset + 16)).toList =
        (((table.toList.drop offset).take len).drop uuidOffset).take 16 := by
      rw [Array.toList_extract, List.extract_eq_take_drop, Nat.add_sub_cancel_left, List.drop_take, List.take_take,
        List.drop_drop, Nat.min_eq_left (by rw [uuidOffset]; omega)]
    rw [if_neg hshort, if_neg hshort, fits_of_lt (by rw [uuidOffset]; omega), ok_bind,
      slice_of_le (Nat.le_add_right _ _) (by rw [uuidOffset]; omega), ok_bind, huuid]
    rfl

theorem stringsAt_eq {start : Nat} (hinside : start ≤ table.size) :
    ∃ stop?, stringsAt table start = .ok stop? ∧
      afterStrings? (table.toList.drop start) = stop?.map (fun stop => table.toList.drop (start + stop + 2)) ∧
      ∀ stop, stop? = some stop → start + stop + 2 ≤ table.size := by
  have hstrings : (table.extract start table.size).toList = table.toList.drop start := by
    rw [Array.toList_extract, List.extract_eq_take_drop, List.take_of_length_le (by simp)]
  refine ⟨doubleZero? (table.extract start table.size) 0, ?_, ?_, fun stop hstop => ?_⟩
  · rw [stringsAt, slice_of_le hinside (Nat.le_refl _), ok_bind]
    rfl
  · have hafter := afterStrings?_drop (table.extract start table.size) 0
    rw [List.drop_zero, hstrings] at hafter
    simp only [List.drop_drop] at hafter
    exact hafter
  · have hlt := doubleZero?_lt hstop
    rw [Array.size_extract] at hlt
    omega

/-- The walk is refused nothing, and comes to the UUID. -/
theorem walk_eq (hsize : table.size < 2 ^ 63) (hoffset : offset ≤ table.size) :
    walk table offset = .ok (systemUuid? (table.toList.drop offset)) := by
  have hword : UInt64.size = 2 ^ 64 := rfl
  have hheader : headerSize = 4 := rfl
  have hlength (i : Nat) : (table.toList.drop i).length = table.size - i := by
    rw [List.length_drop, Array.length_toList]
  induction hn : table.size - offset using Nat.strongRecOn generalizing offset with
  | ind n ih =>
    rw [walk, fits_of_lt (by omega), ok_bind]
    by_cases hroom : offset + headerSize ≤ table.size
    · obtain ⟨kind, len, r, hkind, hlen, hr⟩ : ∃ kind len r, byteAt table offset = .ok kind ∧
          byteAt table (offset + 1) = .ok len ∧ table.toList.drop offset = kind :: len :: r :=
        ⟨_, _, _, byteAt_of_lt (by omega), byteAt_of_lt (by omega),
          by rw [drop_eq (show offset < table.size by omega), drop_eq (show offset + 1 < table.size by omega)]⟩
      have hlt := len.toNat_lt
      rw [dif_pos hroom, hkind, ok_bind, hlen, ok_bind, hr, systemUuid?_cons_cons, ← hr, hlength]
      dsimp only
      by_cases hbad : len.toNat < headerSize ∨ table.size < offset + len.toNat
      · rw [if_pos (show table.size - offset < headerSize ∨ _ by omega)]
        by_cases hshort : len.toNat < headerSize
        · rw [if_pos hshort]
          rfl
        · rw [if_neg hshort, fits_of_lt (by omega), ok_bind, if_pos (hbad.resolve_left hshort)]
          rfl
      · rw [not_or] at hbad
        rw [if_neg hbad.1, fits_of_lt (by omega), ok_bind, if_neg hbad.2,
          if_neg (show ¬ (table.size - offset < headerSize ∨ _) by omega)]
        by_cases hsystem : kind = systemInformation
        · rw [if_pos hsystem, if_pos hsystem]
          exact uuidAt_eq hsize (by omega)
        · rw [if_neg hsystem, if_neg hsystem]
          by_cases hend : kind = endOfTable
          · rw [if_pos hend, if_pos hend]
            rfl
          · obtain ⟨stop?, hstrings, hafter, hstop⟩ := stringsAt_eq (show offset + len.toNat ≤ table.size by omega)
            rw [if_neg hend, if_neg hend, hstrings, ok_bind, List.drop_drop, hafter]
            cases stop? with
            | none => rfl
            | some stop =>
              have hinside := hstop stop rfl
              rw [Option.elim_some, fits_of_lt (by omega), ok_bind, ih _ (by omega) hinside rfl]
              rfl
    · rw [dif_neg hroom, systemUuid?_short (by rw [hlength]; omega)]
      rfl

end Walk

/-- Of whole structures one behind the other, with anything behind one that ends the table, the UUID is that
    of the first structure of type 1 before such an end; there is none if that structure is too short for
    one, or if it is not present or not set. And no bytes lead the walk out of them: it comes to its answer
    within bounds, whatever they are. -/
theorem systemUuid?_first_system :
    (∀ (structures : List Structure) (behind : List UInt8), (∀ s ∈ structures, s.Writable) →
      (behind = [] ∨ ∃ s ∈ structures, s.kind = endOfTable) → ∀ uuid,
        systemUuid? (structures.flatMap Structure.encode ++ behind) = some uuid ↔
          ∃ s, FirstSystem structures s ∧ HoldsUuid s.formatted uuid) ∧
      ∀ table : Bytes, table.size < 2 ^ 63 → walk table 0 = .ok (systemUuid? table.toList) := by
  refine ⟨fun structures behind hstructures hbehind uuid => systemUuid?_eq_some_iff hstructures hbehind uuid, ?_⟩
  intro table hsize
  rw [walk_eq hsize (Nat.zero_le _), List.drop_zero]

/-- A first structure whose data look like the end of a set, and whose last string is long; behind the end of
    the table, what looks like another system. -/
theorem systemUuid?_lookalikes :
    let uuid : List UInt8 := [0x33, 0x22, 0x11, 0, 0x55, 0x44, 0x77, 0x66, 0, 0, 0xaa, 0xbb, 0xcc, 0xdd, 0xee, 0xff]
    let firmware : Structure := ⟨0, [0, 0, 0, 0, 1, 0x1b], [[0x41], [0x42, 0x43]]⟩
    let system : Structure := ⟨1, [1, 0, 0, 0, 0, 0] ++ uuid ++ [6, 0, 0], []⟩
    let structures := [firmware, system, ⟨127, [0xff, 0xff], []⟩]
    (∀ s ∈ structures, s.Writable) ∧ (∃ s ∈ structures, s.kind = endOfTable) ∧
      systemUuid? (structures.flatMap Structure.encode ++ system.encode) = some uuid ∧
      walk (structures.flatMap Structure.encode ++ system.encode).toArray 0 = .ok (some uuid) := by
  intro uuid firmware system structures
  have hwritable : ∀ s ∈ structures, s.Writable := by
    intro s hs
    simp only [structures, List.mem_cons, List.not_mem_nil, or_false] at hs
    rcases hs with rfl | rfl | rfl <;> exact ⟨by decide, by decide, by decide⟩
  have hend : ∃ s ∈ structures, s.kind = endOfTable := ⟨⟨127, [0xff, 0xff], []⟩, by simp [structures], rfl⟩
  have hfirst : FirstSystem structures system := ⟨[firmware], [⟨127, [0xff, 0xff], []⟩], rfl, rfl, by decide⟩
  have hholds : HoldsUuid system.formatted uuid := ⟨by decide, by decide, by decide, by decide⟩
  have hfound := (systemUuid?_first_system.1 structures system.encode hwritable (.inr hend) uuid).mpr
    ⟨system, hfirst, hholds⟩
  refine ⟨hwritable, hend, hfound, ?_⟩
  rw [systemUuid?_first_system.2 _ (by decide)]
  exact congrArg _ hfound

end NetBoot.Smbios
