/-
  NetBoot.Proofs.Image.Strict.Header — selecting and parsing within bounds.

  The offsets and counts of a container and of an image header come from the file. Here their sums are
  kept in words, and the parts of the file that they name are taken as slices. No check fails on any
  file: each sum is of a few numbers of at most 32 bits, and each slice has been found to lie in the
  file before (`select_eq`, `parse_eq`).
-/

import Mathlib.Data.List.Basic
import NetBoot.Image.Fat
import NetBoot.Image.Header
import NetBoot.Proofs.Image.Strict.Basic

namespace NetBoot.Image

namespace Strict

/-! ## Selecting -/

/-- The entries of a container in the bytes behind its header. -/
def fatEntries (table : Bytes) (count : Nat) : List Fat.Entry :=
  (List.range (min count (table.size / Fat.entrySize))).filterMap fun i => Fat.Entry.at? table (Fat.entrySize * i)

/-- The bytes of the image to load. -/
def select (raw : Bytes) (machine : Machine) : Attempt Bytes :=
  match Fat.Header.at? raw 0 with
  | none => return raw
  | some header =>
    if header.magic ≠ Fat.magic then return raw
    else do
      let cpuType ← .of (demand machine.cpuType? .noCompatibleArch)
      let table ← slice raw Fat.headerSize raw.size
      let entry ← .of (demand ((fatEntries table header.count.toNat).find? (·.cpuType == cpuType)) .noCompatibleArch)
      let stop := entry.offset.toNat + entry.size.toNat
      .of (need (stop < UInt32.size ∧ stop ≤ raw.size) .truncatedImage)
      slice raw entry.offset.toNat stop

theorem entry_extract {b : Bytes} {start pos : Nat} (hle : start + pos + Fat.entrySize ≤ b.size) :
    Fat.Entry.at? (b.extract start b.size) pos = Fat.Entry.at? b (start + pos) := by
  rw [Fat.entrySize] at hle
  have h : ∀ k, k + 4 ≤ 20 → Bytes.u32At? (b.extract start b.size) (pos + k) = b.u32At? (start + pos + k) := by
    intro k hk
    rw [Bytes.u32At?_extract (by omega) (Nat.le_refl _), Nat.add_assoc]
  have h0 := h 0 (by omega)
  rw [Nat.add_zero, Nat.add_zero] at h0
  unfold Fat.Entry.at?
  rw [h0, h 4 (by omega), h 8 (by omega), h 12 (by omega), h 16 (by omega)]

theorem fatEntries_eq {raw : Bytes} (h : Fat.headerSize ≤ raw.size) (count : Nat) :
    fatEntries (raw.extract Fat.headerSize raw.size) count = Fat.entries raw count := by
  unfold fatEntries Fat.entries
  rw [Array.size_extract, Nat.min_self]
  refine List.filterMap_congr fun i hi => entry_extract ?_
  have hlt := List.mem_range.mp hi
  have hdiv := Nat.div_mul_le_self (raw.size - Fat.headerSize) Fat.entrySize
  rw [Fat.headerSize, Fat.entrySize] at *
  omega

theorem size_of_header {raw : Bytes} {header : Fat.Header} (h : Fat.Header.at? raw 0 = some header) :
    Fat.headerSize ≤ raw.size := by
  simp only [Fat.Header.at?, Option.bind_eq_bind, Option.bind_eq_some_iff] at h
  obtain ⟨_, -, _, hcount, -⟩ := h
  exact (Bytes.u32At?_eq_some_iff.mp hcount).1

theorem map_bind {ε α β γ : Type} (x : Except ε α) (f : α → Except ε β) (g : β → γ) :
    (x >>= f).map g = x >>= fun a => (f a).map g := by
  cases x with
  | error e => rfl
  | ok a => rfl

/-- Selecting keeps within bounds, whatever the file is. -/
theorem select_eq (raw : Bytes) (machine : Machine) :
    select raw machine = .of ((Fat.select raw machine).map (·.apply raw)) := by
  unfold select Fat.select
  cases hh : Fat.Header.at? raw 0 with
  | none => rfl
  | some header =>
    have hsize := size_of_header hh
    by_cases hm : header.magic ≠ Fat.magic
    · dsimp only
      rw [if_pos hm, if_pos hm]
      rfl
    · dsimp only
      rw [if_neg hm, if_neg hm, map_bind]
      refine Attempt.of_demand_bind fun cpuType _ => ?_
      rw [Attempt.lift_bind (slice_of_le hsize (Nat.le_refl _)), fatEntries_eq hsize, map_bind]
      refine Attempt.of_demand_bind fun entry _ => ?_
      unfold Fat.Entry.part
      rw [map_bind]
      refine Attempt.of_need_bind fun hstop => ?_
      rw [slice_of_le (Nat.le_add_right _ _) hstop.2]
      rfl

/-! ## Parsing -/

/-- The headers of the file. -/
def parse (raw : Bytes) (config : LoaderConfig) : Attempt Header := do
  .of (need (dosStubSize ≤ raw.size) .truncatedImage)
  .of (need (raw.u16At? 0 = some dosMagic) .notPeCoff)
  let signature := (← .of (demand (raw.u32At? signatureOffsetField) .truncatedImage)).toNat
  fits (signature + 4)
  let coffStart := signature + 4
  fits (coffStart + CoffHeader.size)
  let optionalStart := coffStart + CoffHeader.size
  .of (need (optionalStart ≤ raw.size) .truncatedImage)
  .of (need (raw.u32At? signature = some peSignature) .notPeCoff)
  let rest ← slice raw coffStart raw.size
  let coff ← .of (demand (CoffHeader.at? rest 0) .truncatedImage)
  fits (optionalStart + coff.sizeOfOptionalHeader.toNat)
  let tableStart := optionalStart + coff.sizeOfOptionalHeader.toNat
  .of (need (tableStart ≤ raw.size) .truncatedImage)
  .of (need (coff.machine = config.machine.code) (.unsupportedMachine coff.machine))
  let optionalBytes ← slice raw optionalStart tableStart
  let optional ← .of (Header.optionalHeader optionalBytes)
  .of (need (config.requireEfiApplication = true → optional.isEfiApplication = true) .notEfiApplication)
  let reloc ← .of (Header.relocation optionalBytes optional)
  .of (need (optional.sizeOfHeaders.toNat ≤ raw.size) .truncatedImage)
  .of (need (optional.sizeOfHeaders ≤ optional.sizeOfImage) .sectionOutsideImage)
  .of (need (optional.entryPoint < optional.sizeOfImage) .sectionOutsideImage)
  let count := coff.numberOfSections.toNat
  fits (SectionHeader.size * count)
  fits (tableStart + SectionHeader.size * count)
  .of (need (tableStart + SectionHeader.size * count ≤ raw.size) .truncatedImage)
  let table ← slice raw tableStart (tableStart + SectionHeader.size * count)
  let sections ← .of (demand (Header.sectionTable? table 0 count) .truncatedImage)
  return {
    machine := config.machine
    subsystem := optional.subsystem
    isPe32Plus := optional.isPe32Plus
    entryRva := optional.entryPoint
    imageBase := optional.imageBase
    sectionAlignment := optional.sectionAlignment
    imageSize := optional.sizeOfImage
    headerSize := optional.sizeOfHeaders
    sectionTable := tableStart
    sections
    reloc }

theorem coffHeader_extract {b : Bytes} {start : Nat} (hle : start + CoffHeader.size ≤ b.size) :
    CoffHeader.at? (b.extract start b.size) 0 = CoffHeader.at? b start := by
  rw [CoffHeader.size] at hle
  have h16 : ∀ k, k + 2 ≤ 20 → Bytes.u16At? (b.extract start b.size) k = b.u16At? (start + k) := fun k hk =>
    Bytes.u16At?_extract (by omega) (Nat.le_refl _)
  have h32 : ∀ k, k + 4 ≤ 20 → Bytes.u32At? (b.extract start b.size) k = b.u32At? (start + k) := fun k hk =>
    Bytes.u32At?_extract (by omega) (Nat.le_refl _)
  unfold CoffHeader.at?
  simp only [Nat.zero_add]
  rw [h16 0 (by omega), h16 2 (by omega), h32 4 (by omega), h32 8 (by omega), h32 12 (by omega), h16 16 (by omega),
    h16 18 (by omega), Nat.add_zero]

theorem sectionHeader_extract {b : Bytes} {start stop pos : Nat} (hle : start + pos + SectionHeader.size ≤ stop)
    (hs : stop ≤ b.size) : SectionHeader.at? (b.extract start stop) pos = SectionHeader.at? b (start + pos) := by
  rw [SectionHeader.size] at hle
  have h16 : ∀ k, k + 2 ≤ 40 → Bytes.u16At? (b.extract start stop) (pos + k) = b.u16At? (start + pos + k) := by
    intro k hk
    rw [Bytes.u16At?_extract (by omega) hs, Nat.add_assoc]
  have h32 : ∀ k, k + 4 ≤ 40 → Bytes.u32At? (b.extract start stop) (pos + k) = b.u32At? (start + pos + k) := by
    intro k hk
    rw [Bytes.u32At?_extract (by omega) hs, Nat.add_assoc]
  unfold SectionHeader.at?
  rw [Bytes.slice?_extract (by omega) hs, h32 8 (by omega), h32 12 (by omega), h32 16 (by omega), h32 20 (by omega),
    h32 24 (by omega), h32 28 (by omega), h16 32 (by omega), h16 34 (by omega), h32 36 (by omega)]

theorem le_of_sectionHeader {b : Bytes} {pos : Nat} {h : SectionHeader} (hh : SectionHeader.at? b pos = some h) :
    pos + SectionHeader.size ≤ b.size := by
  simp only [SectionHeader.at?, Option.bind_eq_bind, Option.bind_eq_some_iff] at hh
  obtain ⟨_, -, _, -, _, -, _, -, _, -, _, -, _, -, _, -, _, -, _, hlast, -⟩ := hh
  have hle := (Bytes.u32At?_eq_some_iff.mp hlast).1
  rw [SectionHeader.size]
  omega

theorem mapM_congr {α β : Type} {f g : α → Option β} {l : List α} (h : ∀ a ∈ l, f a = g a) :
    l.mapM f = l.mapM g := by
  induction l with
  | nil => rfl
  | cons a l ih =>
    rw [List.forall_mem_cons] at h
    rw [List.mapM_cons, List.mapM_cons, h.1, ih h.2]

theorem mapM_eq_none {α β : Type} {f : α → Option β} {l : List α} {a : α} (ha : a ∈ l) (h : f a = none) :
    l.mapM f = none := by
  induction l with
  | nil => exact absurd ha List.not_mem_nil
  | cons b l ih =>
    rw [List.mapM_cons]
    rcases List.mem_cons.mp ha with rfl | ha
    · rw [h]
      rfl
    · rw [ih ha]
      cases f b with
      | none => rfl
      | some c => rfl

/-- A section table that the file does not hold has no sections. -/
theorem sectionTable?_of_lt {raw : Bytes} {start count : Nat} (hstart : start ≤ raw.size)
    (h : raw.size < start + SectionHeader.size * count) : Header.sectionTable? raw start count = none := by
  rw [SectionHeader.size] at h
  refine mapM_eq_none (a := count - 1) (List.mem_range.mpr (by omega)) ?_
  cases hh : SectionHeader.at? raw (start + SectionHeader.size * (count - 1)) with
  | none => rfl
  | some header =>
    have hle := le_of_sectionHeader hh
    rw [SectionHeader.size] at hle
    omega

theorem sectionTable?_extract {raw : Bytes} {start count : Nat}
    (h : start + SectionHeader.size * count ≤ raw.size) :
    Header.sectionTable? (raw.extract start (start + SectionHeader.size * count)) 0 count =
      Header.sectionTable? raw start count := by
  refine mapM_congr fun i hi => ?_
  have hlt := List.mem_range.mp hi
  rw [Nat.zero_add, sectionHeader_extract (by rw [SectionHeader.size]; omega) h]

/-- Parsing keeps within bounds, whatever the file is. -/
theorem parse_eq (raw : Bytes) (config : LoaderConfig) : parse raw config = .of (Header.parse raw config) := by
  have hword : UInt64.size = 2 ^ 64 := rfl
  have hcoff : CoffHeader.size = 20 := rfl
  unfold parse Header.parse
  dsimp only
  refine Attempt.of_need_bind fun _ => ?_
  refine Attempt.of_need_bind fun _ => ?_
  refine Attempt.of_demand_bind fun signature _ => ?_
  have hsignature := signature.toNat_lt
  rw [Attempt.lift_bind (fits_of_lt (by omega)), Attempt.lift_bind (fits_of_lt (by omega))]
  refine Attempt.of_need_bind fun hoptional => ?_
  refine Attempt.of_need_bind fun _ => ?_
  rw [Attempt.lift_bind (slice_of_le (by omega) (Nat.le_refl _)), coffHeader_extract hoptional]
  refine Attempt.of_demand_bind fun coff _ => ?_
  have hopt := coff.sizeOfOptionalHeader.toNat_lt
  rw [Attempt.lift_bind (fits_of_lt (by omega))]
  refine Attempt.of_need_bind fun htable => ?_
  refine Attempt.of_need_bind fun _ => ?_
  rw [Attempt.lift_bind (slice_of_le (Nat.le_add_right _ _) htable)]
  refine Attempt.of_bind fun optional _ => ?_
  refine Attempt.of_need_bind fun _ => ?_
  refine Attempt.of_bind fun reloc _ => ?_
  refine Attempt.of_need_bind fun _ => ?_
  refine Attempt.of_need_bind fun _ => ?_
  refine Attempt.of_need_bind fun _ => ?_
  have hcount := coff.numberOfSections.toNat_lt
  have hlen : SectionHeader.size * coff.numberOfSections.toNat = 40 * coff.numberOfSections.toNat := rfl
  rw [Attempt.lift_bind (fits_of_lt (by omega)), Attempt.lift_bind (fits_of_lt (by omega))]
  -- The file is asked for the whole table at once, not for section after section.
  by_cases hheld : signature.toNat + 4 + CoffHeader.size + coff.sizeOfOptionalHeader.toNat +
      SectionHeader.size * coff.numberOfSections.toNat ≤ raw.size
  · rw [need, if_pos hheld, Attempt.of_ok_bind, Attempt.lift_bind (slice_of_le (Nat.le_add_right _ _) hheld),
      sectionTable?_extract hheld]
    exact Attempt.of_demand_bind fun sections _ => rfl
  · rw [need, if_neg hheld, sectionTable?_of_lt htable (Nat.lt_of_not_le hheld)]
    rfl

end Strict

end NetBoot.Image
