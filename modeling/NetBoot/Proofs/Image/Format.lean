/-
  NetBoot.Proofs.Image.Format — the format of an image file, and the parser that accepts it.

  The format is written here apart from the parser: a file is a string of bytes, and a header field is
  the number at a position of it (`field`), counted from the start of the file. `Conforms` says which
  files a loader is to accept and `Describes` what their headers hold. The parser reads structure by
  structure, the optional header as a string of its own. It accepts the files that conform and no
  other, and a file has one description (`Describes.unique`), which is what it keeps.
-/

import NetBoot.Image.Header
import NetBoot.Proofs.Bytes

namespace NetBoot.Image

/-! ## Fields -/

/-- The number in so many bytes of a string from one position on, the lowest byte first. -/
def field (raw : Bytes) (pos width : Nat) : Nat := leNat (raw.extract pos (pos + width)).toList

section Fields

variable {b : Bytes} {pos start stop : Nat}

theorem field_lt (b : Bytes) (pos width : Nat) : field b pos width < 1 <<< (8 * width) := by
  have hlen : (b.extract pos (pos + width)).toList.length ≤ width := by
    rw [Array.length_toList, Array.size_extract]
    omega
  have hlt := leNat_lt (b.extract pos (pos + width)).toList
  rw [Nat.shiftLeft_eq, Nat.one_mul] at hlt ⊢
  exact Nat.lt_of_lt_of_le hlt (Nat.pow_le_pow_right (by decide) (by omega))

/-- A field of a part of a string is one of the whole. -/
theorem field_extract {width : Nat} (h : start + pos + width ≤ stop) :
    field (b.extract start stop) pos width = field b (start + pos) width := by
  rw [field, field, Array.extract_extract]
  congr 3
  omega

theorem u16At?_iff {v : UInt16} : b.u16At? pos = some v ↔ pos + 2 ≤ b.size ∧ v.toNat = field b pos 2 := by
  have hmod := Nat.mod_eq_of_lt (field_lt b pos 2)
  rw [Bytes.u16At?_eq_some_iff, ← UInt16.toNat_inj, UInt16.toNat_ofNat']
  exact and_congr_right fun _ => (congrArg (v.toNat = ·) hmod).to_iff

theorem u32At?_iff {v : UInt32} : b.u32At? pos = some v ↔ pos + 4 ≤ b.size ∧ v.toNat = field b pos 4 := by
  have hmod := Nat.mod_eq_of_lt (field_lt b pos 4)
  rw [Bytes.u32At?_eq_some_iff, ← UInt32.toNat_inj, UInt32.toNat_ofNat']
  exact and_congr_right fun _ => (congrArg (v.toNat = ·) hmod).to_iff

theorem u64At?_iff {v : UInt64} : b.u64At? pos = some v ↔ pos + 8 ≤ b.size ∧ v.toNat = field b pos 8 := by
  have hmod := Nat.mod_eq_of_lt (field_lt b pos 8)
  rw [Bytes.u64At?_eq_some_iff, ← UInt64.toNat_inj, UInt64.toNat_ofNat']
  exact and_congr_right fun _ => (congrArg (v.toNat = ·) hmod).to_iff

/-! A word that stands in a string is the field at its place. -/

theorem field_of_u16 {v : UInt16} (h : b.Carries pos (Bytes.ofU16 v)) : field b pos 2 = v.toNat :=
  (u16At?_iff.mp h.u16At?).2.symm

theorem field_of_u32 {v : UInt32} (h : b.Carries pos (Bytes.ofU32 v)) : field b pos 4 = v.toNat :=
  (u32At?_iff.mp h.u32At?).2.symm

theorem field_of_u64 {v : UInt64} (h : b.Carries pos (Bytes.ofU64 v)) : field b pos 8 = v.toNat :=
  (u64At?_iff.mp h.u64At?).2.symm

end Fields

namespace Format

/-! ## The format -/

section Positions

variable (raw : Bytes)

/-- Where the PE signature stands; the COFF header is behind it. -/
def signature : Nat := field raw 60 4

/-- Where the optional header starts. -/
def optional : Nat := signature raw + 24

/-- How long the COFF header says that it is. -/
def optionalSize : Nat := field raw (signature raw + 20) 2

/-- Where the section table starts. -/
def table : Nat := optional raw + optionalSize raw

def sectionCount : Nat := field raw (signature raw + 6) 2

end Positions

/-- What tells one form of the optional header from the other. -/
structure Layout where
  magic : Nat
  basePos : Nat
  baseWidth : Nat
  /-- The size of the fixed part. The last word of it counts the directories, which are behind it. -/
  fixedSize : Nat

def layout : OptionalForm → Layout
  | .pe32 => ⟨0x10b, 28, 4, 96⟩
  | .pe32Plus => ⟨0x20b, 24, 8, 112⟩

def directoryCount (raw : Bytes) (form : OptionalForm) : Nat := field raw (optional raw + (layout form).fixedSize - 4) 4

/-- Where the directory of the relocation table stands, which is number 5. -/
def directory (raw : Bytes) (form : OptionalForm) : Nat := optional raw + (layout form).fixedSize + 5 * 8

/-- The file is an image of this form that a loader is to accept. -/
structure Conforms (raw : Bytes) (config : LoaderConfig) (form : OptionalForm) : Prop where
  stub : 64 ≤ raw.size
  mz : field raw 0 2 = 0x5A4D
  headers : table raw ≤ raw.size
  pe : field raw (signature raw) 4 = 0x4550
  machine : field raw (signature raw + 4) 2 = config.machine.code.toNat
  magic : field raw (optional raw) 2 = (layout form).magic
  fixed : (layout form).fixedSize ≤ optionalSize raw
  directories : 5 < directoryCount raw form → (layout form).fixedSize + 6 * 8 ≤ optionalSize raw
  application : config.requireEfiApplication = true → field raw (optional raw + 68) 2 = 10
  headersInFile : field raw (optional raw + 60) 4 ≤ raw.size
  headersInImage : field raw (optional raw + 60) 4 ≤ field raw (optional raw + 56) 4
  entryInImage : field raw (optional raw + 16) 4 < field raw (optional raw + 56) 4
  sections : table raw + 40 * sectionCount raw ≤ raw.size

/-- The entry of the section table at a position. -/
structure DescribesSection (raw : Bytes) (pos : Nat) (s : ImageSection) : Prop where
  name : s.name = raw.extract pos (pos + 8)
  virtualSize : s.virtualSize.toNat = field raw (pos + 8) 4
  virtualAddress : s.virtualAddress.toNat = field raw (pos + 12) 4
  rawSize : s.rawSize.toNat = field raw (pos + 16) 4
  rawOffset : s.rawOffset.toNat = field raw (pos + 20) 4
  flags : s.flags.toNat = field raw (pos + 36) 4

/-- What a file of this form has in its headers. -/
structure Describes (raw : Bytes) (config : LoaderConfig) (form : OptionalForm) (h : Header) : Prop where
  machine : h.machine = config.machine
  isPe32Plus : h.isPe32Plus = true ↔ form = .pe32Plus
  entryRva : h.entryRva.toNat = field raw (optional raw + 16) 4
  imageBase : h.imageBase.toNat = field raw (optional raw + (layout form).basePos) (layout form).baseWidth
  sectionAlignment : h.sectionAlignment.toNat = field raw (optional raw + 32) 4
  imageSize : h.imageSize.toNat = field raw (optional raw + 56) 4
  headerSize : h.headerSize.toNat = field raw (optional raw + 60) 4
  subsystem : h.subsystem.toNat = field raw (optional raw + 68) 2
  sectionTable : h.sectionTable = table raw
  count : h.sections.length = sectionCount raw
  sections : ∀ i s, h.sections[i]? = some s → DescribesSection raw (table raw + 40 * i) s
  reloc : ∀ d, h.reloc = some d ↔ 5 < directoryCount raw form ∧ field raw (directory raw form + 4) 4 ≠ 0 ∧
    d.rva.toNat = field raw (directory raw form) 4 ∧ d.size.toNat = field raw (directory raw form + 4) 4

/-! ## One description -/

theorem DescribesSection.unique {raw : Bytes} {pos : Nat} {s t : ImageSection} (hs : DescribesSection raw pos s)
    (ht : DescribesSection raw pos t) : s = t := by
  cases s
  cases t
  simp only [ImageSection.mk.injEq]
  exact ⟨hs.name.trans ht.name.symm, UInt32.toNat_inj.mp (hs.virtualAddress.trans ht.virtualAddress.symm),
    UInt32.toNat_inj.mp (hs.virtualSize.trans ht.virtualSize.symm),
    UInt32.toNat_inj.mp (hs.rawOffset.trans ht.rawOffset.symm), UInt32.toNat_inj.mp (hs.rawSize.trans ht.rawSize.symm),
    UInt32.toNat_inj.mp (hs.flags.trans ht.flags.symm)⟩

theorem Describes.unique {raw : Bytes} {config : LoaderConfig} {form : OptionalForm} {h h' : Header}
    (hh : Describes raw config form h) (hh' : Describes raw config form h') : h = h' := by
  have hsections : h.sections = h'.sections := by
    refine List.ext_getElem (hh.count.trans hh'.count.symm) fun i hi hi' => ?_
    exact (hh.sections i _ (List.getElem?_eq_getElem hi)).unique (hh'.sections i _ (List.getElem?_eq_getElem hi'))
  have hreloc : h.reloc = h'.reloc := Option.ext fun d => (hh.reloc d).trans (hh'.reloc d).symm
  have hplus : h.isPe32Plus = h'.isPe32Plus := Bool.eq_iff_iff.mpr (hh.isPe32Plus.trans hh'.isPe32Plus.symm)
  cases h
  cases h'
  simp only [Header.mk.injEq]
  exact ⟨hh.machine.trans hh'.machine.symm, UInt16.toNat_inj.mp (hh.subsystem.trans hh'.subsystem.symm), hplus,
    UInt32.toNat_inj.mp (hh.entryRva.trans hh'.entryRva.symm), UInt64.toNat_inj.mp (hh.imageBase.trans hh'.imageBase.symm),
    UInt32.toNat_inj.mp (hh.sectionAlignment.trans hh'.sectionAlignment.symm),
    UInt32.toNat_inj.mp (hh.imageSize.trans hh'.imageSize.symm), UInt32.toNat_inj.mp (hh.headerSize.trans hh'.headerSize.symm),
    hh.sectionTable.trans hh'.sectionTable.symm, hsections, hreloc⟩

/-- The magic number tells the forms apart. -/
theorem Conforms.form_unique {raw : Bytes} {config : LoaderConfig} {form form' : OptionalForm}
    (hc : Conforms raw config form) (hc' : Conforms raw config form') : form = form' := by
  have hm := hc.magic.symm.trans hc'.magic
  cases form <;> cases form' <;> first | rfl | exact absurd hm (by decide)

/-! ## The structures that the parser reads -/

section Structures

variable {b : Bytes} {pos : Nat}

theorem exists_bind {α β : Type} {o : Option α} {f : α → Option β} (ho : ∃ a, o = some a)
    (hf : ∀ a, ∃ c, f a = some c) : ∃ c, (o >>= f) = some c := by
  obtain ⟨a, rfl⟩ := ho
  exact hf a

theorem coffHeader_fields {c : CoffHeader} (h : CoffHeader.at? b pos = some c) :
    c.machine.toNat = field b pos 2 ∧ c.numberOfSections.toNat = field b (pos + 2) 2 ∧
      c.sizeOfOptionalHeader.toNat = field b (pos + 16) 2 := by
  simp only [CoffHeader.at?, Option.bind_eq_bind, Option.bind_eq_some_iff, u16At?_iff, u32At?_iff] at h
  obtain ⟨machine, hmachine, count, hcount, _, -, _, -, _, -, size, hsize, _, -, h⟩ := h
  cases h
  exact ⟨hmachine.2, hcount.2, hsize.2⟩

theorem exists_coffHeader (h : pos + 20 ≤ b.size) : ∃ c, CoffHeader.at? b pos = some c := by
  have h16 : ∀ k, k + 2 ≤ 20 → ∃ v, b.u16At? (pos + k) = some v := fun k hk => Bytes.exists_u16At? (by omega)
  have h32 : ∀ k, k + 4 ≤ 20 → ∃ v, b.u32At? (pos + k) = some v := fun k hk => Bytes.exists_u32At? (by omega)
  refine exists_bind (h16 0 (by omega)) fun _ => exists_bind (h16 2 (by omega)) fun _ => ?_
  refine exists_bind (h32 4 (by omega)) fun _ => exists_bind (h32 8 (by omega)) fun _ => ?_
  refine exists_bind (h32 12 (by omega)) fun _ => exists_bind (h16 16 (by omega)) fun _ => ?_
  exact exists_bind (h16 18 (by omega)) fun _ => ⟨_, rfl⟩

theorem sectionHeader_fields {h : SectionHeader} (hh : SectionHeader.at? b pos = some h) :
    pos + 40 ≤ b.size ∧ DescribesSection b pos (.ofHeader h) := by
  simp only [SectionHeader.at?, Option.bind_eq_bind, Option.bind_eq_some_iff, u16At?_iff, u32At?_iff,
    Bytes.slice?_eq_some_iff] at hh
  obtain ⟨name, hname, vsize, hvsize, va, hva, rsize, hrsize, raw, hraw, _, -, _, -, _, -, _, -, flags, hflags, hh⟩ := hh
  cases hh
  exact ⟨hflags.1, hname.2, hvsize.2, hva.2, hrsize.2, hraw.2, hflags.2⟩

theorem exists_sectionHeader (h : pos + 40 ≤ b.size) : ∃ c, SectionHeader.at? b pos = some c := by
  have h16 : ∀ k, k + 2 ≤ 40 → ∃ v, b.u16At? (pos + k) = some v := fun k hk => Bytes.exists_u16At? (by omega)
  have h32 : ∀ k, k + 4 ≤ 40 → ∃ v, b.u32At? (pos + k) = some v := fun k hk => Bytes.exists_u32At? (by omega)
  have hname : ∃ s, b.slice? pos 8 = some s := ⟨_, Bytes.slice?_eq_some_iff.mpr ⟨by omega, rfl⟩⟩
  refine exists_bind hname fun _ => exists_bind (h32 8 (by omega)) fun _ => ?_
  refine exists_bind (h32 12 (by omega)) fun _ => exists_bind (h32 16 (by omega)) fun _ => ?_
  refine exists_bind (h32 20 (by omega)) fun _ => exists_bind (h32 24 (by omega)) fun _ => ?_
  refine exists_bind (h32 28 (by omega)) fun _ => exists_bind (h16 32 (by omega)) fun _ => ?_
  exact exists_bind (h16 34 (by omega)) fun _ => exists_bind (h32 36 (by omega)) fun _ => ⟨_, rfl⟩

theorem dataDirectory_iff {d : DataDirectory} : DataDirectory.at? b pos = some d ↔
    pos + 8 ≤ b.size ∧ d.rva.toNat = field b pos 4 ∧ d.size.toNat = field b (pos + 4) 4 := by
  simp only [DataDirectory.at?, Option.bind_eq_bind, Option.bind_eq_some_iff, u32At?_iff]
  constructor
  · intro h
    obtain ⟨rva, hrva, size, hsize, h⟩ := h
    cases h
    exact ⟨hsize.1, hrva.2, hsize.2⟩
  · intro h
    exact ⟨d.rva, ⟨by omega, h.2.1⟩, d.size, ⟨h.1, h.2.2⟩, rfl⟩

end Structures

/-! ## The optional header -/

section Optional

variable {raw : Bytes} {form : OptionalForm}

/-- The optional header as a string of its own. -/
def optionalPart (raw : Bytes) : Bytes := raw.extract (optional raw) (table raw)

theorem size_optionalPart (h : table raw ≤ raw.size) : (optionalPart raw).size = optionalSize raw := by
  rw [optionalPart, Array.size_extract, Nat.min_eq_left h, table, Nat.add_sub_cancel_left]

theorem field_optionalPart {pos width : Nat} (h : pos + width ≤ optionalSize raw) :
    field (optionalPart raw) pos width = field raw (optional raw + pos) width :=
  field_extract (by rw [table]; omega)

theorem layout_bounds (form : OptionalForm) :
    96 ≤ (layout form).fixedSize ∧ (layout form).basePos + (layout form).baseWidth ≤ 96 := by
  cases form <;> decide

theorem directories_eq (form : OptionalForm) : form.directories = (layout form).fixedSize := by cases form <;> rfl

theorem ofMagic?_eq_some_iff {n : UInt16} : OptionalForm.ofMagic? n = some form ↔ n.toNat = (layout form).magic := by
  have hmagic : OptionalForm.ofMagic? n = some form ↔ n = form.magic := by
    unfold OptionalForm.ofMagic?
    by_cases h32 : n = 0x10b
    · subst h32
      cases form <;> decide
    · rw [if_neg h32]
      by_cases h64 : n = 0x20b
      · subst h64
        cases form <;> decide
      · rw [if_neg h64]
        cases form <;> simp [OptionalForm.magic, h32, h64]
  rw [hmagic, ← UInt16.toNat_inj]
  cases form <;> rfl

theorem imageBase?_iff {b : Bytes} {v : UInt64} : form.imageBase? b = some v ↔
    (layout form).basePos + (layout form).baseWidth ≤ b.size ∧
      v.toNat = field b (layout form).basePos (layout form).baseWidth := by
  cases form with
  | pe32 =>
    simp only [OptionalForm.imageBase?, Option.map_eq_some_iff, layout]
    constructor
    · intro h
      obtain ⟨base, hbase, rfl⟩ := h
      rw [UInt32.toNat_toUInt64]
      exact u32At?_iff.mp hbase
    · intro h
      obtain ⟨base, hbase⟩ := Bytes.exists_u32At? h.1
      refine ⟨base, hbase, UInt64.toNat_inj.mp ?_⟩
      rw [UInt32.toNat_toUInt64, (u32At?_iff.mp hbase).2, h.2]
  | pe32Plus => exact u64At?_iff

theorem exists_imageBase? {b : Bytes} (h : 96 ≤ b.size) : ∃ v, form.imageBase? b = some v := by
  cases form with
  | pe32 =>
    have hbase : ∃ v, b.u32At? 28 = some v := Bytes.exists_u32At? (by omega)
    obtain ⟨base, hbase⟩ := hbase
    exact ⟨base.toUInt64, by simp only [OptionalForm.imageBase?, hbase, Option.map_some]⟩
  | pe32Plus => exact ⟨_, Bytes.u64At?_eq_some_iff.mpr ⟨by omega, rfl⟩⟩

/-- The optional header that the parser reads is the one of the file. -/
structure Reads (raw : Bytes) (o : OptionalHeader) : Prop where
  magic : field raw (optional raw) 2 = (layout o.form).magic
  fixed : (layout o.form).fixedSize ≤ optionalSize raw
  entryPoint : o.entryPoint.toNat = field raw (optional raw + 16) 4
  imageBase : o.imageBase.toNat = field raw (optional raw + (layout o.form).basePos) (layout o.form).baseWidth
  sectionAlignment : o.sectionAlignment.toNat = field raw (optional raw + 32) 4
  sizeOfImage : o.sizeOfImage.toNat = field raw (optional raw + 56) 4
  sizeOfHeaders : o.sizeOfHeaders.toNat = field raw (optional raw + 60) 4
  subsystem : o.subsystem.toNat = field raw (optional raw + 68) 2
  count : o.numberOfDirectories.toNat = directoryCount raw o.form

theorem reads_of_ok {o : OptionalHeader} (htable : table raw ≤ raw.size)
    (h : Header.optionalHeader (optionalPart raw) = .ok o) : Reads raw o := by
  simp only [Header.optionalHeader, demand_bind_eq_ok_iff, demand_eq_ok_iff] at h
  obtain ⟨magic, hmagic, form, hform, h⟩ := h
  simp only [OptionalHeader.ofForm?, Option.bind_eq_bind, Option.bind_eq_some_iff, u16At?_iff, u32At?_iff,
    imageBase?_iff, size_optionalPart htable] at h
  obtain ⟨base, hbase, entry, hentry, align, halign, image, himage, headers, hheaders, sub, hsub, count, hcount, h⟩ := h
  rw [u16At?_iff, size_optionalPart htable] at hmagic
  rw [ofMagic?_eq_some_iff] at hform
  rw [directories_eq] at hcount
  have hlayout := layout_bounds form
  have hfixed : (layout form).fixedSize ≤ optionalSize raw := by omega
  have hdirectories : count.toNat = directoryCount raw form := by
    rw [hcount.2, field_optionalPart hcount.1, directoryCount, Nat.add_sub_assoc (by omega)]
  cases h
  refine ⟨?_, hfixed, ?_, ?_, ?_, ?_, ?_, ?_, hdirectories⟩
  · rw [← hform, hmagic.2, field_optionalPart hmagic.1, Nat.add_zero]
  · rw [hentry.2, field_optionalPart hentry.1]
  · rw [hbase.2, field_optionalPart hbase.1]
  · rw [halign.2, field_optionalPart halign.1]
  · rw [himage.2, field_optionalPart himage.1]
  · rw [hheaders.2, field_optionalPart hheaders.1]
  · rw [hsub.2, field_optionalPart hsub.1]

theorem exists_reads (htable : table raw ≤ raw.size) (hm : field raw (optional raw) 2 = (layout form).magic)
    (hs : (layout form).fixedSize ≤ optionalSize raw) :
    ∃ o, Header.optionalHeader (optionalPart raw) = .ok o ∧ o.form = form := by
  have hlayout := layout_bounds form
  have hsize := size_optionalPart htable
  have hmagic : ∃ magic, (optionalPart raw).u16At? 0 = some magic := Bytes.exists_u16At? (by omega)
  obtain ⟨magic, hmagic⟩ := hmagic
  have hform : OptionalForm.ofMagic? magic = some form := by
    rw [ofMagic?_eq_some_iff, (u16At?_iff.mp hmagic).2, field_optionalPart (by omega), Nat.add_zero, hm]
  have h32 : ∀ k, k + 4 ≤ (layout form).fixedSize → ∃ v, (optionalPart raw).u32At? k = some v := fun k hk =>
    Bytes.exists_u32At? (by omega)
  have hfields : ∃ o, OptionalHeader.ofForm? form (optionalPart raw) = some o := by
    refine exists_bind (exists_imageBase? (by omega)) fun _ => exists_bind (h32 16 (by omega)) fun _ => ?_
    refine exists_bind (h32 32 (by omega)) fun _ => exists_bind (h32 56 (by omega)) fun _ => ?_
    refine exists_bind (h32 60 (by omega)) fun _ => exists_bind (Bytes.exists_u16At? (by omega)) fun _ => ?_
    exact exists_bind (h32 _ (by rw [directories_eq]; omega)) fun _ => ⟨_, rfl⟩
  obtain ⟨o, ho⟩ := hfields
  have hok : Header.optionalHeader (optionalPart raw) = .ok o := by
    simp only [Header.optionalHeader, demand_bind_eq_ok_iff, demand_eq_ok_iff]
    exact ⟨magic, hmagic, form, hform, ho⟩
  refine ⟨o, hok, ?_⟩
  simp only [OptionalHeader.ofForm?, Option.bind_eq_bind, Option.bind_eq_some_iff] at ho
  obtain ⟨_, -, _, -, _, -, _, -, _, -, _, -, _, -, ho⟩ := ho
  cases ho
  rfl

theorem directory_iff {d : DataDirectory} (htable : table raw ≤ raw.size) :
    DataDirectory.at? (optionalPart raw) ((layout form).fixedSize + 5 * 8) = some d ↔
      (layout form).fixedSize + 6 * 8 ≤ optionalSize raw ∧ d.rva.toNat = field raw (directory raw form) 4 ∧
        d.size.toNat = field raw (directory raw form + 4) 4 := by
  rw [dataDirectory_iff, size_optionalPart htable]
  refine and_congr_right fun hle => ?_
  rw [field_optionalPart (by omega), field_optionalPart (by omega), directory]
  simp only [Nat.add_assoc]

/-- A relocation table is named by its directory, if that is counted and not empty. -/
theorem relocation_of_ok {o : OptionalHeader} {r : Option DataDirectory} (htable : table raw ≤ raw.size)
    (ho : Reads raw o) (h : Header.relocation (optionalPart raw) o = .ok r) :
    (5 < directoryCount raw o.form → (layout o.form).fixedSize + 6 * 8 ≤ optionalSize raw) ∧
      ∀ d, r = some d ↔ 5 < directoryCount raw o.form ∧ field raw (directory raw o.form + 4) 4 ≠ 0 ∧
        d.rva.toNat = field raw (directory raw o.form) 4 ∧ d.size.toNat = field raw (directory raw o.form + 4) 4 := by
  rw [Header.relocation, Header.relocationDirectory, directories_eq, DataDirectory.entrySize, ho.count] at h
  by_cases hcount : directoryCount raw o.form ≤ 5
  · rw [if_pos hcount] at h
    cases h
    refine ⟨fun hlt => by omega, fun d => ⟨fun hd => (nomatch hd), fun hd => ?_⟩⟩
    exact absurd hd.1 (by omega)
  · rw [if_neg hcount, demand_bind_eq_ok_iff] at h
    obtain ⟨found, hfound, h⟩ := h
    obtain ⟨hle, hrva, hsize⟩ := (directory_iff htable).mp hfound
    have hempty : found.size = 0 ↔ field raw (directory raw o.form + 4) 4 = 0 := by
      rw [← hsize, ← UInt32.toNat_inj]
      rfl
    refine ⟨fun _ => hle, fun d => ?_⟩
    by_cases hz : found.size = 0
    · rw [if_pos hz] at h
      cases h
      refine ⟨fun hd => (nomatch hd), fun hd => ?_⟩
      exact absurd (hempty.mp hz) hd.2.1
    · rw [if_neg hz] at h
      cases h
      constructor
      · intro hd
        injection hd with hd
        subst hd
        exact ⟨by omega, fun h0 => hz (hempty.mpr h0), hrva, hsize⟩
      · intro hd
        rw [← hfound, (directory_iff htable).mpr ⟨hle, hd.2.2⟩]

theorem exists_relocation {o : OptionalHeader} (htable : table raw ≤ raw.size) (ho : Reads raw o)
    (h : 5 < directoryCount raw o.form → (layout o.form).fixedSize + 6 * 8 ≤ optionalSize raw) :
    ∃ r, Header.relocation (optionalPart raw) o = .ok r := by
  rw [Header.relocation, Header.relocationDirectory, directories_eq, DataDirectory.entrySize, ho.count]
  by_cases hcount : directoryCount raw o.form ≤ 5
  · rw [if_pos hcount]
    exact ⟨none, rfl⟩
  · rw [if_neg hcount]
    have hle := h (by omega)
    have hsize := size_optionalPart htable
    have hdirectory : ∃ d, DataDirectory.at? (optionalPart raw) ((layout o.form).fixedSize + 5 * 8) = some d :=
      exists_bind (Bytes.exists_u32At? (by omega)) fun _ =>
        exists_bind (Bytes.exists_u32At? (by omega)) fun _ => ⟨_, rfl⟩
    obtain ⟨d, hd⟩ := hdirectory
    exact ⟨_, demand_bind_eq_ok_iff.mpr ⟨d, hd, rfl⟩⟩

end Optional

/-! ## The section table -/

section Table

variable {b : Bytes} {pos count : Nat}

theorem mapM_eq_some_iff {α β : Type} {f : α → Option β} {l : List α} {r : List β} :
    l.mapM f = some r ↔ l.map f = r.map some := by
  induction l generalizing r with
  | nil => cases r <;> simp
  | cons a l ih =>
    simp only [List.mapM_cons, Option.bind_eq_bind, Option.bind_eq_some_iff, ih, List.map_cons]
    cases r with
    | nil => simp
    | cons c r => simp [Option.pure_def]

theorem exists_mapM {α β : Type} {f : α → Option β} {l : List α} (h : ∀ a ∈ l, ∃ c, f a = some c) :
    ∃ r, l.mapM f = some r := by
  induction l with
  | nil => exact ⟨[], rfl⟩
  | cons a l ih =>
    rw [List.forall_mem_cons] at h
    rw [List.mapM_cons]
    exact exists_bind h.1 fun _ => exists_bind (ih h.2) fun _ => ⟨_, rfl⟩

theorem sectionTable_of_some {sections : List ImageSection} (h : Header.sectionTable? b pos count = some sections) :
    sections.length = count ∧ (0 < count → pos + 40 * count ≤ b.size) ∧
      ∀ i s, sections[i]? = some s → DescribesSection b (pos + 40 * i) s := by
  rw [Header.sectionTable?, mapM_eq_some_iff] at h
  have hlen : sections.length = count := by
    have := congrArg List.length h
    simpa using this.symm
  have hentry (i : Nat) (s : ImageSection) (hs : sections[i]? = some s) :
      pos + 40 * i + 40 ≤ b.size ∧ DescribesSection b (pos + 40 * i) s := by
    have hi : i < count := by
      rw [← hlen]
      exact (List.getElem?_eq_some_iff.mp hs).1
    have hf := congrArg (·[i]?) h
    simp only [List.getElem?_map, hs, List.getElem?_range hi, Option.map_some, Option.some.injEq,
      Option.map_eq_some_iff] at hf
    obtain ⟨entry, he, rfl⟩ := hf
    exact sectionHeader_fields he
  refine ⟨hlen, fun hpos => ?_, fun i s hs => (hentry i s hs).2⟩
  have hlast : sections[count - 1]? = some sections[count - 1] := List.getElem?_eq_getElem (by omega)
  have hle := (hentry _ _ hlast).1
  omega

theorem exists_sectionTable (h : pos + 40 * count ≤ b.size) :
    ∃ sections, Header.sectionTable? b pos count = some sections := by
  refine exists_mapM fun i hi => ?_
  have hlt := List.mem_range.mp hi
  have hentry : ∃ entry, SectionHeader.at? b (pos + SectionHeader.size * i) = some entry :=
    exists_sectionHeader (by rw [SectionHeader.size]; omega)
  obtain ⟨entry, he⟩ := hentry
  exact ⟨.ofHeader entry, by rw [he, Option.map_some]⟩

end Table

/-! ## The parser -/

section Parser

variable {raw : Bytes} {config : LoaderConfig} {form : OptionalForm}

/-- The COFF header at its place. -/
theorem coffHeader_of_some {sig : UInt32} {coff : CoffHeader} (hsig : raw.u32At? signatureOffsetField = some sig)
    (hcoff : CoffHeader.at? raw (sig.toNat + 4) = some coff) :
    sig.toNat = signature raw ∧ coff.machine.toNat = field raw (signature raw + 4) 2 ∧
      coff.numberOfSections.toNat = sectionCount raw ∧ coff.sizeOfOptionalHeader.toNat = optionalSize raw := by
  have hs : sig.toNat = signature raw := (u32At?_iff.mp hsig).2
  obtain ⟨hmachine, hcount, hsize⟩ := coffHeader_fields hcoff
  rw [hs] at hmachine hcount hsize
  exact ⟨hs, hmachine, hcount, hsize⟩

section Steps

variable {ε α β : Type} {e : ε}

theorem exists_check_bind {x : Except ε α} {f : α → Except ε β} {a : α} (hx : x = .ok a)
    (hf : ∃ b, f a = .ok b) :
    ∃ b, (x >>= f) = .ok b := by
  rw [hx]
  exact hf

theorem exists_need_bind {p : Prop} [Decidable p] {f : Unit → Except ε β} (hp : p) (hf : ∃ b, f () = .ok b) :
    ∃ b, (need p e >>= f) = .ok b := exists_check_bind (if_pos hp) hf

theorem exists_demand_bind {o : Option α} {f : α → Except ε β} {a : α} (ho : o = some a)
    (hf : ∃ b, f a = .ok b) :
    ∃ b, (demand o e >>= f) = .ok b := exists_check_bind (demand_eq_ok_iff.mpr ho) hf

end Steps

theorem parse_sound {h : Header} (hp : Header.parse raw config = .ok h) :
    ∃ form, Conforms raw config form ∧ Describes raw config form h := by
  simp only [Header.parse, need_bind_eq_ok_iff, demand_bind_eq_ok_iff] at hp
  obtain ⟨hstub, hmz, sig, hsig, -, hpe, coff, hcoff, htable, hmachine, hp⟩ := hp
  obtain ⟨o, ho, hp⟩ := check_bind_eq_ok_iff.mp hp
  obtain ⟨happ, hp⟩ := need_bind_eq_ok_iff.mp hp
  obtain ⟨reloc, hreloc, hp⟩ := check_bind_eq_ok_iff.mp hp
  simp only [need_bind_eq_ok_iff, demand_bind_eq_ok_iff] at hp
  obtain ⟨hfile, himage, hentry, sections, hsections, hp⟩ := hp
  obtain ⟨hs, hcode, hcount, hsize⟩ := coffHeader_of_some hsig hcoff
  have hstart : sig.toNat + 4 + CoffHeader.size = optional raw := by rw [hs]; rfl
  rw [hstart, hsize] at ho hreloc htable hsections hp
  rw [hs] at hpe
  have hread := reads_of_ok htable ho
  obtain ⟨hdirs, hrelocs⟩ := relocation_of_ok htable hread hreloc
  obtain ⟨hlen, hheld, hdescribed⟩ := sectionTable_of_some hsections
  rw [hcount] at hlen hheld
  refine ⟨o.form, ⟨hstub, ?_, htable, ?_, ?_, hread.magic, hread.fixed, hdirs, ?_, ?_, ?_, ?_, ?_⟩, ?_⟩
  · exact (u16At?_iff.mp hmz).2.symm
  · exact (u32At?_iff.mp hpe).2.symm
  · rw [← hcode, hmachine]
  · intro hrequired
    have happlication := happ hrequired
    rw [OptionalHeader.isEfiApplication, beq_iff_eq] at happlication
    rw [← hread.subsystem, happlication]
    rfl
  · rw [← hread.sizeOfHeaders]
    exact hfile
  · rw [← hread.sizeOfHeaders, ← hread.sizeOfImage]
    exact UInt32.le_iff_toNat_le.mp himage
  · rw [← hread.entryPoint, ← hread.sizeOfImage]
    exact UInt32.lt_iff_toNat_lt.mp hentry
  · have hstop : table raw ≤ raw.size := htable
    by_cases hsome : 0 < sectionCount raw
    · exact hheld hsome
    · omega
  · injection hp with hp
    subst hp
    refine ⟨rfl, ?_, hread.entryPoint, hread.imageBase, hread.sectionAlignment, hread.sizeOfImage, hread.sizeOfHeaders,
      hread.subsystem, rfl, hlen, hdescribed, hrelocs⟩
    exact beq_iff_eq

theorem parse_complete (hc : Conforms raw config form) : ∃ h, Header.parse raw config = .ok h := by
  have hstub := hc.stub
  have htable := hc.headers
  have hoptional : optional raw ≤ raw.size := Nat.le_trans (Nat.le_add_right _ _) htable
  have hsig : ∃ sig, raw.u32At? signatureOffsetField = some sig :=
    Bytes.exists_u32At? (by rw [signatureOffsetField]; omega)
  obtain ⟨sig, hsig⟩ := hsig
  have hs : sig.toNat = signature raw := (u32At?_iff.mp hsig).2
  have hcoff : ∃ coff, CoffHeader.at? raw (sig.toNat + 4) = some coff :=
    exists_coffHeader (by rw [hs]; exact hoptional)
  obtain ⟨coff, hcoff⟩ := hcoff
  obtain ⟨-, hcode, hcount, hsize⟩ := coffHeader_of_some hsig hcoff
  have hstart : sig.toNat + 4 + CoffHeader.size = optional raw := by rw [hs]; rfl
  obtain ⟨o, ho, rfl⟩ := exists_reads htable hc.magic hc.fixed
  have hread := reads_of_ok htable ho
  obtain ⟨reloc, hreloc⟩ := exists_relocation htable hread hc.directories
  obtain ⟨sections, hsections⟩ := exists_sectionTable hc.sections
  have hmz : raw.u16At? 0 = some dosMagic := u16At?_iff.mpr ⟨by omega, hc.mz.symm⟩
  have hpe : raw.u32At? sig.toNat = some peSignature := by
    rw [hs]
    exact u32At?_iff.mpr ⟨Nat.le_trans (Nat.add_le_add_left (by decide) _) hoptional, hc.pe.symm⟩
  have hmachine : coff.machine = config.machine.code := UInt16.toNat_inj.mp (hcode.trans hc.machine)
  have happlication : config.requireEfiApplication = true → o.isEfiApplication = true := by
    intro hrequired
    rw [OptionalHeader.isEfiApplication, beq_iff_eq, ← UInt16.toNat_inj, hread.subsystem, hc.application hrequired]
    rfl
  have hfile : o.sizeOfHeaders.toNat ≤ raw.size := by
    rw [hread.sizeOfHeaders]
    exact hc.headersInFile
  have himage : o.sizeOfHeaders ≤ o.sizeOfImage := by
    rw [UInt32.le_iff_toNat_le, hread.sizeOfHeaders, hread.sizeOfImage]
    exact hc.headersInImage
  have hentry : o.entryPoint < o.sizeOfImage := by
    rw [UInt32.lt_iff_toNat_lt, hread.entryPoint, hread.sizeOfImage]
    exact hc.entryInImage
  have hend : sig.toNat + 4 + CoffHeader.size + coff.sizeOfOptionalHeader.toNat = table raw := by
    rw [hstart, hsize]
    rfl
  unfold optionalPart at ho hreloc
  rw [← hend, ← hstart] at ho hreloc
  rw [← hend, ← hcount] at hsections
  rw [← hend] at htable
  rw [← hstart] at hoptional
  refine exists_need_bind hstub <| exists_need_bind hmz <| exists_demand_bind hsig ?_
  refine exists_need_bind hoptional <| exists_need_bind hpe <| exists_demand_bind hcoff ?_
  refine exists_need_bind htable <| exists_need_bind hmachine <| exists_check_bind ho ?_
  refine exists_need_bind happlication <| exists_check_bind hreloc ?_
  refine exists_need_bind hfile <| exists_need_bind himage <| exists_need_bind hentry ?_
  exact exists_demand_bind hsections ⟨_, rfl⟩

end Parser

/-- The parser accepts the files of the format, and keeps what their headers hold. -/
theorem parse_accepts_format (raw : Bytes) (config : LoaderConfig) :
    (∀ h, Header.parse raw config = .ok h ↔ ∃ form, Conforms raw config form ∧ Describes raw config form h) ∧
      ((∃ h, Header.parse raw config = .ok h) ↔ ∃ form, Conforms raw config form) := by
  have hcomplete {form : OptionalForm} (hc : Conforms raw config form) :
      ∃ h, Header.parse raw config = .ok h ∧ Describes raw config form h := by
    obtain ⟨h, hp⟩ := parse_complete hc
    obtain ⟨form', hc', hd⟩ := parse_sound hp
    rw [hc.form_unique hc']
    exact ⟨h, hp, hd⟩
  constructor
  · intro h
    constructor
    · exact parse_sound
    · intro hex
      obtain ⟨form, hc, hd⟩ := hex
      obtain ⟨h', hp, hd'⟩ := hcomplete hc
      rw [hd.unique hd', hp]
  · constructor
    · intro hex
      obtain ⟨h, hp⟩ := hex
      obtain ⟨form, hc, -⟩ := parse_sound hp
      exact ⟨form, hc⟩
    · intro hex
      obtain ⟨form, hc⟩ := hex
      exact parse_complete hc

end Format

end NetBoot.Image
