/-
  NetBoot.Proofs.Image.Contents — the bytes of a mapped image.

  What stands at an offset of an image is read off its file (`Layout.byteAt?`): the last section that
  covers the offset decides, with the file's byte or, behind the data of the file, with a zero;
  where no section lies the headers stand, and zeros behind them. Sections may lie over one another,
  so a zero of a later section stands where an earlier one had data.

  The image is written section by section; each step changes the bytes of its section alone
  (`getElem?_place`), so the last one that covers an offset is the one that is seen
  (`getElem?_placeAll`). Mapping writes the result into the pages that it was given, and nothing
  besides (`map_contents`).
-/

import NetBoot.Image.Sample
import NetBoot.Proofs.Image.Strict.Safety

namespace NetBoot.Image

/-! ## What the file says -/

/-- Does the section lie at this offset of the image? -/
def ImageSection.Covers (s : ImageSection) (i : Nat) : Prop :=
  s.virtualAddress.toNat ≤ i ∧ i < s.virtualAddress.toNat + s.virtualSize.toNat

instance (s : ImageSection) (i : Nat) : Decidable (s.Covers i) := inferInstanceAs (Decidable (_ ∧ _))

/-- The byte of a section at an offset that it covers: that of the file, or zero behind what the file holds of it. -/
def ImageSection.byteAt? (s : ImageSection) (raw : Bytes) (i : Nat) : Option UInt8 :=
  if i - s.virtualAddress.toNat < s.rawSize.toNat then raw[s.rawOffset.toNat + (i - s.virtualAddress.toNat)]?
  else some 0

namespace Layout

/-- The byte at an offset: of the last section that covers it, else of the headers, else zero. -/
def byteAt? (raw : Bytes) (header : Header) (i : Nat) : Option UInt8 :=
  match (header.sections.filter (·.Covers i)).getLast? with
  | some s => s.byteAt? raw i
  | none => if i < header.headerSize.toNat then raw[i]? else some 0

/-- What mapping asks of a file and its header. -/
structure Mappable (raw : Bytes) (header : Header) : Prop where
  alignment : header.sectionAlignment.toNat.isPowerOfTwo
  sections : ∀ s ∈ header.sections, SectionFits raw.size header s

variable {raw memory : Bytes} {header : Header} {s : ImageSection} {i : Nat}

/-! ## Section by section -/

theorem size_sectionBytes (raw : Bytes) (s : ImageSection) : (sectionBytes raw s).size = s.virtualSize.toNat :=
  Bytes.size_resize _ _

theorem getElem?_sectionBytes (hfile : s.rawOffset.toNat + s.rawSize.toNat ≤ raw.size) (hi : s.Covers i) :
    (sectionBytes raw s)[i - s.virtualAddress.toNat]? = s.byteAt? raw i := by
  obtain ⟨hlow, hhigh⟩ := hi
  rw [sectionBytes, Bytes.getElem?_resize, if_pos (by omega), Array.getElem?_extract, ImageSection.byteAt?]
  by_cases hheld : i - s.virtualAddress.toNat < s.rawSize.toNat
  · have hget : s.rawOffset.toNat + (i - s.virtualAddress.toNat) < raw.size := by omega
    rw [if_pos hheld, if_pos (by omega), Array.getElem?_eq_getElem hget, Option.getD_some]
  · rw [if_neg hheld, if_neg (by omega), Option.getD_none]

/-- A section changes the bytes that it covers, and no other. -/
theorem getElem?_place (hfile : s.rawOffset.toNat + s.rawSize.toNat ≤ raw.size)
    (hmemory : s.virtualAddress.toNat + s.virtualSize.toNat ≤ memory.size) :
    (memory.overwrite s.virtualAddress.toNat (sectionBytes raw s))[i]? =
      if s.Covers i then s.byteAt? raw i else memory[i]? := by
  rw [Bytes.getElem?_overwrite, size_sectionBytes]
  by_cases hi : s.Covers i
  · rw [if_pos hi, if_pos ⟨hi.1, hi.2, Nat.lt_of_lt_of_le hi.2 hmemory⟩, getElem?_sectionBytes hfile hi]
  · rw [if_neg hi, if_neg fun h => hi ⟨h.1, h.2.1⟩]

theorem getElem?_placeAll (raw : Bytes) (i : Nat) :
    ∀ (sections : List ImageSection) (memory : Bytes),
      (∀ s ∈ sections, s.rawOffset.toNat + s.rawSize.toNat ≤ raw.size ∧
        s.virtualAddress.toNat + s.virtualSize.toNat ≤ memory.size) →
      (sections.foldl (fun memory s => memory.overwrite s.virtualAddress.toNat (sectionBytes raw s)) memory)[i]? =
        match (sections.filter (·.Covers i)).getLast? with
        | some s => s.byteAt? raw i
        | none => memory[i]?
  | [], memory, _ => rfl
  | s :: rest, memory, h => by
    obtain ⟨⟨hfile, hmemory⟩, hrest⟩ := List.forall_mem_cons.1 h
    rw [List.foldl_cons, getElem?_placeAll raw i rest _ fun t ht => by rw [Bytes.size_overwrite]; exact hrest t ht,
      getElem?_place hfile hmemory]
    by_cases hi : s.Covers i
    · rw [if_pos hi, List.filter_cons_of_pos (by simpa using hi), List.getLast?_cons]
      cases (rest.filter (·.Covers i)).getLast? <;> rfl
    · rw [if_neg hi, List.filter_cons_of_neg (by simpa using hi)]

/-- The memory of an image holds at each offset what the file says. -/
theorem getElem?_contents {layout : Layout} (h : Sound raw.size header layout) (hi : i < layout.size) :
    (contents raw header layout.size)[i]? = byteAt? raw header i := by
  have himage := h.imageSize_le
  have hfile := h.headers_file
  have hhead := h.headers_size
  have hsections : ∀ s ∈ header.sections, s.rawOffset.toNat + s.rawSize.toNat ≤ raw.size ∧
      s.virtualAddress.toNat + s.virtualSize.toNat ≤
        ((Bytes.zeros layout.size).overwrite 0 (raw.extract 0 header.headerSize.toNat)).size := by
    intro s hs
    rw [Bytes.size_overwrite, Bytes.size_zeros]
    exact ⟨(h.sections s hs).file, Nat.le_trans (h.sections s hs).memory himage⟩
  rw [contents, getElem?_placeAll raw i _ _ hsections, byteAt?]
  cases (header.sections.filter (·.Covers i)).getLast? with
  | some s => rfl
  | none =>
    dsimp only
    rw [Bytes.getElem?_overwrite, Bytes.getElem?_zeros, Bytes.size_zeros, Array.size_extract,
      Array.getElem?_extract]
    by_cases hheader : i < header.headerSize.toNat
    · rw [if_pos hheader, if_pos (by omega), if_pos (by omega)]
      simp
    · rw [if_neg hheader, if_neg (by omega), if_pos hi]

/-! ## When there is a layout -/

/-- A parsed file that can be mapped has a layout. -/
theorem exists_of_mappable {parsing config : LoaderConfig} (hparse : Header.parse raw parsing = .ok header)
    (hpage : config.pageSize = pageSize) (h : Mappable raw header) :
    ∃ layout, Layout.of raw.size header config = .ok layout := by
  obtain ⟨-, hhead, hfile⟩ := Header.parse_bounds hparse
  have hhead := UInt32.le_iff_toNat_le.1 hhead
  have himage := header.imageSize.toNat_lt
  have hsection := header.sectionAlignment.toNat_lt
  have hpower : (max header.sectionAlignment.toNat pageSize).isPowerOfTwo := 
    isPowerOfTwo_max h.alignment isPowerOfTwo_pageSize
  have hle : pageSize ≤ max header.sectionAlignment.toNat pageSize := Nat.le_max_right _ _
  have hlt : max header.sectionAlignment.toNat pageSize < UInt32.size := Nat.max_lt.2 ⟨hsection, by decide⟩
  generalize halignment : max header.sectionAlignment.toNat pageSize = alignment at hpower hle hlt
  have hpos : 0 < alignment := Nat.lt_of_lt_of_le (by decide) hle
  have hup := le_roundUp hpos header.imageSize.toNat
  have hdown := roundUp_lt hpos header.imageSize.toNat
  have hsum : header.imageSize.toNat + (alignment - 1) + alignment < UInt64.size := by
    rw [UInt32.size] at hlt
    rw [UInt64.size]
    omega
  refine ⟨_, of_eq_ok_iff.2 ⟨h.alignment, h.sections, hfile,
    (header.imageSize.toNat + (alignment - 1)) / alignment * alignment, ?_, ?_, ?_, rfl⟩⟩
  · rw [hpage, halignment]
    exact (alignUp?_eq_some_iff hpower (Nat.lt_trans hlt (by decide))).2 ⟨by omega, rfl⟩
  · rw [hpage, halignment]
    omega
  · exact Nat.le_trans hhead hup

theorem mappable_of_eq_ok {config : LoaderConfig} {layout : Layout}
    (h : Layout.of raw.size header config = .ok layout) : Mappable raw header := by
  obtain ⟨hpower, hsections, -⟩ := of_eq_ok_iff.1 h
  exact ⟨hpower, hsections⟩

end Layout

/-! ## The bytes of pages -/

namespace Pages

variable {p p' : Pages} {base : Address} {bytes : Bytes}

/-- The byte at an address. -/
def byteAt? (p : Pages) (address : Nat) : Option UInt8 :=
  if p.start.toNat ≤ address then p.bytes[address - p.start.toNat]? else none

theorem write_eq_ok_iff :
    p.write base bytes = .ok p' ↔
      p.Holds base bytes.size ∧ p' = { p with bytes := p.bytes.overwrite (p.offset base) bytes } := by
  rw [write, need_bind_eq_ok_iff]
  exact and_congr_right fun _ => ⟨fun h => (Except.ok.inj h).symm, fun h => h ▸ rfl⟩

theorem byteAt?_write (h : p.write base bytes = .ok p') (address : Nat) :
    p'.byteAt? address =
      if base.toNat ≤ address ∧ address < base.toNat + bytes.size then bytes[address - base.toNat]?
      else p.byteAt? address := by
  obtain ⟨⟨hstart, hstop⟩, rfl⟩ := write_eq_ok_iff.1 h
  rw [byteAt?, byteAt?, offset]
  dsimp only
  rw [Bytes.getElem?_overwrite]
  by_cases hin : base.toNat ≤ address ∧ address < base.toNat + bytes.size
  · rw [if_pos hin, if_pos (by omega), if_pos (by omega)]
    congr 1
    omega
  · rw [if_neg hin]
    by_cases hlow : p.start.toNat ≤ address
    · rw [if_pos hlow, if_neg (by omega), if_pos hlow]
    · rw [if_neg hlow, if_neg hlow]

end Pages

/-! ## Mapping -/

namespace MappedImage

/-- The image of a file lies in pages that were `p` before it was mapped and are `p'` now. -/
structure LiesIn (image : MappedImage) (raw : Bytes) (header : Header) (p p' : Pages) : Prop where
  base_dvd : max header.sectionAlignment.toNat pageSize ∣ image.base.toNat
  /-- The least multiple of the alignment that holds the image. -/
  size_dvd : max header.sectionAlignment.toNat pageSize ∣ image.size
  size_le : header.imageSize.toNat ≤ image.size
  size_lt : image.size < header.imageSize.toNat + max header.sectionAlignment.toNat pageSize
  entry_eq : image.entry.toNat = image.base.toNat + header.entryRva.toNat
  entry_lt : image.entry.toNat < image.base.toNat + header.imageSize.toNat
  inside : p.Holds image.base image.size
  bytes : ∀ i < image.size, p'.byteAt? (image.base.toNat + i) = Layout.byteAt? raw header i
  frame : ∀ address, address < image.base.toNat ∨ image.base.toNat + image.size ≤ address →
    p'.byteAt? address = p.byteAt? address

variable {raw : Bytes} {header : Header} {config : LoaderConfig} {layout : Layout} {p p' : Pages}

theorem liesIn_of_write (hs : Layout.Sound raw.size header layout) (hg : Strict.Given p.start layout.pages)
    (hsize : p.bytes.size = layout.pages * pageSize) (hentry : header.entryRva < header.imageSize)
    (hwrite : p.write (ofAllocation p.start layout header).base (Layout.contents raw header layout.size) = .ok p') :
    (ofAllocation p.start layout header).LiesIn raw header p p' := by
  have hentry := UInt32.lt_iff_toNat_lt.1 hentry
  have hbase := toNat_base hs (hg.alignment_le hs (by omega))
  have himage := hs.imageSize_le
  have hstop := hg.stop_le
  have hwritten := Pages.byteAt?_write hwrite
  obtain ⟨hinside, -⟩ := Pages.write_eq_ok_iff.1 hwrite
  rw [Layout.size_contents] at hinside hwritten
  have hend := hinside.2
  have hentryEq : (ofAllocation p.start layout header).entry.toNat =
      (ofAllocation p.start layout header).base.toNat + header.entryRva.toNat := toNat_entry_of_lt (by omega)
  constructor
  · rw [← hs.alignment_eq, hbase]
    exact Nat.dvd_mul_left _ _
  · rw [← hs.alignment_eq]
    exact hs.alignment_dvd_size
  · exact himage
  · rw [← hs.alignment_eq]
    exact hs.size_lt
  · exact hentryEq
  · omega
  · exact hinside
  · intro i hi
    rw [hwritten, if_pos ⟨Nat.le_add_right _ _, Nat.add_lt_add_left hi _⟩, Nat.add_sub_cancel_left]
    exact Layout.getElem?_contents hs hi
  · intro address hout
    rw [hwritten]
    exact if_neg fun hin => hout.elim (Nat.not_lt.2 hin.1) (Nat.not_le.2 hin.2)

/-- Mapping the file with this header. A file that cannot be mapped is refused by any firmware before it is asked for
    pages; any other one has a layout, and in whatever pages it is given for that it lies byte for byte. -/
theorem map_contents {parsing : LoaderConfig} (hparse : Header.parse raw parsing = .ok header)
    (hpage : config.pageSize = pageSize) :
    (¬ Layout.Mappable raw header → ∃ e, ∀ {m : Type → Type} [Monad m] (fw : Firmware m),
      map fw raw header config = do
        fw.logAll (Layout.notes header e)
        return .error e) ∧
    (Layout.Mappable raw header → ∃ layout, Layout.of raw.size header config = .ok layout ∧
      ∀ (source : PageSource) (s : Option Pages),
        (∀ e, source.allocate layout.pages = .error e →
          map source.firmware raw header config s = .ok (.error .outOfMemory, s)) ∧
        ∀ p, source.allocate layout.pages = .ok p → ∃ image p',
          map source.firmware raw header config s = .ok (.ok image, some p') ∧ image.LiesIn raw header p p') := by
  obtain ⟨hentry, -⟩ := Header.parse_bounds hparse
  constructor
  · intro hno
    cases hl : Layout.of raw.size header config with
    | error e => exact ⟨e, fun fw => by rw [map, hl]⟩
    | ok layout => exact absurd (Layout.mappable_of_eq_ok hl) hno
  · intro hmappable
    obtain ⟨layout, hl⟩ := Layout.exists_of_mappable hparse hpage hmappable
    have hs := Layout.sound_of_eq_ok hpage hl
    refine ⟨layout, hl, fun source s => ⟨fun e he => PageSource.map_outOfMemory hl he, fun p hp => ?_⟩⟩
    have hholds := Strict.holds_ofAllocation hs hp (Nat.zero_lt_of_lt (UInt32.lt_iff_toNat_lt.1 hentry))
    rw [← Layout.size_contents raw header layout.size] at hholds
    obtain ⟨p', hwrite, -⟩ := Pages.write_of_holds hholds
    exact ⟨_, p', PageSource.map_given hl hp hwrite,
      liesIn_of_write hs (source.given _ _ hp) (source.size _ _ hp) hentry hwrite⟩

end MappedImage

/-! ## A file whose sections lie over each other -/

namespace Sample

/-- Fields at ascending places as the bytes of a file, with zeros between them. -/
def laidOut (pos : Nat) : List (Nat × Bytes) → List UInt8
  | [] => []
  | (start, bytes) :: rest => List.replicate (start - pos) 0 ++ bytes.toList ++ laidOut (start + bytes.size) rest

/-- The first section is longer in the file than in memory; the second, shorter in the file, lies over its end. -/
def overlapping : Bytes :=
  ⟨laidOut 0 ([(0, Bytes.ofU16 dosMagic), (0x3c, Bytes.ofU32 0x40), (0x40, Bytes.ofU32 peSignature),
    (0x44, Bytes.ofU16 Machine.native.code), (0x46, Bytes.ofU16 2), (0x54, Bytes.ofU16 0xf0),
    (0x58, Bytes.ofU16 OptionalForm.pe32Plus.magic), (0x68, Bytes.ofU32 0x1000), (0x78, Bytes.ofU32 0x1000),
    (0x90, Bytes.ofU32 0x2000), (0x94, Bytes.ofU32 0x200), (0x9c, Bytes.ofU16 OptionalHeader.efiApplication),
    (0xc4, Bytes.ofU32 16)] ++
    sectionFields 0x148 0x200 ⟨"", 0x1000, 4, #[1, 2, 3, 4, 5]⟩ ++ sectionFields 0x170 0x205 ⟨"", 0x1002, 8, #[9]⟩ ++
    [(0x200, #[1, 2, 3, 4, 5, 9])])⟩

/-- Some places in the headers and in the two sections, with what stands there. -/
def overlappingBytes : List (Nat × UInt8) :=
  [(0, 0x4d), (0x206, 0), (0x1000, 1), (0x1001, 2), (0x1002, 9), (0x1003, 0), (0x1004, 0)]

theorem overlapping_parsed :
    ∃ header, Header.parse overlapping {} = .ok header ∧ header.imageSize = 0x2000 ∧
      Layout.of overlapping.size header {} = .ok ⟨4096, 0x2000, 2⟩ ∧
      Layout.of overlapping.size header { pageSize := 8192 } = .ok ⟨8192, 0x2000, 2⟩ ∧
      ∀ entry ∈ overlappingBytes, Layout.byteAt? overlapping header entry.1 = some entry.2 := by
  have hfile : (Header.parse overlapping {}).toOption.any (fun header => header.imageSize = 0x2000 ∧
      (Layout.of overlapping.size header {}).toOption = some ⟨4096, 0x2000, 2⟩ ∧
      (Layout.of overlapping.size header { pageSize := 8192 }).toOption = some ⟨8192, 0x2000, 2⟩ ∧
      ∀ entry ∈ overlappingBytes, Layout.byteAt? overlapping header entry.1 = some entry.2) = true := by
    decide +kernel
  have hlayout {config : LoaderConfig} {header : Header} {layout : Layout}
      (h : (Layout.of overlapping.size header config).toOption = some layout) :
      Layout.of overlapping.size header config = .ok layout := by
    cases hl : Layout.of overlapping.size header config with
    | error e =>
      rw [hl] at h
      cases h
    | ok layout' =>
      rw [hl] at h
      rw [Option.some.inj h]
  cases hp : Header.parse overlapping {} with
  | error e =>
    rw [hp] at hfile
    cases hfile
  | ok header =>
    rw [hp] at hfile
    obtain ⟨himage, hplain, hlarge, hbytes⟩ := of_decide_eq_true hfile
    exact ⟨header, rfl, himage, hlayout hplain, hlayout hlarge, hbytes⟩

end Sample

/-- Mapped near the end of the address space, the file stands there as it says, the zeros of its second section over
    the data of its first. -/
theorem MappedImage.overlapping_mapped :
    ∃ header image p', Header.parse Sample.overlapping {} = .ok header ∧
      map PageSource.top.firmware Sample.overlapping header {} none = .ok (.ok image, some p') ∧
      ∀ entry ∈ Sample.overlappingBytes, p'.byteAt? (image.base.toNat + entry.1) = some entry.2 := by
  obtain ⟨header, hparse, himage, hl, -, hbytes⟩ := Sample.overlapping_parsed
  have hmappable := Layout.mappable_of_eq_ok hl
  have hpage : ({} : LoaderConfig).pageSize = pageSize := rfl
  obtain ⟨layout, hl', hmap⟩ := (map_contents hparse hpage).2 hmappable
  rw [hl] at hl'
  cases hl'
  obtain ⟨image, p', hrun, hlies⟩ := (hmap PageSource.top none).2 _ (PageSource.top_allocate (by decide))
  refine ⟨header, image, p', hparse, hrun, fun entry hentry => ?_⟩
  have hsize := hlies.size_le
  rw [himage] at hsize
  have hlt : entry.1 < image.size := by
    have hin : ∀ entry ∈ Sample.overlappingBytes, entry.1 < 0x2000 := by decide
    exact Nat.lt_of_lt_of_le (hin entry hentry) hsize
  rw [hlies.bytes entry.1 hlt]
  exact hbytes entry hentry

end NetBoot.Image
