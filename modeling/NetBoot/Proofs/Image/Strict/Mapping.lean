/-
  NetBoot.Proofs.Image.Strict.Mapping — laying out, placing and copying within bounds.

  The layout of an image is computed from its header in words, the image is placed in the pages that
  were given, and its headers and sections are copied slice by slice. The checks of the layout come
  before any copy and are all that the copies rely on (`Layout.Sound`): with them no copy leaves the
  file or the image (`contents_eq`), and the image and its entry point have addresses (`place_eq`).
-/

import NetBoot.Proofs.Image.Layout
import NetBoot.Proofs.Image.Strict.Basic

namespace NetBoot.Image

namespace Strict

/-! ## The layout -/

/-- The bounds of a section. -/
def checkSection (header : Header) (rawSize : Nat) (s : ImageSection) : Attempt Unit := do
  .of (need (Layout.overlapsHeaders header s = false) .sectionInsideHeader)
  fits (s.rawOffset.toNat + s.rawSize.toNat)
  .of (need (s.rawOffset.toNat + s.rawSize.toNat ≤ rawSize) .truncatedImage)
  fits (s.virtualAddress.toNat + s.virtualSize.toNat)
  .of (need (s.virtualAddress.toNat + s.virtualSize.toNat ≤ header.imageSize.toNat) .sectionOutsideImage)

def checkSections (header : Header) (rawSize : Nat) : List ImageSection → Attempt Unit
  | [] => return ()
  | s :: r => do
    checkSection header rawSize s
    checkSections header rawSize r

/-- Pages that hold `n` bytes. -/
def pages (n : Nat) : Strict Nat := do
  fits (n + pageSize)
  above (n + pageSize) 1
  return (n + pageSize - 1) / pageSize

/-- The layout of a file of `rawSize` bytes with this header. -/
def layout (rawSize : Nat) (header : Header) (config : LoaderConfig) : Attempt Layout := do
  .of (need (Layout.isPowerOfTwo header.sectionAlignment.toNat = true) .invalidAlignment)
  checkSections header rawSize header.sections
  .of (need (header.headerSize.toNat ≤ rawSize) .truncatedImage)
  let alignment := max header.sectionAlignment.toNat config.pageSize
  above alignment config.pageSize
  let spare := alignment - config.pageSize
  above alignment 1
  let size ← .of (demand (Layout.alignUp? header.imageSize.toNat alignment) .sectionOutsideImage)
  .of (need (size + spare < UInt64.size) .sectionOutsideImage)
  let pages ← pages (size + spare)
  .of (need (header.headerSize.toNat ≤ size) .sectionOutsideImage)
  return ⟨alignment, size, pages⟩

theorem checkSection_eq (header : Header) (rawSize : Nat) (s : ImageSection) :
    checkSection header rawSize s = .of (Layout.checkSection header rawSize s) := by
  have hword : UInt64.size = 2 ^ 64 := rfl
  have h1 := s.rawOffset.toNat_lt
  have h2 := s.rawSize.toNat_lt
  have h3 := s.virtualAddress.toNat_lt
  have h4 := s.virtualSize.toNat_lt
  unfold checkSection Layout.checkSection
  refine Attempt.of_need_bind fun _ => ?_
  rw [Attempt.lift_bind (fits_of_lt (by omega))]
  refine Attempt.of_need_bind fun _ => ?_
  rw [Attempt.lift_bind (fits_of_lt (by omega))]

theorem checkSections_eq (header : Header) (rawSize : Nat) (sections : List ImageSection) :
    checkSections header rawSize sections = .of (Layout.checkSections header rawSize sections) := by
  induction sections with
  | nil => rfl
  | cons s r ih =>
    rw [checkSections, Layout.checkSections, checkSection_eq]
    exact Attempt.of_bind fun _ _ => ih

theorem pages_eq {n : Nat} (h : n + pageSize < UInt64.size) : pages n = .ok (pagesFor n) := by
  rw [pages, fits_of_lt h, above_of_le (Nat.le_trans (by decide) (Nat.le_add_left pageSize n)), pagesFor,
    Nat.add_sub_assoc (by decide)]
  rfl

/-- Rounded up, a number is less than a word and an alignment above what it was. -/
theorem alignUp?_le {n alignment m : Nat} (h : Layout.alignUp? n alignment = some m) : m ≤ n + (alignment - 1) := by
  unfold Layout.alignUp? at h
  dsimp only at h
  split at h
  · cases h
    rw [UInt64.toNat_and, UInt64.toNat_ofNat_of_lt' ‹_›]
    exact Nat.and_le_left
  · cases h

/-- The layout is computed within words, whatever the header is. -/
theorem layout_eq (rawSize : Nat) (header : Header) {config : LoaderConfig} (hp : config.pageSize = pageSize) :
    layout rawSize header config = .of (Layout.of rawSize header config) := by
  have hword : UInt64.size = 2 ^ 64 := rfl
  have hpage : pageSize = 4096 := rfl
  have himage := header.imageSize.toNat_lt
  have halign := header.sectionAlignment.toNat_lt
  unfold layout Layout.of
  dsimp only
  rw [hp, checkSections_eq]
  refine Attempt.of_need_bind fun _ => ?_
  refine Attempt.of_bind fun _ _ => ?_
  refine Attempt.of_need_bind fun _ => ?_
  have hmax : max header.sectionAlignment.toNat pageSize < 2 ^ 32 := Nat.max_lt.mpr ⟨halign, by decide⟩
  have hle : pageSize ≤ max header.sectionAlignment.toNat pageSize := Nat.le_max_right _ _
  rw [Attempt.lift_bind (above_of_le hle), Attempt.lift_bind (above_of_le (by omega))]
  refine Attempt.of_demand_bind fun size hsize => ?_
  have hsize := alignUp?_le hsize
  refine Attempt.of_need_bind fun _ => ?_
  rw [Attempt.lift_bind (pages_eq (by omega))]
  exact Attempt.of_need_bind fun _ => rfl

/-! ## The place -/

/-- The image that a layout gives in freshly allocated pages. -/
def place (allocation : Address) (layout : Layout) (header : Header) : Strict MappedImage := do
  fits (allocation.toNat + layout.alignment)
  above (allocation.toNat + layout.alignment) 1
  above layout.alignment 1
  let base := Address.alignUp allocation (UInt64.ofNat layout.alignment)
  fits (base.toNat + header.entryRva.toNat)
  return {
    allocation
    pages := layout.pages
    base
    size := layout.size
    imageSize := header.imageSize
    entry := base + header.entryRva.toUInt64 }

/-- Pages that may be given for `count` of them: they start where a page does and end within the address
    space. -/
structure Given (start : Address) (count : Nat) : Prop where
  aligned : start.toNat % pageSize = 0
  stop_le : start.toNat + count * pageSize ≤ UInt64.size

section Place

variable {rawSize : Nat} {header : Header} {layout : Layout} {allocation : Address}

/-- The spare pages are room for the next multiple of the alignment, or for the very end of the address space. -/
theorem Given.alignment_le (hg : Given allocation layout.pages) (h : Layout.Sound rawSize header layout)
    (hpos : 0 < header.imageSize.toNat) : allocation.toNat + layout.alignment ≤ UInt64.size := by
  have hsize := h.alignment_le_size hpos
  have hroom := h.room
  have hstop := hg.stop_le
  have hleast := h.pageSize_le
  rw [pageSize] at *
  omega

/-- No address is left to round up from behind one page that is the last of all, and only there. -/
theorem Given.last_of_alignment_eq (hg : Given allocation layout.pages) (h : Layout.Sound rawSize header layout)
    (hpos : 0 < header.imageSize.toNat) (hend : allocation.toNat + layout.alignment = UInt64.size) :
    layout.pages = 1 ∧ allocation.toNat + pageSize = UInt64.size := by
  have hsize := h.alignment_le_size hpos
  have hroom := h.room
  have hstop := hg.stop_le
  have hleast := h.pageSize_le
  rw [pageSize] at *
  omega

/-- The image and its entry point have addresses in any pages that may be given, if rounding up their start has. -/
theorem place_eq (h : Layout.Sound rawSize header layout) (hg : Given allocation layout.pages)
    (hentry : header.entryRva < header.imageSize) (halign : allocation.toNat + layout.alignment < UInt64.size) :
    place allocation layout header = .ok (MappedImage.ofAllocation allocation layout header) := by
  have hentry := UInt32.lt_iff_toNat_lt.mp hentry
  have hroom : (Address.alignUp allocation (UInt64.ofNat layout.alignment)).toNat + layout.size ≤
      allocation.toNat + layout.pages * pageSize := MappedImage.base_room h (Nat.le_of_lt halign) hg.aligned
  have hstop := hg.stop_le
  have hsize := h.imageSize_le
  have hone : 1 ≤ layout.alignment := Nat.le_trans (by decide) h.pageSize_le
  have haddress : (Address.alignUp allocation (UInt64.ofNat layout.alignment)).toNat + header.entryRva.toNat <
      UInt64.size := by omega
  rw [place, fits_of_lt halign, ok_bind, above_of_le (Nat.le_trans hone (Nat.le_add_left _ _)), ok_bind,
    above_of_le hone, ok_bind]
  dsimp only
  rw [fits_of_lt haddress]
  rfl

theorem place_overflow (hend : allocation.toNat + layout.alignment = UInt64.size) :
    place allocation layout header = .error .overflow := by
  have hfits : fits (allocation.toNat + layout.alignment) = .error .overflow := if_neg (by omega)
  rw [place, hfits]
  rfl

end Place

/-! ## The contents -/

/-- Copies a section into the memory of the image, and fills what the file does not hold with zeros. -/
def copySection (raw memory : Bytes) (s : ImageSection) : Strict Bytes := do
  let start := s.virtualAddress.toNat
  let source := s.rawOffset.toNat
  let held := min s.virtualSize.toNat s.rawSize.toNat
  fits (start + s.virtualSize.toNat)
  let target ← slice memory start (start + s.virtualSize.toNat)
  fits (source + held)
  let data ← slice raw source (source + held)
  let target ← store target 0 held data
  let target ← store target held target.size (Bytes.zeros (target.size - held))
  store memory start (start + s.virtualSize.toNat) target

def copySections (raw memory : Bytes) : List ImageSection → Strict Bytes
  | [] => return memory
  | s :: r => do copySections raw (← copySection raw memory s) r

/-- The `size` bytes of memory of an image. -/
def contents (raw : Bytes) (header : Header) (size : Nat) : Strict Bytes := do
  let headers ← slice raw 0 header.headerSize.toNat
  let memory ← store (Bytes.zeros size) 0 header.headerSize.toNat headers
  copySections raw memory header.sections

/-- What is copied over the front of a string and filled up behind is what is cut or padded to its size. -/
theorem overwrite_zeros {target data : Bytes} (h : data.size ≤ target.size) :
    (target.overwrite 0 data).overwrite data.size (Bytes.zeros (target.size - data.size)) =
      data.resize target.size := by
  apply Array.ext_getElem?
  intro i
  rw [Bytes.getElem?_overwrite, Bytes.getElem?_overwrite, Bytes.getElem?_resize, Bytes.getElem?_zeros,
    Bytes.size_overwrite, Bytes.size_zeros, Nat.zero_add, Nat.sub_zero]
  by_cases hi : i < target.size
  · rw [if_pos hi]
    by_cases hd : i < data.size
    · rw [if_neg (by omega), if_pos (by omega), Array.getElem?_eq_getElem hd]
      rfl
    · rw [if_pos (by omega), if_pos (by omega), Array.getElem?_eq_none (by omega)]
      rfl
  · rw [if_neg (by omega), if_neg (by omega), if_neg hi, Array.getElem?_eq_none (by omega)]

/-- The bounds of a section are all that copying it needs. -/
theorem copySection_eq {raw memory : Bytes} {header : Header} {s : ImageSection}
    (h : Layout.SectionFits raw.size header s) (hm : header.imageSize.toNat ≤ memory.size) :
    copySection raw memory s =
      .ok (memory.overwrite s.virtualAddress.toNat (Layout.sectionBytes raw s)) := by
  have hword : UInt64.size = 2 ^ 64 := rfl
  have hfile := h.file
  have hmemory := h.memory
  have h1 := s.rawOffset.toNat_lt
  have h2 := s.rawSize.toNat_lt
  have h3 := s.virtualAddress.toNat_lt
  have h4 := s.virtualSize.toNat_lt
  have hheld : min s.virtualSize.toNat s.rawSize.toNat ≤ s.virtualSize.toNat := Nat.min_le_left _ _
  have hraw : min s.virtualSize.toNat s.rawSize.toNat ≤ s.rawSize.toNat := Nat.min_le_right _ _
  unfold copySection Layout.sectionBytes
  dsimp only
  rw [fits_of_lt (by omega), slice_of_le (Nat.le_add_right _ _) (by omega), fits_of_lt (by omega),
    slice_of_le (Nat.le_add_right _ _) (by omega)]
  have htarget : (memory.extract s.virtualAddress.toNat (s.virtualAddress.toNat + s.virtualSize.toNat)).size =
      s.virtualSize.toNat := by
    rw [Array.size_extract]
    omega
  have hdata : (raw.extract s.rawOffset.toNat (s.rawOffset.toNat + min s.virtualSize.toNat s.rawSize.toNat)).size =
      min s.virtualSize.toNat s.rawSize.toNat := by
    rw [Array.size_extract]
    omega
  generalize memory.extract _ _ = target at htarget ⊢
  generalize raw.extract _ _ = data at hdata ⊢
  show (store target 0 _ data >>= fun _ => _) = _
  rw [← hdata, store_of_le (Nat.zero_le _) (by omega) (Nat.sub_zero _).symm]
  show (store (Bytes.overwrite target 0 data) _ _ _ >>= fun _ => _) = _
  rw [Bytes.size_overwrite, store_of_le (by omega) (Nat.le_of_eq (Bytes.size_overwrite _ _ _).symm) (Bytes.size_zeros _),
    overwrite_zeros (by omega), htarget]
  show store memory _ _ _ = _
  rw [store_of_le (Nat.le_add_right _ _) (by omega) (by rw [Bytes.size_resize, Nat.add_sub_cancel_left])]

/-- What a copy has done to the memory leaves its size. -/
theorem copySections_eq {raw memory : Bytes} {header : Header} {sections : List ImageSection}
    (h : ∀ s ∈ sections, Layout.SectionFits raw.size header s) (hm : header.imageSize.toNat ≤ memory.size) :
    copySections raw memory sections =
      .ok (sections.foldl (fun memory s => memory.overwrite s.virtualAddress.toNat (Layout.sectionBytes raw s)) memory) := by
  induction sections generalizing memory with
  | nil => rfl
  | cons s r ih =>
    rw [List.forall_mem_cons] at h
    rw [copySections, copySection_eq h.1 hm, List.foldl_cons]
    exact ih h.2 (by rw [Bytes.size_overwrite]; exact hm)

/-- Copying keeps within the file and the image, once the layout is sound. -/
theorem contents_eq {raw : Bytes} {header : Header} {layout : Layout} (h : Layout.Sound raw.size header layout) :
    contents raw header layout.size = .ok (Layout.contents raw header layout.size) := by
  have hfile := h.headers_file
  have hsize := h.headers_size
  have himage := h.imageSize_le
  rw [contents, slice_of_le (Nat.zero_le _) hfile]
  show (store _ _ _ _ >>= fun _ => _) = _
  rw [store_of_le (Nat.zero_le _) (by rw [Bytes.size_zeros]; exact hsize) (by rw [Array.size_extract]; omega)]
  exact copySections_eq h.sections (by rw [Bytes.size_overwrite, Bytes.size_zeros]; exact himage)

end Strict

end NetBoot.Image
