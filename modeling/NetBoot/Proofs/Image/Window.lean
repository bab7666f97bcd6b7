/-
  NetBoot.Proofs.Image.Window — the window of an image in its pages.

  An image is aligned within the pages that it is given, so it needs room before it. The layout asks
  for as much as is left when pages start at multiples of the configured page size. The firmware's
  pages start at multiples of its own, 4096: a configured page that is no larger changes nothing, but
  with a larger one the image may begin less than a configured page above where its pages start, and
  then it runs over their end (`holds_iff`, `overlapping_overruns`).

  Where there is room, mapping and relocating keep to the pages, for every page size and every
  alignment (`map_keeps_to_pages`).
-/

import NetBoot.Proofs.Image.Contents
import NetBoot.Proofs.Image.Stages

namespace NetBoot.Image

/-- Room for the image in pages that start here: they start at a multiple of its alignment, or a configured page or
    more above one. -/
def LoaderConfig.HasRoomAt (config : LoaderConfig) (header : Header) (start : Address) : Prop :=
  start.toNat % max header.sectionAlignment.toNat config.pageSize = 0 ∨
    config.pageSize ≤ start.toNat % max header.sectionAlignment.toNat config.pageSize

instance (config : LoaderConfig) (header : Header) (start : Address) : Decidable (config.HasRoomAt header start) :=
  inferInstanceAs (Decidable (_ ∨ _))

/-- Whether the window ends within the pages, for a window of `size` bytes in pages that start at `start`. The room
    asked for before it is the alignment less a page. -/
theorem window_iff {start size alignment page : Nat} (halignment : alignment.isPowerOfTwo) (hpage : page.isPowerOfTwo)
    (hle : page ≤ alignment) (hstart : pageSize ∣ start) (hsize : alignment ∣ size) :
    (start + (alignment - 1)) / alignment * alignment + size ≤
        start + pagesFor (size + (alignment - page)) * pageSize ↔
      start % alignment = 0 ∨ page ≤ start % alignment := by
  have hpos := Nat.pos_of_isPowerOfTwo halignment
  have hlt := Nat.mod_lt start hpos
  obtain ⟨henough, hexact⟩ := pagesFor_mul (size + (alignment - page))
  rw [roundUp_eq hpos]
  split
  · next h => exact iff_of_true (by omega) (Or.inl h)
  · next h =>
    constructor
    · intro hin
      by_contra hroom
      -- The start is a multiple of 4096 but not of the alignment: the page is larger, and nothing is left over.
      have hpages : pageSize ∣ alignment := by
        by_contra hno
        have hless : alignment ≤ pageSize := by
          by_contra hmore
          exact hno (dvd_of_isPowerOfTwo isPowerOfTwo_pageSize halignment (by omega))
        exact h (Nat.mod_eq_zero_of_dvd
          (Nat.dvd_trans (dvd_of_isPowerOfTwo halignment isPowerOfTwo_pageSize hless) hstart))
      have hrest : pageSize ∣ start % alignment := (Nat.dvd_mod_iff hpages).2 hstart
      have hleast : pageSize ≤ start % alignment := Nat.le_of_dvd (by omega) hrest
      have hlarge : pageSize ∣ page := dvd_of_isPowerOfTwo isPowerOfTwo_pageSize hpage (by omega)
      have hall := hexact (Nat.dvd_add (Nat.dvd_trans hpages hsize) (Nat.dvd_sub hpages hlarge))
      omega
    · rintro (hzero | hroom)
      · exact absurd hzero h
      · omega

/-! ## The layout for any page size -/

namespace Layout

variable {rawSize : Nat} {header : Header} {config : LoaderConfig} {layout : Layout}

/-- The numbers of a layout, whatever the configured page size. -/
structure Rounded (header : Header) (config : LoaderConfig) (layout : Layout) : Prop where
  power : layout.alignment.isPowerOfTwo
  word : layout.alignment < UInt64.size
  alignment_eq : layout.alignment = max header.sectionAlignment.toNat config.pageSize
  size_eq : layout.size = (header.imageSize.toNat + (layout.alignment - 1)) / layout.alignment * layout.alignment
  pages_eq : layout.pages = pagesFor (layout.size + (layout.alignment - config.pageSize))

theorem rounded_of_eq_ok (hpower : config.pageSize.isPowerOfTwo) (hword : config.pageSize < UInt64.size)
    (h : Layout.of rawSize header config = .ok layout) : Rounded header config layout := by
  obtain ⟨hpow, -, -, size, hsize, -, -, rfl⟩ := of_eq_ok_iff.1 h
  have hmax := isPowerOfTwo_max hpow hpower
  have hlt : max header.sectionAlignment.toNat config.pageSize < UInt64.size :=
    Nat.max_lt.2 ⟨Nat.lt_trans header.sectionAlignment.toNat_lt (by decide), hword⟩
  exact ⟨hmax, hlt, rfl, ((alignUp?_eq_some_iff hmax hlt).1 hsize).2, rfl⟩

namespace Rounded

variable (h : Rounded header config layout)

include h

theorem page_le : config.pageSize ≤ layout.alignment := by
  rw [h.alignment_eq]
  exact Nat.le_max_right _ _

theorem alignment_dvd_size : layout.alignment ∣ layout.size := by
  rw [h.size_eq]
  exact Nat.dvd_mul_left _ _

theorem imageSize_le : header.imageSize.toNat ≤ layout.size := by
  rw [h.size_eq]
  exact le_roundUp (Nat.pos_of_isPowerOfTwo h.power) _

/-- An image in pages with room for it is aligned without leaving the address space. -/
theorem alignment_le {start : Address} (hpower : config.pageSize.isPowerOfTwo) (hroom : config.HasRoomAt header start)
    (hstop : start.toNat + layout.pages * pageSize ≤ UInt64.size)
    (hspace : 0 < header.imageSize.toNat ∨ start.toNat + layout.pages * pageSize < UInt64.size) :
    start.toNat + layout.alignment ≤ UInt64.size := by
  have hpos := Nat.pos_of_isPowerOfTwo h.power
  have hpage := Nat.pos_of_isPowerOfTwo hpower
  have himage := h.imageSize_le
  have hpages := (pagesFor_mul (layout.size + (layout.alignment - config.pageSize))).1
  rw [← h.pages_eq] at hpages
  have hlt := Nat.mod_lt start.toNat hpos
  have hword : layout.alignment ∣ UInt64.size :=
    dvd_of_isPowerOfTwo h.power ⟨64, rfl⟩ (Nat.le_of_lt h.word)
  -- The address space ends at a multiple of the alignment, so behind one within it there is room for another.
  have hnext : ∀ n, layout.alignment ∣ n → n < UInt64.size → n + layout.alignment ≤ UInt64.size := by
    intro n hn hin
    have hleast := Nat.le_of_dvd (Nat.sub_pos_of_lt hin) (Nat.dvd_sub hword hn)
    omega
  rw [LoaderConfig.HasRoomAt, ← h.alignment_eq] at hroom
  rcases hroom with hzero | hroom
  · exact hnext _ (Nat.dvd_of_mod_eq_zero hzero) start.toNat_lt
  · have hbelow := Nat.mod_le start.toNat layout.alignment
    have hmultiple : layout.alignment ∣ start.toNat - start.toNat % layout.alignment := Nat.dvd_sub_mod _
    have habove := hnext _ (Nat.dvd_add hmultiple (Nat.dvd_refl _)) (by omega)
    omega

/-- Pages that start where a configured page may have room for every image. -/
theorem hasRoomAt (hpower : config.pageSize.isPowerOfTwo) {start : Address} (hstart : config.pageSize ∣ start.toNat) :
    config.HasRoomAt header start := by
  have hdvd : config.pageSize ∣ start.toNat % layout.alignment :=
    (Nat.dvd_mod_iff (dvd_of_isPowerOfTwo hpower h.power h.page_le)).2 hstart
  rw [LoaderConfig.HasRoomAt, ← h.alignment_eq]
  rcases Nat.eq_zero_or_pos (start.toNat % layout.alignment) with hzero | hpos
  · exact Or.inl hzero
  · exact Or.inr (Nat.le_of_dvd hpos hdvd)

end Rounded

end Layout

/-! ## The window -/

namespace MappedImage

variable {raw : Bytes} {rawSize : Nat} {header : Header} {config : LoaderConfig} {layout : Layout} {p : Pages}

/-- The image lies aligned within the pages that it owns. -/
structure Window (image : MappedImage) (header : Header) (config : LoaderConfig) (p : Pages) : Prop where
  base_dvd : max header.sectionAlignment.toNat config.pageSize ∣ image.base.toNat
  allocation_eq : image.allocation = p.start
  pages_eq : image.pages * pageSize = p.bytes.size
  inside : p.Holds image.base image.size

/-- Pages hold the image that is mapped into them exactly when they have room for it. -/
theorem holds_iff (h : Layout.Rounded header config layout) (hpower : config.pageSize.isPowerOfTwo)
    (hstart : p.start.toNat % pageSize = 0) (hsize : p.bytes.size = layout.pages * pageSize)
    (halign : p.start.toNat + layout.alignment ≤ UInt64.size) :
    p.Holds (ofAllocation p.start layout header).base layout.size ↔ config.HasRoomAt header p.start := by
  have hpos := Nat.pos_of_isPowerOfTwo h.power
  have hle := le_roundUp hpos p.start.toNat
  have hiff := window_iff h.power hpower h.page_le (Nat.dvd_of_mod_eq_zero hstart) h.alignment_dvd_size
  rw [Pages.Holds, toNat_base_of_power h.power h.word halign, hsize, h.pages_eq, LoaderConfig.HasRoomAt,
    ← h.alignment_eq, ← hiff]
  exact and_iff_right hle

theorem map_of_room {source : PageSource} (hpower : config.pageSize.isPowerOfTwo)
    (hword : config.pageSize < UInt64.size) (hl : Layout.of raw.size header config = .ok layout)
    (ha : source.allocate layout.pages = .ok p) (hroom : config.HasRoomAt header p.start)
    (hspace : 0 < header.imageSize.toNat ∨ p.start.toNat + p.bytes.size < UInt64.size) (s : Option Pages) :
    ∃ p', map source.firmware raw header config s = .ok (.ok (ofAllocation p.start layout header), some p') ∧
      (ofAllocation p.start layout header).Window header config p' := by
  have h := Layout.rounded_of_eq_ok hpower hword hl
  have hgiven := source.given _ _ ha
  have hsize := source.size _ _ ha
  rw [hsize] at hspace
  have halign := h.alignment_le hpower hroom hgiven.stop_le hspace
  have hholds := (holds_iff h hpower hgiven.aligned hsize halign).2 hroom
  have hwritten := hholds
  rw [← Layout.size_contents raw header layout.size] at hwritten
  obtain ⟨p', hwrite, hstart, hkept⟩ := Pages.write_of_holds hwritten
  refine ⟨p', PageSource.map_given hl ha hwrite, ?_, hstart.symm, (hkept.trans hsize).symm, ?_⟩
  · rw [← h.alignment_eq, toNat_base_of_power h.power h.word halign]
    exact Nat.dvd_mul_left _ _
  · rw [Pages.Holds, hstart, hkept]
    exact hholds

/-- Mapping and relocating keep to the pages that the image owns, for every header, every page size and every address
    that pages start at. Only where a configured page is larger than the firmware's is there something to ask for: room
    for the image. -/
theorem map_keeps_to_pages (source : PageSource) (raw : Bytes) (s : Option Pages)
    (hpower : config.pageSize.isPowerOfTwo) (hword : config.pageSize < UInt64.size)
    (hroom : pageSize < config.pageSize → ∀ count p, source.allocate count = .ok p → config.HasRoomAt header p.start)
    (hspace : 0 < header.imageSize.toNat ∨
      ∀ count p, source.allocate count = .ok p → p.start.toNat + p.bytes.size < UInt64.size) :
    ∃ r s', map source.firmware raw header config s = .ok (r, s') ∧
      (r.isOk = true ↔ ∃ layout p, Layout.of raw.size header config = .ok layout ∧
        source.allocate layout.pages = .ok p) ∧
      ∀ image, r = .ok image → ∃ p, s' = some p ∧ image.Window header config p ∧
        ∀ delta, ∃ r s', image.relocate source.firmware header delta (some p) = .ok (r, s') := by
  cases hl : Layout.of raw.size header config with
  | error e =>
    refine ⟨_, _, PageSource.map_refused hl, ⟨fun h => (nomatch h), ?_⟩, fun _ h => (nomatch h)⟩
    rintro ⟨_, _, h, -⟩
    cases h
  | ok layout =>
    cases ha : source.allocate layout.pages with
    | error e =>
      refine ⟨_, _, PageSource.map_outOfMemory hl ha, ⟨fun h => (nomatch h), ?_⟩, fun _ h => (nomatch h)⟩
      rintro ⟨_, p, h, hp⟩
      cases h
      rw [ha] at hp
      cases hp
    | ok p =>
      have hroomy : config.HasRoomAt header p.start := by
        by_cases hlarge : pageSize < config.pageSize
        · exact hroom hlarge _ _ ha
        · have hpage := dvd_of_isPowerOfTwo hpower isPowerOfTwo_pageSize (Nat.not_lt.1 hlarge)
          exact (Layout.rounded_of_eq_ok hpower hword hl).hasRoomAt hpower
            (Nat.dvd_trans hpage (Nat.dvd_of_mod_eq_zero (source.given _ _ ha).aligned))
      obtain ⟨p', hrun, hwindow⟩ :=
        map_of_room hpower hword hl ha hroomy (hspace.imp_right fun hstop => hstop _ _ ha) s
      refine ⟨_, _, hrun, ⟨fun _ => ⟨layout, p, rfl, ha⟩, fun _ => rfl⟩, fun image himage => ?_⟩
      cases himage
      refine ⟨p', rfl, hwindow, fun delta => ?_⟩
      obtain ⟨r, s', -, hrelocated⟩ := Strict.relocate_run source header delta hwindow.inside
      exact ⟨r, s', hrelocated⟩

/-- With pages of 8192 bytes configured, the sample keeps to pages that start at a multiple of 8192. -/
theorem overlapping_keeps_to_pages :
    ∃ header image p, Header.parse Sample.overlapping {} = .ok header ∧
      map PageSource.top.firmware Sample.overlapping header { pageSize := 8192 } none = .ok (.ok image, some p) ∧
      image.Window header { pageSize := 8192 } p := by
  obtain ⟨header, hparse, himage, -, hl, -⟩ := Sample.overlapping_parsed
  have hpower : ({ pageSize := 8192 } : LoaderConfig).pageSize.isPowerOfTwo := ⟨13, rfl⟩
  have hrounded := Layout.rounded_of_eq_ok hpower (by decide) hl
  have hstart : 8192 ∣ (0xffffffffff000000 : Address).toNat := by decide
  have hroom : ∀ count p, PageSource.top.allocate count = .ok p →
      LoaderConfig.HasRoomAt { pageSize := 8192 } header p.start := by
    intro count p hp
    by_cases hc : count < 4096
    · rw [PageSource.top_allocate hc] at hp
      cases hp
      exact hrounded.hasRoomAt hpower hstart
    · have hno : PageSource.top.allocate count = .error .outOfMemory := if_neg hc
      rw [hno] at hp
      cases hp
  have hsome : 0 < header.imageSize.toNat := by
    rw [himage]
    decide
  obtain ⟨r, s', hrun, hok, hkept⟩ :=
    map_keeps_to_pages PageSource.top Sample.overlapping none hpower (by decide) (fun _ => hroom) (Or.inl hsome)
  have hgiven := hok.2 ⟨_, _, hl, PageSource.top_allocate (by decide)⟩
  cases r with
  | error e => cases hgiven
  | ok image =>
    obtain ⟨p, rfl, hwindow, -⟩ := hkept image rfl
    exact ⟨header, image, p, hparse, hrun, hwindow⟩

open Sim in
/-- With pages of 8192 bytes configured, and pages that start between two multiples of 8192, the sample is mapped to a
    window that ends 4096 bytes behind its pages. -/
theorem overlapping_overruns :
    ∃ header image w', Header.parse Sample.overlapping {} = .ok header ∧
      map (machine 0).toFirmware Sample.overlapping header { pageSize := 8192 } { memory := .above 1 } =
        .ok (.ok image) w' ∧
      ¬ (image.allocation.toNat ≤ image.base.toNat ∧
        image.base.toNat + image.size ≤ image.allocation.toNat + image.pages * pageSize) := by
  obtain ⟨header, hparse, -, -, hl, -⟩ := Sample.overlapping_parsed
  obtain ⟨w', hrun, -⟩ := map_run Sample.overlapping header { pageSize := 8192 } { memory := .above 1 }
  have hpages : (takePages { memory := .above 1 } 2).isOk = true := by decide +kernel
  cases ht : takePages { memory := .above 1 } 2 with
  | error e =>
    rw [ht] at hpages
    cases hpages
  | ok r =>
    obtain ⟨allocation, memory⟩ := r
    obtain ⟨rfl, -⟩ := takePages_eq_ok ht
    have hm : (mapping { memory := .above 1 } Sample.overlapping header { pageSize := 8192 }).map (·.1) =
        .ok (ofAllocation (Memory.above 1).next ⟨8192, 0x2000, 2⟩ header) := by
      simp only [mapping, bind, Except.bind, hl, mapError_ok, ht]
      rfl
    rw [hm] at hrun
    refine ⟨header, _, w', hparse, hrun, fun hin => ?_⟩
    have hbase : (ofAllocation (Memory.above 1).next ⟨8192, 0x2000, 2⟩ header).base.toNat = 0x200002000 := by
      show (Address.alignUp (Memory.above 1).next 8192).toNat = _
      decide
    have hend := hin.2
    rw [hbase] at hend
    revert hend
    show ¬ 0x200002000 + 0x2000 ≤ (Memory.above 1).next.toNat + 2 * pageSize
    decide

end MappedImage

end NetBoot.Image
