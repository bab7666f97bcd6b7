/-
  NetBoot.Proofs.Image.Layout — what a layout says of its image, and where the image comes to lie.

  A layout is given only for a header whose alignment is a power of two and whose sections keep
  their bounds; `Layout.Sound` lists what follows. The image is as large as its size rounded up to
  the alignment, and pages are asked for with room to align it, so the aligned image lies within
  them (`le_base`).
-/

import NetBoot.Image.Mapped

namespace NetBoot.Image

/-! ## Headers -/

/-- The entry point of a parsed image, and its headers, lie in the image. -/
theorem Header.parse_bounds {raw : Bytes} {config : LoaderConfig} {header : Header}
    (h : Header.parse raw config = .ok header) :
    header.entryRva < header.imageSize ∧ header.headerSize ≤ header.imageSize ∧
      header.headerSize.toNat ≤ raw.size := by
  simp only [Header.parse, need_bind_eq_ok_iff, demand_bind_eq_ok_iff] at h
  obtain ⟨-, -, signature, -, -, -, coff, -, -, -, h⟩ := h
  obtain ⟨optional, -, h⟩ := check_bind_eq_ok_iff.mp h
  rw [need_bind_eq_ok_iff] at h
  obtain ⟨reloc, -, h⟩ := check_bind_eq_ok_iff.mp h.2
  simp only [need_bind_eq_ok_iff, demand_bind_eq_ok_iff] at h
  obtain ⟨hfile, hhead, hentry, sections, -, h⟩ := h
  cases h
  exact ⟨hentry, hhead, hfile⟩

/-! ## Powers of two -/

theorem isPowerOfTwo_iff {n : Nat} : Layout.isPowerOfTwo n = true ↔ n.isPowerOfTwo := by
  rw [Layout.isPowerOfTwo, Bool.and_eq_true, bne_iff_ne, beq_iff_eq]
  exact Nat.ne_zero_and_sub_one_eq_zero_iff_isPowerOfTwo

theorem isPowerOfTwo_max {n k : Nat} (hn : n.isPowerOfTwo) (hk : k.isPowerOfTwo) : (max n k).isPowerOfTwo := by
  rcases Nat.le_total n k with hle | hle
  · rwa [Nat.max_eq_right hle]
  · rwa [Nat.max_eq_left hle]

theorem isPowerOfTwo_pageSize : pageSize.isPowerOfTwo := ⟨12, rfl⟩

/-! ## Rounding up -/

theorem roundUp_eq {alignment : Nat} (hpos : 0 < alignment) (n : Nat) :
    (n + (alignment - 1)) / alignment * alignment =
      if n % alignment = 0 then n else n + (alignment - n % alignment) := by
  have hsplit := Nat.div_add_mod n alignment
  have hlt := Nat.mod_lt n hpos
  rw [Nat.mul_comm] at hsplit
  split
  · next h =>
    have hdiv : (n + (alignment - 1)) / alignment = n / alignment :=
      Nat.div_eq_of_lt_le (by omega) (by rw [Nat.add_mul]; omega)
    rw [hdiv]
    omega
  · next h =>
    have hdiv : (n + (alignment - 1)) / alignment = n / alignment + 1 :=
      Nat.div_eq_of_lt_le (by rw [Nat.add_mul]; omega) (by rw [Nat.add_mul, Nat.add_mul]; omega)
    rw [hdiv, Nat.add_mul]
    omega

/-- Rounding up gives no less. -/
theorem le_roundUp {alignment : Nat} (hpos : 0 < alignment) (n : Nat) :
    n ≤ (n + (alignment - 1)) / alignment * alignment := by
  rw [roundUp_eq hpos]
  split <;> omega

theorem roundUp_lt {alignment : Nat} (hpos : 0 < alignment) (n : Nat) :
    (n + (alignment - 1)) / alignment * alignment < n + alignment := by
  rw [roundUp_eq hpos]
  split <;> omega

/-- Pages for `n` bytes hold them, with nothing to spare when `n` bytes are whole pages. -/
theorem pagesFor_mul (n : Nat) : n ≤ pagesFor n * pageSize ∧ (pageSize ∣ n → pagesFor n * pageSize = n) := by
  have heq : pagesFor n * pageSize = if n % pageSize = 0 then n else n + (pageSize - n % pageSize) :=
    roundUp_eq (by decide) n
  rw [heq]
  split
  · exact ⟨Nat.le_refl n, fun _ => rfl⟩
  · next h => exact ⟨Nat.le_add_right _ _, fun hdvd => absurd (Nat.mod_eq_zero_of_dvd hdvd) h⟩

/-- Rounded up to a power of two: the least multiple that is not below. -/
theorem alignUp?_eq_some_iff {n alignment m : Nat} (hp : alignment.isPowerOfTwo) (hlt : alignment < UInt64.size) :
    Layout.alignUp? n alignment = some m ↔
      n + (alignment - 1) < UInt64.size ∧ m = (n + (alignment - 1)) / alignment * alignment := by
  unfold Layout.alignUp?
  dsimp only
  by_cases h : n + (alignment - 1) < UInt64.size
  · have hm : (UInt64.ofNat (alignment - 1)).toNat = alignment - 1 :=
      UInt64.toNat_ofNat_of_lt' (Nat.lt_of_le_of_lt (Nat.sub_le _ _) hlt)
    rw [if_pos h, Option.some.injEq, Address.toNat_land_complement _ _ hp hm, UInt64.toNat_ofNat_of_lt' h]
    exact ⟨fun e => ⟨h, e.symm⟩, fun e => e.2.symm⟩
  · rw [if_neg h]
    exact ⟨fun e => (nomatch e), fun e => absurd e.1 h⟩

namespace Layout

/-- The bounds of a section, in a file of `rawSize` bytes. -/
structure SectionFits (rawSize : Nat) (header : Header) (s : ImageSection) : Prop where
  address : header.headerSize.toNat ≤ s.virtualAddress.toNat
  offset : s.rawSize.toNat ≠ 0 → header.headerSize.toNat ≤ s.rawOffset.toNat
  file : s.rawOffset.toNat + s.rawSize.toNat ≤ rawSize
  memory : s.virtualAddress.toNat + s.virtualSize.toNat ≤ header.imageSize.toNat

theorem checkSection_eq_ok_iff {rawSize : Nat} {header : Header} {s : ImageSection} :
    checkSection header rawSize s = .ok () ↔ SectionFits rawSize header s := by
  have hlast : ∀ {p : Prop} [Decidable p] {e : LoadError}, need p e = .ok () ↔ p := by
    intro p _ e
    unfold need
    split
    · exact ⟨fun _ => ‹p›, fun _ => rfl⟩
    · exact ⟨fun h => (nomatch h), fun h => absurd h ‹¬p›⟩
  simp only [checkSection, need_bind_eq_ok_iff, hlast, overlapsHeaders, Bool.or_eq_false_iff, Bool.and_eq_false_iff,
    decide_eq_false_iff_not, bne_eq_false_iff_eq, UInt32.lt_iff_toNat_lt, Nat.not_lt]
  constructor
  · rintro ⟨⟨h1, h2⟩, h3, h4⟩
    refine ⟨h1, fun h0 => ?_, h3, h4⟩
    rcases h2 with h2 | h2
    · exact absurd (by rw [h2]; rfl) h0
    · exact h2
  · rintro ⟨h1, h2, h3, h4⟩
    refine ⟨⟨h1, ?_⟩, h3, h4⟩
    by_cases h0 : s.rawSize.toNat = 0
    · exact Or.inl (UInt32.toNat_inj.mp h0)
    · exact Or.inr (h2 h0)

theorem checkSections_eq_ok_iff {rawSize : Nat} {header : Header} {sections : List ImageSection} :
    checkSections header rawSize sections = .ok () ↔ ∀ s ∈ sections, SectionFits rawSize header s := by
  induction sections with
  | nil => exact ⟨fun _ _ h => (nomatch h), fun _ => rfl⟩
  | cons s r ih =>
    rw [checkSections, List.forall_mem_cons, ← checkSection_eq_ok_iff, ← ih]
    cases h : checkSection header rawSize s with
    | error e => exact ⟨fun h => (nomatch h), fun h => (nomatch h.1)⟩
    | ok u => exact ⟨fun h => ⟨rfl, h⟩, fun h => h.2⟩

/-- What a layout says of a file of `rawSize` bytes with this header. -/
structure Sound (rawSize : Nat) (header : Header) (layout : Layout) : Prop where
  power : layout.alignment.isPowerOfTwo
  alignment_eq : layout.alignment = max header.sectionAlignment.toNat pageSize
  sections : ∀ s ∈ header.sections, SectionFits rawSize header s
  headers_file : header.headerSize.toNat ≤ rawSize
  headers_size : header.headerSize.toNat ≤ layout.size
  size_eq : layout.size =
    (header.imageSize.toNat + (layout.alignment - 1)) / layout.alignment * layout.alignment
  pages_eq : layout.pages = pagesFor (layout.size + (layout.alignment - pageSize))

/-- When there is a layout, and which. -/
theorem of_eq_ok_iff {rawSize : Nat} {header : Header} {config : LoaderConfig} {layout : Layout} :
    Layout.of rawSize header config = .ok layout ↔
      header.sectionAlignment.toNat.isPowerOfTwo ∧ (∀ s ∈ header.sections, SectionFits rawSize header s) ∧
        header.headerSize.toNat ≤ rawSize ∧
        ∃ size, alignUp? header.imageSize.toNat (max header.sectionAlignment.toNat config.pageSize) = some size ∧
          size + (max header.sectionAlignment.toNat config.pageSize - config.pageSize) < UInt64.size ∧
          header.headerSize.toNat ≤ size ∧
          layout = ⟨max header.sectionAlignment.toNat config.pageSize, size,
            pagesFor (size + (max header.sectionAlignment.toNat config.pageSize - config.pageSize))⟩ := by
  rw [Layout.of, need_bind_eq_ok_iff, check_bind_eq_ok_iff, isPowerOfTwo_iff, ← checkSections_eq_ok_iff]
  simp only [need_bind_eq_ok_iff, demand_bind_eq_ok_iff, pure, Except.pure, Except.ok.injEq, @eq_comm _ layout]
  exact ⟨fun ⟨hp, ⟨⟩, hs, rest⟩ => ⟨hp, hs, rest⟩, fun ⟨hp, hs, rest⟩ => ⟨hp, (), hs, rest⟩⟩

theorem sound_of_eq_ok {rawSize : Nat} {header : Header} {config : LoaderConfig} {layout : Layout}
    (hp : config.pageSize = pageSize) (h : Layout.of rawSize header config = .ok layout) :
    Sound rawSize header layout := by
  obtain ⟨hpow, hsections, hfile, size, hsize, -, hhead, rfl⟩ := of_eq_ok_iff.1 h
  rw [hp] at hsize ⊢
  have hmax : (max header.sectionAlignment.toNat pageSize).isPowerOfTwo := isPowerOfTwo_max hpow isPowerOfTwo_pageSize
  have hlt : max header.sectionAlignment.toNat pageSize < UInt64.size :=
    Nat.max_lt.mpr ⟨Nat.lt_trans header.sectionAlignment.toNat_lt (by decide), by decide⟩
  exact ⟨hmax, rfl, hsections, hfile, hhead, ((alignUp?_eq_some_iff hmax hlt).mp hsize).2, rfl⟩

namespace Sound

variable {rawSize : Nat} {header : Header} {layout : Layout}

theorem alignment_lt (h : Sound rawSize header layout) : layout.alignment < UInt32.size := by
  have hlt := header.sectionAlignment.toNat_lt
  rw [h.alignment_eq, Nat.max_lt]
  exact ⟨hlt, by decide⟩

theorem pageSize_le (h : Sound rawSize header layout) : pageSize ≤ layout.alignment := by
  rw [h.alignment_eq]
  exact Nat.le_max_right _ _

theorem imageSize_le (h : Sound rawSize header layout) : header.imageSize.toNat ≤ layout.size := by
  rw [h.size_eq]
  exact le_roundUp (Nat.lt_of_lt_of_le (by decide) h.pageSize_le) _

theorem alignment_dvd_size (h : Sound rawSize header layout) : layout.alignment ∣ layout.size := by
  rw [h.size_eq]
  exact Nat.dvd_mul_left _ _

theorem size_lt (h : Sound rawSize header layout) : layout.size < header.imageSize.toNat + layout.alignment := by
  rw [h.size_eq]
  exact roundUp_lt (Nat.lt_of_lt_of_le (by decide) h.pageSize_le) _

/-- The pages hold the image and the room to align it. -/
theorem room (h : Sound rawSize header layout) :
    layout.size + (layout.alignment - pageSize) ≤ layout.pages * pageSize := by
  rw [h.pages_eq]
  exact (pagesFor_mul _).1

theorem pageSize_dvd (h : Sound rawSize header layout) : pageSize ∣ layout.alignment :=
  dvd_of_isPowerOfTwo isPowerOfTwo_pageSize h.power h.pageSize_le

/-- An image that is not empty takes its alignment at least. -/
theorem alignment_le_size (h : Sound rawSize header layout) (hpos : 0 < header.imageSize.toNat) :
    layout.alignment ≤ layout.size := by
  have halign : 0 < layout.alignment := Nat.lt_of_lt_of_le (by decide) h.pageSize_le
  have hq : 1 ≤ (header.imageSize.toNat + (layout.alignment - 1)) / layout.alignment :=
    (Nat.one_le_div_iff halign).mpr (by omega)
  have hle := Nat.mul_le_mul_right layout.alignment hq
  rw [h.size_eq]
  omega

end Sound

theorem size_contents (raw : Bytes) (header : Header) (size : Nat) : (contents raw header size).size = size := by
  have h : ∀ (sections : List ImageSection) (memory : Bytes),
      (sections.foldl (fun memory s => memory.overwrite s.virtualAddress.toNat (sectionBytes raw s)) memory).size =
        memory.size := by
    intro sections
    induction sections with
    | nil => exact fun _ => rfl
    | cons s r ih =>
      intro memory
      rw [List.foldl_cons, ih, Bytes.size_overwrite]
  rw [contents, h, Bytes.size_overwrite, Bytes.size_zeros]

end Layout

/-! ## Where the image lies -/

namespace MappedImage

variable {rawSize : Nat} {header : Header} {layout : Layout} {allocation : Address}

theorem toNat_base_of_power (hp : layout.alignment.isPowerOfTwo) (hlt : layout.alignment < UInt64.size)
    (ha : allocation.toNat + layout.alignment ≤ UInt64.size) :
    (ofAllocation allocation layout header).base.toNat =
      (allocation.toNat + (layout.alignment - 1)) / layout.alignment * layout.alignment := by
  have hof : (UInt64.ofNat layout.alignment).toNat = layout.alignment := UInt64.toNat_ofNat_of_lt' hlt
  rw [ofAllocation, Address.toNat_alignUp (by rw [hof]; exact hp) (by rw [hof]; exact ha), hof]

/-- The image starts at the first multiple of its alignment in the pages. -/
theorem toNat_base (h : Layout.Sound rawSize header layout)
    (ha : allocation.toNat + layout.alignment ≤ UInt64.size) :
    (ofAllocation allocation layout header).base.toNat =
      (allocation.toNat + (layout.alignment - 1)) / layout.alignment * layout.alignment :=
  toNat_base_of_power h.power (Nat.lt_trans h.alignment_lt (by decide)) ha

/-- The entry point is an address of the image when the image ends in the address space. -/
theorem toNat_entry_of_lt
    (h : (ofAllocation allocation layout header).base.toNat + header.entryRva.toNat < UInt64.size) :
    (ofAllocation allocation layout header).entry.toNat =
      (ofAllocation allocation layout header).base.toNat + header.entryRva.toNat := by
  show ((ofAllocation allocation layout header).base + header.entryRva.toUInt64).toNat = _
  rw [UInt64.toNat_add, UInt32.toNat_toUInt64]
  exact Nat.mod_eq_of_lt h

theorem le_base (h : Layout.Sound rawSize header layout) (ha : allocation.toNat + layout.alignment ≤ UInt64.size) :
    allocation.toNat ≤ (ofAllocation allocation layout header).base.toNat ∧
      (ofAllocation allocation layout header).base.toNat < allocation.toNat + layout.alignment := by
  have hpos : 0 < layout.alignment := Nat.lt_of_lt_of_le (by decide) h.pageSize_le
  rw [toNat_base h ha]
  exact ⟨le_roundUp hpos _, roundUp_lt hpos _⟩

/-- In pages that start where a page may, no more than the room to align the image is left before it. -/
theorem base_le (h : Layout.Sound rawSize header layout) (ha : allocation.toNat + layout.alignment ≤ UInt64.size)
    (hpage : allocation.toNat % pageSize = 0) :
    (ofAllocation allocation layout header).base.toNat ≤ allocation.toNat + (layout.alignment - pageSize) := by
  have hlt := (le_base h ha).2
  have hbase : pageSize ∣ (ofAllocation allocation layout header).base.toNat := by
    rw [toNat_base h ha]
    exact Nat.dvd_trans h.pageSize_dvd (Nat.dvd_mul_left _ _)
  obtain ⟨b, hb⟩ := hbase
  obtain ⟨a, halign⟩ := h.pageSize_dvd
  rw [pageSize] at hb halign hpage ⊢
  omega

/-- The image lies in its pages to its end. -/
theorem base_room (h : Layout.Sound rawSize header layout) (ha : allocation.toNat + layout.alignment ≤ UInt64.size)
    (hpage : allocation.toNat % pageSize = 0) :
    (ofAllocation allocation layout header).base.toNat + layout.size ≤
      allocation.toNat + layout.pages * pageSize := by
  have hle := base_le h ha hpage
  have hroom := h.room
  omega

end MappedImage

end NetBoot.Image
