/-
  NetBoot.Proofs.Image.Strict.Safety — loading keeps within bounds, whatever the file is.

  The stages of loading run one after the other within bounds: every sum fits its word, every slice lies
  in its byte string, and every byte of memory that is touched lies in the pages that were given. What
  one stage has checked, the next relies on. On any file, and with any source of pages, the loader gives
  an image or an error of the file, and the strict stages give the same (`Loader.load_within_bounds`).

  One sum has no room in one place: the start of an allocation is rounded up by way of the address an
  alignment behind it, and there is none behind the last page of the address space
  (`Strict.lastPage_overflows`). The loader, whose words wrap, still puts the image where it belongs.
-/

import NetBoot.Image.Loader
import NetBoot.Proofs.Image.Building
import NetBoot.Proofs.Image.Strict.Header
import NetBoot.Proofs.Image.Strict.Pages
import NetBoot.Proofs.Image.Strict.Relocation

namespace NetBoot.Image

namespace Strict

/-! ## The stages -/

/-- Maps the file with this header into fresh pages. -/
def map (source : PageSource) (raw : Bytes) (header : Header) (config : LoaderConfig) :
    Safe (Except LoadError MappedImage) := do
  match ← (layout raw.size header config).run with
  | .error e => return .error e
  | .ok layout =>
    match ← source.take layout.pages with
    | .error _ => return .error .outOfMemory
    | .ok allocation => do
      let image ← place allocation layout header
      let memory ← contents raw header layout.size
      Safe.write image.base memory
      return .ok image

/-- Relocates the image in place by `delta`. -/
def relocate (image : MappedImage) (header : Header) (delta : UInt64) : Safe (Except LoadError Unit) := do
  match header.reloc with
  | none => return .ok ()
  | some table =>
    if image.size < header.imageSize.toNat then return .error .sectionOutsideImage
    else do
      let memory ← Safe.read image.base header.imageSize.toNat
      let (memory', result) ← relocateBy memory table delta header.machine.family
      Safe.write image.base memory'
      match result with
      | .error fault => return .error fault.error
      | .ok () => return .ok ()

/-- Maps the file and relocates it for where it lies. -/
def mapAndRelocate (source : PageSource) (config : LoaderConfig) (raw : Bytes) (header : Header) :
    Safe (Except LoadError MappedImage) := do
  match ← map source raw header config with
  | .error e => return .error e
  | .ok image =>
    match ← relocate image header (image.loadDelta header) with
    | .error e => do
      Safe.free
      return .error e
    | .ok () => return .ok image

/-- Selects, parses, maps and relocates. -/
def load (source : PageSource) (config : LoaderConfig) (raw : Bytes) :
    Safe (Except LoadError (Header × MappedImage)) := do
  match ← (select raw config.machine).run with
  | .error e => return .error e
  | .ok raw =>
    match ← (parse raw config).run with
    | .error e => return .error e
    | .ok header =>
      let image ← mapAndRelocate source config raw header
      return image.map (header, ·)

/-- The strict run ends with this; or it finds no address to round up to, and then one page was given that is the last
    of all. -/
def EndsWith {α : Type} (source : PageSource) (x : Safe α) (s : Option Pages) (out : α × Option Pages) : Prop :=
  x s = .ok out ∨ source.GivesLastPage ∧ x s = .error .overflow

theorem EndsWith.bind {α β : Type} {source : PageSource} {x : Safe α} {f : α → Safe β} {s s' : Option Pages} {a : α}
    {out : β × Option Pages} (hx : EndsWith source x s (a, s')) (hf : EndsWith source (f a) s' out) :
    EndsWith source (x >>= f) s out := by
  rcases hx with hx | ⟨hlast, hx⟩
  · rwa [EndsWith, Safe.bind_of_ok hx]
  · exact .inr ⟨hlast, Safe.bind_of_error hx f⟩

/-! ## Each stage within bounds -/

section Stages

variable {source : PageSource} {raw : Bytes} {header : Header} {config : LoaderConfig} {image : MappedImage}
  {s : Option Pages}

/-- The image lies in the pages that were given for it. -/
theorem holds_ofAllocation {rawSize : Nat} {layout : Layout} {p : Pages} (hs : Layout.Sound rawSize header layout)
    (ha : source.allocate layout.pages = .ok p) (hpos : 0 < header.imageSize.toNat) :
    p.Holds (MappedImage.ofAllocation p.start layout header).base layout.size := by
  have hg := source.given _ _ ha
  have halign := hg.alignment_le hs hpos
  refine ⟨(MappedImage.le_base hs halign).1, ?_⟩
  rw [source.size _ _ ha]
  exact MappedImage.base_room hs halign hg.aligned

/-- The image has a place in the pages that were given for it, or they are the last page of all. -/
theorem place_run {rawSize : Nat} {layout : Layout} {p : Pages} (hs : Layout.Sound rawSize header layout)
    (ha : source.allocate layout.pages = .ok p) (hentry : header.entryRva < header.imageSize) :
    EndsWith source (liftM (place p.start layout header)) s (MappedImage.ofAllocation p.start layout header, s) := by
  have hg := source.given _ _ ha
  have hpos := Nat.zero_lt_of_lt (UInt32.lt_iff_toNat_lt.mp hentry)
  rcases Nat.lt_or_eq_of_le (hg.alignment_le hs hpos) with halign | hend
  · rw [place_eq hs hg hentry halign]
    exact .inl rfl
  · obtain ⟨hone, hlast⟩ := hg.last_of_alignment_eq hs hpos hend
    rw [place_overflow hend]
    exact .inr ⟨⟨p, hone ▸ ha, hlast⟩, rfl⟩

/-- Mapping gives the same strictly, and an image that lies in the pages at hand. -/
theorem map_run (source : PageSource) (raw : Bytes) (s : Option Pages) (hp : config.pageSize = pageSize)
    (hentry : header.entryRva < header.imageSize) :
    ∃ r s', MappedImage.map source.firmware raw header config s = .ok (r, s') ∧
      EndsWith source (map source raw header config) s (r, s') ∧
      ∀ image, r = .ok image → ∃ p, s' = some p ∧ p.Holds image.base image.size := by
  unfold map EndsWith
  rw [Safe.lift_bind (congrArg ExceptT.run (layout_eq raw.size header hp))]
  cases hl : Layout.of raw.size header config with
  | error e =>
    refine ⟨.error e, s, PageSource.map_refused hl, .inl rfl, fun image himage => ?_⟩
    cases himage
  | ok layout =>
    dsimp only
    have hs := Layout.sound_of_eq_ok hp hl
    show ∃ r s', _ ∧ EndsWith source (source.take layout.pages >>= fun _ => _) s (r, s') ∧ _
    cases ha : source.allocate layout.pages with
    | error e =>
      refine ⟨.error .outOfMemory, s, PageSource.map_outOfMemory hl ha, ?_, fun image himage => ?_⟩
      · exact .bind (.inl (source.take_of_error ha s)) (.inl rfl)
      · cases himage
    | ok p =>
      have hholds := holds_ofAllocation hs ha (Nat.zero_lt_of_lt (UInt32.lt_iff_toNat_lt.mp hentry))
      have hroom : p.Holds (MappedImage.ofAllocation p.start layout header).base
          (Layout.contents raw header layout.size).size := by
        rw [Layout.size_contents]
        exact hholds
      obtain ⟨p', hwrite, hstart, hsize⟩ := Pages.write_of_holds hroom
      refine ⟨.ok (MappedImage.ofAllocation p.start layout header), some p', PageSource.map_given hl ha hwrite, ?_,
        fun image hi => ⟨p', rfl, ?_⟩⟩
      · refine .bind (.inl (source.take_of_ok ha s)) (.bind (place_run hs ha hentry) (.inl ?_))
        rw [Safe.lift_bind (contents_eq hs), Safe.bind_of_ok (Safe.write_of_ok hwrite)]
        rfl
      · cases hi
        rw [Pages.Holds, hstart, hsize]
        exact hholds

/-- Relocating an image that lies in the pages at hand gives the same strictly. -/
theorem relocate_run (source : PageSource) {p : Pages} (header : Header) (delta : UInt64)
    (h : p.Holds image.base image.size) :
    ∃ r s', relocate image header delta (some p) = .ok (r, s') ∧
      image.relocate source.firmware header delta (some p) = .ok (r, s') := by
  unfold relocate MappedImage.relocate
  cases header.reloc with
  | none => exact ⟨.ok (), some p, rfl, rfl⟩
  | some table =>
    dsimp only
    by_cases hsize : image.size < header.imageSize.toNat
    · rw [if_pos hsize, if_pos hsize]
      exact ⟨.error .sectionOutsideImage, some p, rfl, rfl⟩
    · rw [if_neg hsize, if_neg hsize]
      have hfront := h.of_le (Nat.le_of_not_lt hsize)
      obtain ⟨memory, hread, hlen⟩ := Safe.read_run hfront
      have hword : memory.size < UInt32.size := hlen ▸ header.imageSize.toNat_lt
      obtain ⟨hwalk, hkept⟩ := relocateBy_eq table delta header.machine.family hword
      rw [Safe.bind_of_ok hread, Safe.lift_bind hwalk]
      show ∃ r s', _ ∧ (Safe.read _ _ >>= fun _ => _) (some p) = _
      rw [Safe.bind_of_ok hread]
      rcases hr : Relocation.apply memory table delta header.machine.family with ⟨memory', result⟩
      rw [hr] at hkept
      dsimp only at hkept ⊢
      obtain ⟨p', hwrite, -⟩ := Safe.write_run memory' (by rw [hkept, hlen]; exact hfront)
      rw [Safe.bind_of_ok hwrite]
      show ∃ r s', _ ∧ (Safe.write _ _ >>= fun _ => _) (some p) = _
      rw [Safe.bind_of_ok hwrite]
      cases result with
      | error fault =>
        dsimp only
        refine ⟨.error fault.error, some p', rfl, ?_⟩
        rw [Safe.bind_of_ok (source.logAll_run _ _)]
        rfl
      | ok u => exact ⟨.ok (), some p', rfl, rfl⟩

/-! ## Loading -/

theorem enter_run (l : Loader) (source : PageSource) (stage : Stage) (s : Option Pages) :
    l.enter source.firmware stage s = .ok (l.withStage stage, s) := rfl

theorem select_run (l : Loader) (source : PageSource) (raw : Bytes) (s : Option Pages) :
    l.select source.firmware raw s = .ok ((Fat.select raw l.config.machine).map (·.apply raw), s) := by
  unfold Loader.select
  rw [Safe.bind_of_ok (source.logAll_run _ s)]
  rfl

theorem parse_run (l : Loader) (source : PageSource) (raw : Bytes) (s : Option Pages) :
    l.parse source.firmware raw s = .ok (Header.parse raw l.config, s) := by
  unfold Loader.parse
  rw [Safe.bind_of_ok (source.logAll_run _ s)]
  rfl

theorem mapAndRelocate_run (l : Loader) (source : PageSource) (raw : Bytes) (s : Option Pages)
    (hc : l.config = config) (hp : config.pageSize = pageSize) (hentry : header.entryRva < header.imageSize) :
    ∃ r s' history, l.mapAndRelocate source.firmware raw header s = .ok (({ l with history }, r), s') ∧
      EndsWith source (mapAndRelocate source config raw header) s (r, s') := by
  subst hc
  unfold mapAndRelocate Loader.mapAndRelocate
  obtain ⟨r, s₁, hmap, hstrict, hin⟩ := map_run source raw s hp hentry
  rw [Safe.bind_of_ok hmap]
  cases r with
  | error e => exact ⟨.error e, s₁, _, rfl, hstrict.bind (.inl rfl)⟩
  | ok image =>
    obtain ⟨p, rfl, hholds⟩ := hin image rfl
    obtain ⟨r, s₂, hrel, hrel'⟩ := relocate_run source header (image.loadDelta header) hholds
    dsimp only
    rw [Safe.bind_of_ok (enter_run l source .mapped _), Safe.bind_of_ok hrel']
    cases r with
    | error e => exact ⟨.error e, none, _, rfl, hstrict.bind (.bind (.inl hrel) (.inl rfl))⟩
    | ok u => exact ⟨.ok image, s₂, _, rfl, hstrict.bind (.bind (.inl hrel) (.inl rfl))⟩

end Stages

end Strict

/-- Loading any file for any machine with any source of pages ends, with an image or an error, and no byte is touched
    outside the pages that were given. The strict stages give the same: no sum is too large for its word and no slice
    leaves its string. Only if the one page of an image is the last of the address space, a sum overflows. -/
theorem Loader.load_within_bounds (source : PageSource) (machine : Machine)
    (requireEfiApplication forceValidation : Bool) (raw : Bytes) :
    let config : LoaderConfig := { machine, requireEfiApplication, forceValidation }
    ∃ result pages history,
      Loader.load { config } source.firmware raw none = .ok (({ config, history }, result), pages) ∧
      (Strict.load source config raw none = .ok (result, pages) ∨
        source.GivesLastPage ∧ Strict.load source config raw none = .error .overflow) := by
  intro config
  show ∃ result pages history, _ ∧ Strict.EndsWith source (Strict.load source config raw) none (result, pages)
  unfold Strict.load Loader.load Strict.EndsWith
  rw [Safe.lift_bind (congrArg ExceptT.run (Strict.select_eq raw config.machine)),
    Safe.bind_of_ok (Strict.select_run _ source raw none)]
  cases Fat.select raw config.machine with
  | error e => exact ⟨.error e, none, _, rfl, .inl rfl⟩
  | ok selection =>
    dsimp only [Except.map]
    rw [Safe.lift_bind (congrArg ExceptT.run (Strict.parse_eq _ config)), Safe.bind_of_ok (Strict.parse_run _ source _ none)]
    cases hh : Header.parse (selection.apply raw) config with
    | error e => exact ⟨.error e, none, _, rfl, .inl rfl⟩
    | ok header =>
      dsimp only
      have hconfig : (Loader.withStage { config } .headerParsed).config = config := rfl
      obtain ⟨r, s, history, hrun, hstrict⟩ := Strict.mapAndRelocate_run (Loader.withStage { config } .headerParsed) source
        (selection.apply raw) none hconfig rfl (Header.parse_bounds hh).1
      rw [Safe.bind_of_ok (Strict.enter_run { config } source .headerParsed none), Safe.bind_of_ok hrun]
      exact ⟨r.map (header, ·), s, history, rfl, hstrict.bind (.inl rfl)⟩

namespace Strict

/-! ## The last page -/

/-- An image is not placed in pages that end the address space an alignment behind their start. -/
theorem load_overflow {source : PageSource} {config : LoaderConfig} {raw : Bytes} {selection : Fat.Selection}
    {header : Header} {layout : Layout} {p : Pages} (hp : config.pageSize = pageSize)
    (hs : Fat.select raw config.machine = .ok selection) (hh : Header.parse (selection.apply raw) config = .ok header)
    (hl : Layout.of (selection.apply raw).size header config = .ok layout) (ha : source.allocate layout.pages = .ok p)
    (hend : p.start.toNat + layout.alignment = UInt64.size) (s : Option Pages) :
    load source config raw s = .error .overflow := by
  have hmap : map source (selection.apply raw) header config s = .error .overflow := by
    rw [map, Safe.lift_bind (congrArg ExceptT.run (layout_eq _ header hp)), hl]
    show (source.take layout.pages >>= fun _ => _) s = _
    rw [Safe.bind_of_ok (PageSource.take_of_ok ha s)]
    dsimp only
    rw [place_overflow hend]
    rfl
  rw [load, Safe.lift_bind (congrArg ExceptT.run (select_eq raw config.machine)), hs]
  show (liftM (parse (selection.apply raw) config).run >>= fun _ => _ : Safe _) s = _
  rw [Safe.lift_bind (congrArg ExceptT.run (parse_eq _ config)), hh]
  exact Safe.bind_of_error (Safe.bind_of_error hmap _) _

/-- A file that is one page of memory, and nothing but headers. -/
def onePage : Sample := { entry := 0x400, imageSize := some 0x1000 }

theorem onePage_size : onePage.build.size = 0x400 := by
  rw [Sample.build_eq, Sample.size_addSections, Sample.size_headers]
  decide

theorem onePage_select : Fat.select onePage.build .native = .ok .whole := by
  have hmagic : (Fat.Header.at? onePage.build 0).any (·.magic ≠ Fat.magic) = true := by decide +kernel
  unfold Fat.select
  split
  · rfl
  · next h heq =>
    rw [heq] at hmagic
    exact if_pos (of_decide_eq_true hmagic)

theorem onePage_laidOut : ∃ header, Header.parse onePage.build {} = .ok header ∧
    Layout.of onePage.build.size header {} = .ok ⟨4096, 0x1000, 1⟩ := by
  have hconforms : Format.Conforms onePage.build {} onePage.form := by
    refine Sample.conforms_build rfl rfl (by decide) (by decide +kernel) (by decide +kernel) ?_
    rw [onePage_size]
    decide
  obtain ⟨header, hparse⟩ := Format.parse_complete hconforms
  have hshows : onePage.Shows header := by
    refine Sample.shows_of_parse hconforms (by decide) (by decide) ?_ (nofun) hparse
    rw [onePage_size]
    decide
  have hsections : header.sections = [] := by
    have h := hshows.sections
    rwa [show onePage.allSections = [] by decide, List.forall₂_nil_left_iff] at h
  refine ⟨header, hparse, ?_⟩
  rw [onePage_size, Layout.of, hshows.alignment, hsections, hshows.headerSize, hshows.imageSize, Layout.checkSections]
  decide +kernel

/-- In the last page of all the image would lie where the page does, but rounding up its start leaves the words. -/
theorem lastPage_overflows : load .lastPage {} onePage.build none = .error .overflow := by
  obtain ⟨header, hparse, hlayout⟩ := onePage_laidOut
  have hend : (0xfffffffffffff000 : Address).toNat + 4096 = UInt64.size := by decide
  have hpage : ({} : LoaderConfig).pageSize = pageSize := rfl
  exact load_overflow hpage onePage_select hparse hlayout PageSource.lastPage_allocate hend none

end Strict

end NetBoot.Image
