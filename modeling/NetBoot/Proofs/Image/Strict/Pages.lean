/-
  NetBoot.Proofs.Image.Strict.Pages — memory that is the pages at hand and nothing else.

  A source of pages is any firmware's: it fails, or gives pages that start where a page may and end in
  the address space (`PageSource`). In `Safe` the pages that were given last are all the memory there
  is; a byte read or written outside them, or after they were given back, is a `Violation`.
  `PageSource.firmware` is a firmware of such memory, so whatever runs on it without a violation keeps
  to its pages.
-/

import NetBoot.Proofs.Image.Strict.Mapping

namespace NetBoot.Image

structure Pages where
  start : Address
  bytes : Bytes

namespace Pages

/-- Are the `len` bytes from `base` on among these? -/
def Holds (p : Pages) (base : Address) (len : Nat) : Prop :=
  p.start.toNat ≤ base.toNat ∧ base.toNat + len ≤ p.start.toNat + p.bytes.size

instance (p : Pages) (base : Address) (len : Nat) : Decidable (p.Holds base len) :=
  inferInstanceAs (Decidable (_ ∧ _))

def offset (p : Pages) (base : Address) : Nat := base.toNat - p.start.toNat

def read (p : Pages) (base : Address) (len : Nat) : Strict Bytes := do
  need (p.Holds base len) .outsidePages
  return p.bytes.extract (p.offset base) (p.offset base + len)

def write (p : Pages) (base : Address) (bytes : Bytes) : Strict Pages := do
  need (p.Holds base bytes.size) .outsidePages
  return { p with bytes := p.bytes.overwrite (p.offset base) bytes }

variable {p : Pages} {base : Address}

theorem Holds.of_le {len len' : Nat} (h : p.Holds base len) (hle : len' ≤ len) : p.Holds base len' := by
  obtain ⟨hstart, hstop⟩ := h
  exact ⟨hstart, by omega⟩

theorem read_of_holds {len : Nat} (h : p.Holds base len) :
    ∃ bytes, p.read base len = .ok bytes ∧ bytes.size = len := by
  have hn : (need (p.Holds base len) .outsidePages : Strict Unit) = .ok () := if_pos h
  refine ⟨p.bytes.extract (p.offset base) (p.offset base + len), ?_, ?_⟩
  · rw [read, hn]
    rfl
  · obtain ⟨hstart, hstop⟩ := h
    rw [Array.size_extract, offset]
    omega

theorem write_of_holds {bytes : Bytes} (h : p.Holds base bytes.size) :
    ∃ p', p.write base bytes = .ok p' ∧ p'.start = p.start ∧ p'.bytes.size = p.bytes.size := by
  have hn : (need (p.Holds base bytes.size) .outsidePages : Strict Unit) = .ok () := if_pos h
  refine ⟨{ p with bytes := p.bytes.overwrite (p.offset base) bytes }, ?_, rfl, Bytes.size_overwrite _ _ _⟩
  rw [write, hn]
  rfl

end Pages

/-- Where pages come from: a count of them is refused, or that many are given. -/
structure PageSource where
  allocate : Nat → Except ServiceError Pages
  given : ∀ count p, allocate count = .ok p → Strict.Given p.start count
  size : ∀ count p, allocate count = .ok p → p.bytes.size = count * pageSize

/-- A single page is given as the very last one of the address space. -/
def PageSource.GivesLastPage (source : PageSource) : Prop :=
  ∃ p, source.allocate 1 = .ok p ∧ p.start.toNat + pageSize = UInt64.size

/-- Runs whose memory is the pages that were given last, if any. -/
abbrev Safe := StateT (Option Pages) Strict

namespace Safe

variable {α β : Type} {s s' : Option Pages}

theorem bind_of_ok {x : Safe α} {a : α} (h : x s = .ok (a, s')) (f : α → Safe β) : (x >>= f) s = f a s' := by
  show StateT.bind x f s = _
  rw [StateT.bind, h]
  rfl

theorem bind_of_error {x : Safe α} {v : Violation} (h : x s = .error v) (f : α → Safe β) : (x >>= f) s = .error v := by
  show StateT.bind x f s = _
  rw [StateT.bind, h]
  rfl

theorem lift_bind {x : Strict α} {a : α} (h : x = .ok a) (f : α → Safe β) : (liftM x >>= f : Safe β) s = f a s := by
  rw [h]
  rfl

/-- Reads memory, which has to be there. -/
def read (base : Address) (len : Nat) : Safe Bytes
  | none => .error .outsidePages
  | some p => do return (← p.read base len, some p)

/-- Writes memory, which has to be there. -/
def write (base : Address) (bytes : Bytes) : Safe Unit
  | none => .error .outsidePages
  | some p => do return ((), some (← p.write base bytes))

/-- Gives the pages back. -/
def free : Safe Unit := fun _ => .ok ((), none)

theorem read_run {p : Pages} {base : Address} {len : Nat} (h : p.Holds base len) :
    ∃ bytes, read base len (some p) = .ok (bytes, some p) ∧ bytes.size = len := by
  obtain ⟨bytes, hb, hsize⟩ := Pages.read_of_holds h
  exact ⟨bytes, by rw [read, hb]; rfl, hsize⟩

theorem write_of_ok {p p' : Pages} {base : Address} {bytes : Bytes} (h : p.write base bytes = .ok p') :
    write base bytes (some p) = .ok ((), some p') := by
  rw [write, h]
  rfl

theorem write_run {p : Pages} {base : Address} (bytes : Bytes) (h : p.Holds base bytes.size) :
    ∃ p', write base bytes (some p) = .ok ((), some p') ∧ p'.start = p.start ∧ p'.bytes.size = p.bytes.size := by
  obtain ⟨p', hp, hkept⟩ := Pages.write_of_holds h
  exact ⟨p', write_of_ok hp, hkept⟩

end Safe

namespace PageSource

/-- Fresh pages, which are the memory from then on. -/
def take (source : PageSource) (count : Nat) : Safe (Except ServiceError Address) := fun s =>
  match source.allocate count with
  | .error e => .ok (.error e, s)
  | .ok p => .ok (.ok p.start, some p)

/-- A firmware with the pages of a source for its memory, and with no image but the one that runs. -/
def firmware (source : PageSource) : Firmware Safe where
  log _ := pure ()
  allocatePages := source.take
  freePages _ _ := Safe.free
  readMemory := Safe.read
  writeMemory := Safe.write
  imageHandle := pure .null
  loadedImage _ := pure (.error .notFound)
  setLoadedImage _ _ := pure (.error .notFound)
  readVariable _ _ := pure none
  verify _ := pure none
  devicePath _ := pure none
  loadImage _ _ _ := pure (.error .unsupported)
  startImage _ := pure ⟨.unsupported, none⟩
  unloadImage _ := pure .unsupported
  syncCaches _ _ := pure ()
  callEntry _ _ := pure .unsupported

theorem logAll_run (source : PageSource) (records : List Log.Record) (s : Option Pages) :
    source.firmware.logAll records s = .ok ((), s) := by
  induction records with
  | nil => rfl
  | cons r rs ih => exact ih

theorem take_of_error {source : PageSource} {count : Nat} {e : ServiceError} (h : source.allocate count = .error e)
    (s : Option Pages) : source.take count s = .ok (.error e, s) := by rw [take, h]

theorem take_of_ok {source : PageSource} {count : Nat} {p : Pages} (h : source.allocate count = .ok p)
    (s : Option Pages) : source.take count s = .ok (.ok p.start, some p) := by rw [take, h]

section Map

variable {source : PageSource} {raw : Bytes} {header : Header} {config : LoaderConfig} {layout : Layout}
  {s : Option Pages}

theorem map_refused {e : LoadError} (hl : Layout.of raw.size header config = .error e) :
    MappedImage.map source.firmware raw header config s = .ok (.error e, s) := by
  unfold MappedImage.map
  rw [hl]
  dsimp only
  rw [Safe.bind_of_ok (source.logAll_run _ s)]
  rfl

theorem map_outOfMemory {e : ServiceError} (hl : Layout.of raw.size header config = .ok layout)
    (ha : source.allocate layout.pages = .error e) :
    MappedImage.map source.firmware raw header config s = .ok (.error .outOfMemory, s) := by
  unfold MappedImage.map
  rw [hl]
  show (source.take layout.pages >>= fun _ => _) s = _
  rw [Safe.bind_of_ok (take_of_error ha s)]
  rfl

/-- Mapping writes the image into the pages it is given, if they hold it. -/
theorem map_given {p p' : Pages} (hl : Layout.of raw.size header config = .ok layout)
    (ha : source.allocate layout.pages = .ok p)
    (hwrite : p.write (MappedImage.ofAllocation p.start layout header).base (Layout.contents raw header layout.size) =
      .ok p') :
    MappedImage.map source.firmware raw header config s =
      .ok (.ok (MappedImage.ofAllocation p.start layout header), some p') := by
  unfold MappedImage.map
  rw [hl]
  show (source.take layout.pages >>= fun _ => _) s = _
  rw [Safe.bind_of_ok (take_of_ok ha s)]
  show (Safe.write _ _ >>= fun _ => _) (some p) = _
  rw [Safe.bind_of_ok (Safe.write_of_ok hwrite), Safe.bind_of_ok (source.logAll_run _ _)]
  rfl

end Map

theorem given_top {count : Nat} (h : count < 4096) : Strict.Given 0xffffffffff000000 count := by
  have hstart : (0xffffffffff000000 : Address).toNat = 0xffffffffff000000 := rfl
  refine ⟨by decide, ?_⟩
  rw [hstart, pageSize, UInt64.size]
  omega

/-- Pages near the end of the address space, for every count that fits there. -/
def top : PageSource where
  allocate count :=
    if count < 4096 then .ok ⟨0xffffffffff000000, Bytes.zeros (count * pageSize)⟩ else .error .outOfMemory
  given := by
    intro count p h
    split at h
    · cases h
      exact given_top ‹_›
    · cases h
  size := by
    intro count p h
    split at h
    · cases h
      exact Bytes.size_zeros _
    · cases h

theorem top_allocate {count : Nat} (h : count < 4096) :
    top.allocate count = .ok ⟨0xffffffffff000000, Bytes.zeros (count * pageSize)⟩ := if_pos h

/-- One page, the last of the address space. -/
def lastPage : PageSource where
  allocate count := if count = 1 then .ok ⟨0xfffffffffffff000, Bytes.zeros pageSize⟩ else .error .outOfMemory
  given := by
    intro count p h
    split at h
    · subst count
      cases h
      exact ⟨by decide, by decide⟩
    · cases h
  size := by
    intro count p h
    split at h
    · subst count
      cases h
      exact Bytes.size_zeros _
    · cases h

theorem lastPage_allocate : lastPage.allocate 1 = .ok ⟨0xfffffffffffff000, Bytes.zeros pageSize⟩ := rfl

instance : Inhabited PageSource := ⟨top⟩

end PageSource

end NetBoot.Image
