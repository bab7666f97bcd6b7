/-
  NetBoot.Proofs.Image.Relocation.Encoding — the table that is written for a list of fixups.

  `encodeBlocks` groups the fixups by their pages, and fills each block up to a multiple of four bytes. Read
  back, the table is the list sorted by page, with nothing but padding between (`decode_encoded`).
  Where the fixups add to fields that lie apart, in the image and beside the table, applying the table
  is doing each of them once, in any order: every field takes its share of the delta, and no other byte
  changes (`encodeBlocks_applied`).
-/

import NetBoot.Image.Sample
import NetBoot.Proofs.Grouping
import NetBoot.Proofs.Image.Relocation.Additive

namespace NetBoot.Image.Relocation

/-! ## A fixup as an entry of its page -/

section Entry

variable (f : UInt8 × UInt32)

/-- The address of the page that a fixup is on. -/
def pageOf : UInt32 := f.2 &&& ~~~0xFFF

/-- The entry of a fixup in the block of its page. -/
def wordOf : UInt16 := Entry.toWord ⟨f.1, (f.2 &&& 0xFFF).toUInt16⟩

theorem toNat_pageOf : (pageOf f).toNat = f.2.toNat / 4096 * 4096 := by
  have hshift : pageOf f = (f.2 >>> 12) <<< 12 := by
    rw [pageOf, ← UInt32.toBitVec_inj]
    apply BitVec.eq_of_getLsbD_eq
    intro i hi
    have hmask : (4294963200#32).getLsbD i = decide (12 ≤ i) := by decide +revert
    simp [hi]
    grind
  have hlt := f.2.toNat_lt
  rw [hshift]
  simp [Nat.shiftRight_eq_div_pow, Nat.shiftLeft_eq]
  omega

theorem toNat_pageOffset : (f.2 &&& 0xFFF).toUInt16.toNat = f.2.toNat % 4096 := by
  have hmod : f.2.toNat &&& 4095 = f.2.toNat % 4096 := Nat.and_two_pow_sub_one_eq_mod f.2.toNat 12
  rw [UInt32.toNat_toUInt16, UInt32.toNat_and]
  show (f.2.toNat &&& 4095) % 65536 = _
  omega

theorem siteOf?_pageOf : siteOf? (pageOf f) (f.2 &&& 0xFFF).toUInt16 = some f.2.toNat := by
  have hsum : (pageOf f).toNat + (f.2 &&& 0xFFF).toUInt16.toNat = f.2.toNat := by
    rw [toNat_pageOf, toNat_pageOffset]
    omega
  rw [siteOf?, hsum]
  exact if_pos f.2.toNat_lt

/-- An entry keeps the low four bits of a kind. -/
theorem ofWord_wordOf : Entry.ofWord (wordOf f) = ⟨f.1 &&& 15, (f.2 &&& 0xFFF).toUInt16⟩ := by
  have hkind : (wordOf f >>> 12).toUInt8 = f.1 &&& 15 := by
    rw [wordOf, Entry.toWord, ← UInt8.toBitVec_inj]
    apply BitVec.eq_of_getLsbD_eq
    intro i hi
    have hmask : (15#8).getLsbD i = decide (12 + i < 16) := by decide +revert
    have hoffset : (4095#16).getLsbD (12 + i) = false := by decide +revert
    simp [hmask, hoffset]
    grind
  have hoffset : wordOf f &&& 0x0FFF = (f.2 &&& 0xFFF).toUInt16 := by
    rw [wordOf, Entry.toWord, ← UInt16.toBitVec_inj]
    apply BitVec.eq_of_getLsbD_eq
    intro i hi
    have hmask : (4095#16).getLsbD i = decide (i < 12) := by decide +revert
    simp [hi]
    grind
  rw [Entry.ofWord, hkind, hoffset]

end Entry

/-! ## A table as a list of fixups -/

/-- The entry is one of a fixup: of its kind, as far as an entry has room for that, and for its place. -/
structure Placed.Lists (e : Placed) (f : UInt8 × UInt32) : Prop where
  kind : e.entry.kind = f.1 &&& 15
  site : siteOf? e.page e.entry.offset = some f.2.toNat

/-- Entries for the fixups in their order, and padding at the end of blocks. -/
inductive Padded : List Placed → List (UInt8 × UInt32) → Prop
  | nil : Padded [] []
  | listed {e es f fs} (h : Placed.Lists e f) (hrest : Padded es fs) : Padded (e :: es) (f :: fs)
  | padding {e : Placed} {es fs} (h : e.entry = ⟨Entry.absolute, 0⟩) (hlast : ∀ e' ∈ es, e'.block ≠ e.block)
      (hrest : Padded es fs) : Padded (e :: es) fs

/-- A chain of blocks whose sizes are multiples of four. -/
inductive Quads (image : Bytes) (stop : Nat) : Nat → Prop
  | done : Quads image stop stop
  | block {pos : Nat} {size : UInt32} (hsize : image.u32At? (pos + 4) = some size) (hpos : 0 < size.toNat)
      (hfour : 4 ∣ size.toNat) (hrest : Quads image stop (pos + size.toNat)) : Quads image stop pos

/-! ## Blocks that are written -/

/-- The words of a block, with one more to make their number even. -/
def padded (words : List UInt16) : List UInt16 := if words.length % 2 = 1 then words ++ [0] else words

/-- Words one behind the other. -/
def wordBytes (words : List UInt16) : Bytes := words.foldr (fun w r => Bytes.ofU16 w ++ r) #[]

/-- The blocks of groups, one behind the other. -/
def groupBytes (groups : List (UInt32 × List (UInt8 × UInt32))) : Bytes :=
  groups.foldr (fun g r => encodeBlocks.encodeBlock g.1 (g.2.map wordOf) ++ r) #[]

theorem length_padded (words : List UInt16) : (padded words).length % 2 = 0 := by
  unfold padded
  split
  · rw [List.length_append, List.length_singleton]
    omega
  · omega

@[simp] theorem size_wordBytes (words : List UInt16) : (wordBytes words).size = 2 * words.length :=
  Bytes.size_pieces Bytes.size_ofU16 words

theorem encodeBlock_eq (page : UInt32) (words : List UInt16) : encodeBlocks.encodeBlock page words =
    Bytes.ofU32 page ++ Bytes.ofU32 (UInt32.ofNat (8 + 2 * (padded words).length)) ++ wordBytes (padded words) := rfl

theorem size_encodeBlock (page : UInt32) (words : List UInt16) :
    (encodeBlocks.encodeBlock page words).size = 8 + 2 * (padded words).length := by
  rw [encodeBlock_eq, Array.size_append, Array.size_append, size_wordBytes]
  rfl

section Decode

variable {image : Bytes} {block : Nat} {page : UInt32}

/-- The entries of words that stand from `pos` on. -/
def placedFrom (block : Nat) (page : UInt32) (pos : Nat) : List UInt16 → List Placed
  | [] => []
  | w :: ws => ⟨block, page, pos, .ofWord w⟩ :: placedFrom block page (pos + 2) ws

theorem decodeBlock_of_carries {words : List UInt16} {pos : Nat} (h : image.Carries pos (wordBytes words)) :
    decodeBlock image block page pos (pos + 2 * words.length) = placedFrom block page pos words := by
  induction words generalizing pos with
  | nil =>
    rw [decodeBlock, if_neg (by simp)]
    rfl
  | cons w ws ih =>
    obtain ⟨hw, hws⟩ := Bytes.carries_append.mp h
    have hstop : pos + 2 * (w :: ws).length = pos + 2 + 2 * ws.length := by
      rw [List.length_cons]
      omega
    rw [decodeBlock, if_pos (by rw [hstop]; omega), hw.u16At?, hstop]
    exact congrArg _ (ih hws)

theorem padded_placedFrom {fs : List (UInt8 × UInt32)} (hpage : ∀ f ∈ fs, pageOf f = page) {pad : List UInt16}
    (hpad : pad = [] ∨ pad = [0]) {rest : List Placed} {others : List (UInt8 × UInt32)}
    (hblock : ∀ e ∈ rest, e.block ≠ block) (hrest : Padded rest others) (pos : Nat) :
    Padded (placedFrom block page pos (fs.map wordOf ++ pad) ++ rest) (fs ++ others) := by
  induction fs generalizing pos with
  | nil =>
    rcases hpad with rfl | rfl
    · exact hrest
    · exact .padding rfl hblock hrest
  | cons f fs ih =>
    obtain ⟨hf, hpage⟩ := List.forall_mem_cons.mp hpage
    refine .listed ⟨?_, ?_⟩ (ih hpage (pos + 2))
    · rw [ofWord_wordOf]
    · rw [ofWord_wordOf, ← hf]
      exact siteOf?_pageOf f

theorem exists_pad (words : List UInt16) : ∃ pad, padded words = words ++ pad ∧ (pad = [] ∨ pad = [0]) := by
  unfold padded
  split
  · exact ⟨[0], rfl, Or.inr rfl⟩
  · exact ⟨[], (List.append_nil words).symm, Or.inl rfl⟩

/-- The head of a block that is written, and its entries. -/
theorem block_of_carries {words : List UInt16} {pos : Nat} (h : image.Carries pos (encodeBlocks.encodeBlock page words))
    (hlt : 8 + 2 * (padded words).length < 2 ^ 32) :
    ∃ size : UInt32, size.toNat = 8 + 2 * (padded words).length ∧ image.u32At? pos = some page ∧
      image.u32At? (pos + 4) = some size ∧
      decodeBlock image pos page (pos + blockHeaderSize) (pos + size.toNat) =
        placedFrom pos page (pos + blockHeaderSize) (padded words) := by
  rw [encodeBlock_eq] at h
  obtain ⟨hhead, hwords⟩ := Bytes.carries_append.mp h
  obtain ⟨hpage, hsize⟩ := Bytes.carries_append.mp hhead
  have hnat : (UInt32.ofNat (8 + 2 * (padded words).length)).toNat = 8 + 2 * (padded words).length := by
    rw [UInt32.toNat_ofNat', Nat.mod_eq_of_lt hlt]
  refine ⟨_, hnat, hpage.u32At?, hsize.u32At?, ?_⟩
  rw [hnat, ← Nat.add_assoc]
  exact decodeBlock_of_carries hwords

theorem groupBytes_cons (page : UInt32) (fs : List (UInt8 × UInt32)) (groups : List (UInt32 × List (UInt8 × UInt32))) :
    groupBytes ((page, fs) :: groups) = encodeBlocks.encodeBlock page (fs.map wordOf) ++ groupBytes groups := rfl

/-- Blocks of groups of fixups, read back. -/
theorem blocks_of_groups {groups : List (UInt32 × List (UInt8 × UInt32))}
    (hpage : ∀ g ∈ groups, ∀ f ∈ g.2, pageOf f = g.1) {pos stop : Nat} (h : image.Carries pos (groupBytes groups))
    (hstop : stop = pos + (groupBytes groups).size) (hlt : (groupBytes groups).size < 2 ^ 32) :
    ∃ es, Blocks image stop pos es ∧ Padded es (groups.flatMap (·.2)) ∧ Quads image stop pos := by
  induction groups generalizing pos with
  | nil =>
    obtain rfl : stop = pos := hstop
    exact ⟨[], .done, .nil, .done⟩
  | cons g groups ih =>
    obtain ⟨page, fs⟩ := g
    obtain ⟨hg, hpages⟩ := List.forall_mem_cons.mp hpage
    rw [groupBytes_cons] at h hstop hlt
    rw [Array.size_append, size_encodeBlock] at hstop hlt
    obtain ⟨hblock, hrest⟩ := Bytes.carries_append.mp h
    rw [size_encodeBlock] at hrest
    obtain ⟨es, hes, hlisted, hquads⟩ := ih hpages hrest (by omega) (by omega)
    obtain ⟨size, hsize, hpageAt, hsizeAt, hentries⟩ := block_of_carries hblock (by omega)
    obtain ⟨pad, hpadded, hpad⟩ := exists_pad (fs.map wordOf)
    have heven := length_padded (fs.map wordOf)
    have hbehind : ∀ e ∈ es, e.block ≠ pos := by
      intro e he
      have hmem : e ∈ (decode image (pos + (8 + 2 * (padded (fs.map wordOf)).length)) stop).1 := by
        rw [decode_of_blocks hes]
        exact he
      have hle := le_decode_block e hmem
      omega
    rw [← hsize] at hes hquads
    refine ⟨_, .block hpageAt hsizeAt (by rw [blockHeaderSize]; omega) (by omega) hes, ?_,
      .block hsizeAt (by omega) (by omega) hquads⟩
    rw [hentries, hpadded, List.flatMap_cons]
    exact padded_placedFrom hg hpad hbehind hlisted _

end Decode

/-! ## Decoding what is written -/

section Table

variable {image : Bytes} {fixups : List (UInt8 × UInt32)}

/-- The fixups by their pages. -/
def groupsOf (fixups : List (UInt8 × UInt32)) : List (UInt32 × List (UInt8 × UInt32)) :=
  (Table.group pageOf wordOf fixups).keys.map fun k => (k, fixups.filter (pageOf · = k))

theorem encodeBlocks_eq (fixups : List (UInt8 × UInt32)) : encodeBlocks fixups = groupBytes (groupsOf fixups) := by
  have hblocks : encodeBlocks.blocks fixups = (Table.group pageOf wordOf fixups).pairs := rfl
  rw [encodeBlocks, hblocks, Table.pairs_group, groupBytes, groupsOf, List.foldr_map, List.foldr_map]

theorem blocks_of_encoded {start stop : Nat} (h : image.Carries start (encodeBlocks fixups))
    (hstop : stop = start + (encodeBlocks fixups).size) (hlt : (encodeBlocks fixups).size < 2 ^ 32) :
    ∃ es, Blocks image stop start es ∧ Padded es (fixups.mergeSort (pageOf · ≤ pageOf ·)) ∧ Quads image stop start := by
  have hpage : ∀ g ∈ groupsOf fixups, ∀ f ∈ g.2, pageOf f = g.1 := by
    intro g hg f hf
    obtain ⟨k, -, rfl⟩ := List.mem_map.mp hg
    exact of_decide_eq_true (List.mem_filter.mp hf).2
  have hsorted : (groupsOf fixups).flatMap (·.2) = fixups.mergeSort (pageOf · ≤ pageOf ·) := by
    rw [groupsOf, List.flatMap_map]
    exact Table.flatMap_keys_group fixups
  rw [encodeBlocks_eq] at h hstop hlt
  rw [← hsorted]
  exact blocks_of_groups hpage h hstop hlt

end Table

/-! ## Applying what is written -/

/-- The bytes of the field that a kind adds to, and how many low bits of the delta it leaves out. -/
def addend? (kind : UInt8) : Option (Nat × Nat) :=
  if kind = Entry.high then some (2, 16)
  else if kind = Entry.low then some (2, 0)
  else if kind = Entry.highLow then some (4, 0)
  else if kind = Entry.dir64 then some (8, 0)
  else none

/-- The field that a fixup adds to. -/
def fieldOf? (f : UInt8 × UInt32) : Option Span := (addend? f.1).map fun a => (f.2.toNat, a.1)

/-- Adds its share of the delta to the field of one fixup. -/
def fixUp (delta : UInt64) (image : Bytes) (f : UInt8 × UInt32) : Bytes :=
  match addend? f.1 with
  | none => image
  | some (width, shift) =>
    match image.fieldAt? f.2.toNat width with
    | none => image
    | some v => image.overwrite f.2.toNat (leBytes width (v + delta.toNat >>> shift)).toArray

/-- Every fixup adds to a field; the fields lie apart, in an image of `size` bytes and beside its table. -/
structure FieldsApart (fixups : List (UInt8 × UInt32)) (size start stop : Nat) : Prop where
  adds : ∀ f ∈ fixups, (addend? f.1).isSome
  inside : ∀ f ∈ fixups, ∀ s ∈ fieldOf? f, s.1 + s.2 ≤ size
  beside : ∀ f ∈ fixups, ∀ s ∈ fieldOf? f, s.1 + s.2 ≤ start ∨ stop ≤ s.1
  apart : fixups.Pairwise fun f g => ∀ s ∈ fieldOf? f, ∀ s' ∈ fieldOf? g, s.Apart s'

/-- Every field has taken its share of the delta, and the other bytes are as they were. -/
structure Relocated (image : Bytes) (fixups : List (UInt8 × UInt32)) (delta : UInt64) (image' : Bytes) : Prop where
  size : image'.size = image.size
  fields : ∀ f ∈ fixups, ∀ width shift, addend? f.1 = some (width, shift) →
    ∃ v, image.fieldAt? f.2.toNat width = some v ∧
      image'.fieldAt? f.2.toNat width = some ((v + delta.toNat >>> shift) % 2 ^ (8 * width))
  others : ∀ i, (∀ f ∈ fixups, ∀ s ∈ fieldOf? f, ¬s.Holds i) → image'[i]? = image[i]?

section Apply

variable {image : Bytes} {family : FixupFamily} {delta : UInt64} {fixups : List (UInt8 × UInt32)}

theorem addend?_cases {kind : UInt8} {a : Nat × Nat} (h : addend? kind = some a) :
    (kind = Entry.high ∧ a = (2, 16)) ∨ (kind = Entry.low ∧ a = (2, 0)) ∨ (kind = Entry.highLow ∧ a = (4, 0)) ∨
      (kind = Entry.dir64 ∧ a = (8, 0)) := by
  unfold addend? at h
  grind

theorem and_of_addend? {kind : UInt8} (h : (addend? kind).isSome) : kind &&& 15 = kind := by
  obtain ⟨a, ha⟩ := Option.isSome_iff_exists.mp h
  rcases addend?_cases ha with ⟨rfl, -⟩ | ⟨rfl, -⟩ | ⟨rfl, -⟩ | ⟨rfl, -⟩ <;> rfl

/-- Every family adds for these kinds. -/
theorem ofKind?_of_addend? {kind : UInt8} {width shift : Nat} (h : addend? kind = some (width, shift)) :
    Fixup.ofKind? family kind = some (.add width shift) := by
  rcases addend?_cases h with ⟨rfl, ha⟩ | ⟨rfl, ha⟩ | ⟨rfl, ha⟩ | ⟨rfl, ha⟩ <;> cases ha <;> rfl

/-- A fixup as a job. -/
theorem fixUp_eq_run {f : UInt8 × UInt32} {width shift : Nat} (h : addend? f.1 = some (width, shift)) (delta : UInt64)
    (image : Bytes) : fixUp delta image f = (⟨.add width shift, f.2.toNat, 0, none⟩ : Job).run delta image := by
  rw [Job.run_add, fixUp, h]
  dsimp only
  cases image.fieldAt? f.2.toNat width <;> rfl

theorem fixUp_of_none {f : UInt8 × UInt32} (h : addend? f.1 = none) (delta : UInt64) (image : Bytes) :
    fixUp delta image f = image := by
  rw [fixUp, h]

theorem fieldOf?_of_addend? {f : UInt8 × UInt32} {width shift : Nat} (h : addend? f.1 = some (width, shift)) :
    fieldOf? f = some (f.2.toNat, width) := by
  rw [fieldOf?, h]
  rfl

@[simp] theorem size_fixUp (delta : UInt64) (image : Bytes) (f : UInt8 × UInt32) :
    (fixUp delta image f).size = image.size := by
  cases h : addend? f.1 with
  | none => rw [fixUp_of_none h]
  | some a => rw [fixUp_eq_run h, Job.size_run]

/-- A fixup changes its own field only. -/
theorem fixUp_outside {f : UInt8 × UInt32} {i : Nat} (h : ∀ s ∈ fieldOf? f, ¬s.Holds i) :
    (fixUp delta image f)[i]? = image[i]? := by
  cases ha : addend? f.1 with
  | none => rw [fixUp_of_none ha]
  | some a =>
    obtain ⟨width, shift⟩ := a
    rw [fixUp_eq_run ha]
    refine Job.run_outside _ _ _ ?_
    rintro ⟨s, hs, hi⟩
    obtain rfl := List.mem_singleton.mp hs
    exact h _ (fieldOf?_of_addend? ha) hi

theorem fixUp_comm {f g : UInt8 × UInt32} (h : ∀ s ∈ fieldOf? f, ∀ s' ∈ fieldOf? g, s.Apart s') (delta : UInt64)
    (image : Bytes) : fixUp delta (fixUp delta image f) g = fixUp delta (fixUp delta image g) f := by
  cases hf : addend? f.1 with
  | none => rw [fixUp_of_none hf, fixUp_of_none hf]
  | some a =>
    cases hg : addend? g.1 with
    | none => rw [fixUp_of_none hg, fixUp_of_none hg]
    | some b =>
      rw [fixUp_eq_run hf, fixUp_eq_run hg, fixUp_eq_run hg, fixUp_eq_run hf]
      refine (Job.run_comm ?_ delta delta image).symm
      intro s hs s' hs'
      obtain rfl := List.mem_singleton.mp hs
      obtain rfl := List.mem_singleton.mp hs'
      exact h _ (fieldOf?_of_addend? hf) _ (fieldOf?_of_addend? hg)

/-- Fixups with fields apart can be done in any order. -/
theorem foldl_fixUp_perm {order : List (UInt8 × UInt32)}
    (h : fixups.Pairwise fun f g => ∀ s ∈ fieldOf? f, ∀ s' ∈ fieldOf? g, s.Apart s') (hp : order.Perm fixups)
    (delta : UInt64) (image : Bytes) : order.foldl (fixUp delta) image = fixups.foldl (fixUp delta) image := by
  refine hp.foldl_eq' (fun f hf g hg image => ?_) image
  by_cases heq : f = g
  · rw [heq]
  · have hsymm : Std.Symm fun f g : UInt8 × UInt32 => ∀ s ∈ fieldOf? f, ∀ s' ∈ fieldOf? g, s.Apart s' :=
      ⟨fun f g hfg s hs s' hs' => (hfg s' hs' s hs).symm⟩
    exact fixUp_comm (h.forall (hp.mem_iff.mp hf) (hp.mem_iff.mp hg) heq) delta image

@[simp] theorem size_foldl_fixUp (delta : UInt64) (image : Bytes) (fs : List (UInt8 × UInt32)) :
    (fs.foldl (fixUp delta) image).size = image.size := by
  induction fs generalizing image with
  | nil => rfl
  | cons f fs ih => rw [List.foldl_cons, ih, size_fixUp]

theorem foldl_fixUp_outside {fs : List (UInt8 × UInt32)} {i : Nat} (h : ∀ f ∈ fs, ∀ s ∈ fieldOf? f, ¬s.Holds i) :
    (fs.foldl (fixUp delta) image)[i]? = image[i]? := by
  induction fs generalizing image with
  | nil => rfl
  | cons f fs ih =>
    obtain ⟨hf, hfs⟩ := List.forall_mem_cons.mp h
    rw [List.foldl_cons, ih hfs, fixUp_outside hf]

/-- The field of a fixup takes its share of the delta, and no other fixup changes it. -/
theorem foldl_fixUp_field {f : UInt8 × UInt32} {fs : List (UInt8 × UInt32)} {width shift : Nat}
    (ha : addend? f.1 = some (width, shift)) (hin : f.2.toNat + width ≤ image.size)
    (h : ∀ g ∈ fs, ∀ s ∈ fieldOf? f, ∀ s' ∈ fieldOf? g, s.Apart s') :
    ∃ v, image.fieldAt? f.2.toNat width = some v ∧
      ((f :: fs).foldl (fixUp delta) image).fieldAt? f.2.toNat width =
        some ((v + delta.toNat >>> shift) % 2 ^ (8 * width)) := by
  obtain ⟨v, hv⟩ := Bytes.exists_fieldAt? hin
  refine ⟨v, hv, ?_⟩
  have hkept : ((f :: fs).foldl (fixUp delta) image).fieldAt? f.2.toNat width =
      (fixUp delta image f).fieldAt? f.2.toNat width := by
    rw [List.foldl_cons]
    refine Bytes.fieldAt?_congr (size_foldl_fixUp _ _ _) fun i hlo hhi => foldl_fixUp_outside ?_
    intro g hg s' hs'
    exact (h g hg _ (fieldOf?_of_addend? ha) s' hs').not_holds ⟨hlo, hhi⟩
  rw [hkept, fixUp, ha]
  dsimp only
  rw [hv, ← Nat.one_shiftLeft]
  exact Bytes.fieldAt?_overwrite _ hin

theorem relocated_foldl {start stop : Nat} (h : FieldsApart fixups image.size start stop) (delta : UInt64) :
    Relocated image fixups delta (fixups.foldl (fixUp delta) image) := by
  refine ⟨size_foldl_fixUp _ _ _, ?_, fun i hi => foldl_fixUp_outside hi⟩
  intro f hf width shift ha
  have hin : f.2.toNat + width ≤ image.size := h.inside f hf _ (fieldOf?_of_addend? ha)
  -- The fixup is drawn to the front, where the fields of all others are apart from its own.
  obtain ⟨before, behind, hsplit⟩ := List.append_of_mem hf
  have hp : (f :: (before ++ behind)).Perm fixups := by
    rw [hsplit]
    exact List.perm_middle.symm
  have hsymm : ∀ {f g : UInt8 × UInt32}, (∀ s ∈ fieldOf? f, ∀ s' ∈ fieldOf? g, s.Apart s') →
      ∀ s ∈ fieldOf? g, ∀ s' ∈ fieldOf? f, s.Apart s' := fun hfg s hs s' hs' => (hfg s' hs' s hs).symm
  have hpair := (hp.pairwise_iff hsymm).mpr h.apart
  rw [← foldl_fixUp_perm h.apart hp]
  exact foldl_fixUp_field ha hin (List.pairwise_cons.mp hpair).1

/-! The entries of a written table, applied. -/

theorem Placed.apply_lists {e : Placed} {f : UInt8 × UInt32} {width shift : Nat} (he : e.Lists f)
    (ha : addend? f.1 = some (width, shift)) (hin : f.2.toNat + width ≤ image.size) :
    e.apply family delta image none = .ok (fixUp delta image f, none) := by
  obtain ⟨v, hv⟩ := Bytes.exists_fieldAt? hin
  have hkind : Fixup.ofKind? family e.entry.kind = some (.add width shift) := by
    rw [he.kind, and_of_addend? (by rw [ha]; rfl)]
    exact ofKind?_of_addend? ha
  have hpatches : e.entry.patches image family delta e.page e.pos none =
      .ok ([⟨f.2.toNat, (leBytes width (v + delta.toNat >>> shift)).toArray⟩], none) := by
    rw [Entry.patches, he.site, hkind]
    show Fixup.patches (.add width shift) image delta (UInt32.ofNat e.pos) f.2.toNat none = _
    rw [Fixup.patches, fieldAt, hv]
    rfl
  have happly := e.apply_sameBlock family delta image none
  rw [hpatches] at happly
  rw [fixUp, ha]
  dsimp only
  rw [hv]
  exact happly

theorem Placed.apply_padding {e : Placed} (he : e.entry = ⟨Entry.absolute, 0⟩) :
    e.apply family delta image none = .ok (image, none) := by
  have hsite : siteOf? e.page 0 = some e.page.toNat := if_pos e.page.toNat_lt
  have hpatches : e.entry.patches image family delta e.page e.pos none = .ok ([], none) := by
    rw [he, Entry.patches, hsite]
    rfl
  have happly := e.apply_sameBlock family delta image none
  rw [hpatches] at happly
  exact happly

theorem applyEntries_padded {es : List Placed} {fs : List (UInt8 × UInt32)} (h : Padded es fs)
    (hadds : ∀ f ∈ fs, (addend? f.1).isSome) (hin : ∀ f ∈ fs, ∀ s ∈ fieldOf? f, s.1 + s.2 ≤ image.size) :
    applyEntries family delta image none es = (fs.foldl (fixUp delta) image, .ok none) := by
  induction h generalizing image with
  | nil => rfl
  | @listed e es f fs he _ ih =>
    obtain ⟨hf, hadds⟩ := List.forall_mem_cons.mp hadds
    obtain ⟨hfin, hin⟩ := List.forall_mem_cons.mp hin
    obtain ⟨a, ha⟩ := Option.isSome_iff_exists.mp hf
    obtain ⟨width, shift⟩ := a
    rw [applyEntries, Placed.apply_lists he ha (hfin _ (fieldOf?_of_addend? ha))]
    exact ih hadds (by rw [size_fixUp]; exact hin)
  | padding he _ _ ih =>
    rw [applyEntries, Placed.apply_padding he]
    exact ih hadds hin

theorem outside_of_padded {es : List Placed} {fs : List (UInt8 × UInt32)} {start stop : Nat} (h : Padded es fs)
    (hadds : ∀ f ∈ fs, (addend? f.1).isSome)
    (hbeside : ∀ f ∈ fs, ∀ s ∈ fieldOf? f, s.1 + s.2 ≤ start ∨ stop ≤ s.1) :
    ∀ e ∈ es, e.Outside family start stop := by
  induction h with
  | nil => exact fun _ he => (nomatch he)
  | @listed e es f fs he _ ih =>
    obtain ⟨hf, hadds⟩ := List.forall_mem_cons.mp hadds
    obtain ⟨hfout, hbeside⟩ := List.forall_mem_cons.mp hbeside
    obtain ⟨a, ha⟩ := Option.isSome_iff_exists.mp hf
    obtain ⟨width, shift⟩ := a
    refine List.forall_mem_cons.mpr ⟨?_, ih hadds hbeside⟩
    intro site fixup hsite hkind _
    rw [he.site] at hsite
    rw [he.kind, and_of_addend? hf, ofKind?_of_addend? ha] at hkind
    cases hsite
    cases hkind
    exact hfout _ (fieldOf?_of_addend? ha)
  | padding he _ _ ih =>
    refine List.forall_mem_cons.mpr ⟨?_, ih hadds hbeside⟩
    intro site fixup _ hkind hnot
    rw [he] at hkind
    cases hkind
    exact absurd rfl hnot

/-- A table in the image that is read to its end, with entries that lie outside it, is applied to its end. -/
theorem apply_decoded {image' : Bytes} {table : DataDirectory} {es : List Placed}
    (hle : table.size ≠ 0 → table.rva.toNat + table.size.toNat ≤ image.size)
    (hdecode : decode image table.rva.toNat (table.rva.toNat + table.size.toNat) = (es, none))
    (hout : ∀ e ∈ es, e.Outside family table.rva.toNat (table.rva.toNat + table.size.toNat))
    (happly : applyEntries family delta image none es = (image', .ok none)) :
    apply image table delta family = (image', .ok ()) := by
  unfold apply
  by_cases hempty : table.size = 0
  · have hnil : es = [] := by
      rw [hempty, decode, if_neg (by simp)] at hdecode
      exact (congrArg Prod.fst hdecode).symm
    rw [hnil, applyEntries, Prod.mk.injEq] at happly
    rw [if_pos hempty]
    exact Prod.ext happly.1 rfl
  · have hle := hle hempty
    rw [if_neg hempty, if_neg (Nat.not_lt_of_le hle),
      walkTable_eq delta (Agree.refl image _ _) (Nat.le_refl _) hle (by rw [hdecode]; exact hout), hdecode, happly]
    rfl

end Apply

/-- A table that is written for fixups is read back as these, sorted by page. If their fields are apart it is
    applied to its end, for any machine and any delta, and that is doing each fixup once, in whatever order. -/
theorem encodeBlocks_applied {image : Bytes} {table : DataDirectory} {fixups : List (UInt8 × UInt32)}
    (hsize : table.size.toNat = (encodeBlocks fixups).size)
    (htable : image.Carries table.rva.toNat (encodeBlocks fixups)) :
    (∃ es, decode image table.rva.toNat (table.rva.toNat + table.size.toNat) = (es, none) ∧
      Padded es (fixups.mergeSort (pageOf · ≤ pageOf ·)) ∧
      Quads image (table.rva.toNat + table.size.toNat) table.rva.toNat) ∧
    (FieldsApart fixups image.size table.rva.toNat (table.rva.toNat + table.size.toNat) → ∀ delta family,
      ∃ image', apply image table delta family = (image', .ok ()) ∧ Relocated image fixups delta image' ∧
        ∀ order : List (UInt8 × UInt32), order.Perm fixups → order.foldl (fixUp delta) image = image') := by
  have hlt : (encodeBlocks fixups).size < 2 ^ 32 := by
    rw [← hsize]
    exact table.size.toNat_lt
  obtain ⟨es, hblocks, hpadded, hquads⟩ :=
    blocks_of_encoded htable (show table.rva.toNat + table.size.toNat = _ by rw [hsize]) hlt
  have hdecode := decode_of_blocks hblocks
  refine ⟨⟨es, hdecode, hpadded, hquads⟩, fun hd delta family => ?_⟩
  refine ⟨fixups.foldl (fixUp delta) image, ?_, relocated_foldl hd delta, fun order hp =>
    foldl_fixUp_perm hd.apart hp delta image⟩
  have hperm : (fixups.mergeSort (pageOf · ≤ pageOf ·)).Perm fixups := List.mergeSort_perm _ _
  have hadds : ∀ f ∈ fixups.mergeSort (pageOf · ≤ pageOf ·), (addend? f.1).isSome :=
    fun f hf => hd.adds f (hperm.mem_iff.mp hf)
  have hout : ∀ e ∈ es, e.Outside family table.rva.toNat (table.rva.toNat + table.size.toNat) :=
    outside_of_padded hpadded hadds fun f hf => hd.beside f (hperm.mem_iff.mp hf)
  have happly : applyEntries family delta image none es = (fixups.foldl (fixUp delta) image, .ok none) := by
    rw [← foldl_fixUp_perm hd.apart hperm]
    exact applyEntries_padded hpadded hadds fun f hf => hd.inside f (hperm.mem_iff.mp hf)
  refine apply_decoded (fun hne => ?_) hdecode hout happly
  have hpos : 0 < table.size.toNat := Nat.pos_of_ne_zero fun h0 => hne (UInt32.toNat_inj.mp h0)
  rw [hsize] at hpos ⊢
  exact htable.le hpos

/-- Fixups on two pages, the second page first. -/
def twoPages : List (UInt8 × UInt32) := [(3, 0x1004), (10, 0x20), (2, 0x1000)]

/-- An image that starts with their table. -/
def twoPagesImage : Bytes := encodeBlocks twoPages ++ Bytes.zeros 0x1100

/-- Their blocks are of twelve bytes each, the first one with a word of padding. -/
theorem encodeBlocks_twoPages : encodeBlocks twoPages =
    #[0, 0, 0, 0, 12, 0, 0, 0, 0x20, 0xA0, 0, 0, 0, 0x10, 0, 0, 12, 0, 0, 0, 0x04, 0x30, 0x00, 0x20] := by
  decide +kernel

theorem fieldOf?_twoPages : twoPages.map fieldOf? = [some (0x1004, 4), some (0x20, 8), some (0x1000, 2)] := rfl

/-- Their fields are apart from each other and from the table of 24 bytes. -/
theorem fieldsApart_twoPages : FieldsApart twoPages (24 + 0x1100) 0 24 := by
  have hmem {f : UInt8 × UInt32} (hf : f ∈ twoPages) : f = (3, 0x1004) ∨ f = (10, 0x20) ∨ f = (2, 0x1000) := by
    simpa [twoPages] using hf
  have hfield {f : UInt8 × UInt32} (hf : f ∈ twoPages) {s : Span} (hs : s ∈ fieldOf? f) :
      s = (0x1004, 4) ∨ s = (0x20, 8) ∨ s = (0x1000, 2) := by
    have hin := List.mem_map_of_mem (f := fieldOf?) hf
    rw [fieldOf?_twoPages, Option.mem_def.mp hs] at hin
    simpa using hin
  have hpair : (twoPages.map fieldOf?).Pairwise fun o o' => ∀ s ∈ o, ∀ s' ∈ o', Span.Apart s s' := by
    rw [fieldOf?_twoPages]
    simp [Span.Apart]
  refine ⟨?_, ?_, ?_, List.pairwise_map.mp hpair⟩
  · intro f hf
    rcases hmem hf with rfl | rfl | rfl <;> rfl
  · intro f hf s hs
    rcases hfield hf hs with rfl | rfl | rfl <;> decide
  · intro f hf s hs
    rcases hfield hf hs with rfl | rfl | rfl <;> decide

theorem twoPages_applied :
    twoPagesImage.Carries 0 (encodeBlocks twoPages) ∧ FieldsApart twoPages twoPagesImage.size 0 24 ∧
      ∃ image', apply twoPagesImage ⟨0, 24⟩ 0x12345 .generic = (image', .ok ()) ∧
        Relocated twoPagesImage twoPages 0x12345 image' := by
  have htable : twoPagesImage.Carries 0 (encodeBlocks twoPages) := (Bytes.carries_self _).append _
  have hsize : twoPagesImage.size = 24 + 0x1100 := by
    rw [twoPagesImage, Array.size_append, encodeBlocks_twoPages, Bytes.size_zeros]
    rfl
  have hapart : FieldsApart twoPages twoPagesImage.size 0 24 := by
    rw [hsize]
    exact fieldsApart_twoPages
  have hlen : (⟨0, 24⟩ : DataDirectory).size.toNat = (encodeBlocks twoPages).size := by
    rw [encodeBlocks_twoPages]
    rfl
  obtain ⟨-, hrun⟩ := encodeBlocks_applied hlen htable
  obtain ⟨image', happly, hrelocated, -⟩ := hrun hapart 0x12345 .generic
  exact ⟨htable, hapart, image', happly, hrelocated⟩

end NetBoot.Image.Relocation
