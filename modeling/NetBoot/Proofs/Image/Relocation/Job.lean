/-
  NetBoot.Proofs.Image.Relocation.Job — the jobs that a relocation table comes down to.

  A job is an entry at its place, a low immediate together with the upper one before it. It succeeds
  or fails whatever its fields hold, and beside these it neither reads nor writes anything:
  - `Job.run_outside`, `Job.run_congr`: it changes its own bytes only and depends on them only, so
    jobs with fields apart can be done in either order (`Job.run_comm`).
  - `Job.run_zero`: by zero it does nothing, whatever its fields are.
  - `Job.run_run`: done twice it is done once by the sum of the deltas. The high half of an address
    is left out of that, since a carry out of the low half is lost (`Job.Whole`).
-/

import NetBoot.Proofs.Bytes
import NetBoot.Proofs.Image.Relocation.Decode
import NetBoot.Proofs.Image.Relocation.Immediate

namespace NetBoot.Image.Relocation

/-! ## Fields that lie apart -/

/-- First byte of a field, and how many there are. -/
abbrev Span := Nat × Nat

namespace Span

def Apart (s s' : Span) : Prop := s.1 + s.2 ≤ s'.1 ∨ s'.1 + s'.2 ≤ s.1

instance (s s' : Span) : Decidable (Apart s s') := inferInstanceAs (Decidable (_ ∨ _))

def Holds (s : Span) (i : Nat) : Prop := s.1 ≤ i ∧ i < s.1 + s.2

theorem Apart.symm {s s' : Span} (h : Apart s s') : Apart s' s := Or.symm h

theorem Apart.not_holds {s s' : Span} (h : Apart s s') {i : Nat} (hi : s.Holds i) : ¬s'.Holds i := by
  unfold Apart at h
  unfold Holds at *
  omega

end Span

namespace Placed

/-- The field an entry applies to; one that does nothing has none. -/
def field? (e : Placed) (family : FixupFamily) : Option Span :=
  match siteOf? e.page e.entry.offset, Fixup.ofKind? family e.entry.kind with
  | some site, some fixup => if fixup = .nothing then none else some (site, fixup.width)
  | _, _ => none

/-- The fields of two entries lie apart. -/
def Apart (family : FixupFamily) (e e' : Placed) : Prop :=
  ∀ s ∈ e.field? family, ∀ s' ∈ e'.field? family, Span.Apart s s'

instance (family : FixupFamily) (e e' : Placed) : Decidable (Apart family e e') :=
  inferInstanceAs (Decidable (∀ s ∈ e.field? family, ∀ s' ∈ e'.field? family, Span.Apart s s'))

theorem field?_eq_some_iff {e : Placed} {family : FixupFamily} {s : Span} :
    e.field? family = some s ↔ ∃ site fixup, siteOf? e.page e.entry.offset = some site ∧
      Fixup.ofKind? family e.entry.kind = some fixup ∧ fixup ≠ .nothing ∧ s = (site, fixup.width) := by
  unfold field?
  cases hs : siteOf? e.page e.entry.offset with
  | none => simp
  | some site =>
    cases hk : Fixup.ofKind? family e.entry.kind with
    | none => simp
    | some fixup =>
      by_cases hn : fixup = .nothing
      · simp [hn]
      · simp [hn, eq_comm]

theorem outside_iff {e : Placed} {family : FixupFamily} {start stop : Nat} :
    e.Outside family start stop ↔ ∀ s ∈ e.field? family, s.1 + s.2 ≤ start ∨ stop ≤ s.1 := by
  constructor
  · intro h s hs
    obtain ⟨site, fixup, hsite, hk, hn, rfl⟩ := field?_eq_some_iff.mp hs
    exact h site fixup hsite hk hn
  · intro h site fixup hsite hk hn
    exact h (site, fixup.width) (field?_eq_some_iff.mpr ⟨site, fixup, hsite, hk, hn, rfl⟩)

instance (e : Placed) (family : FixupFamily) (start stop : Nat) : Decidable (e.Outside family start stop) :=
  decidable_of_iff _ outside_iff.symm

end Placed

/-! ## The Thumb pair in an image -/

section MovPair

variable {image other : Bytes} {site : Nat} {p : Thumb.MovPair}

theorem movPair_eq_some_iff : Thumb.MovPair.at? image site = some p ↔
    image.u16At? site = some p.low.first ∧ image.u16At? (site + 2) = some p.low.second ∧
      image.u16At? (site + 4) = some p.high.first ∧ image.u16At? (site + 6) = some p.high.second := by
  unfold Thumb.MovPair.at?
  constructor
  · intro h
    simp only [Option.bind_eq_bind, Option.bind_eq_some_iff] at h
    obtain ⟨a, ha, b, hb, c, hc, d, hd, h⟩ := h
    cases h
    exact ⟨ha, hb, hc, hd⟩
  · rintro ⟨ha, hb, hc, hd⟩
    rw [ha, hb, hc, hd]
    rfl

theorem movPair_congr (hs : image.size = other.size)
    (h : ∀ i, site ≤ i → i < site + 8 → image[i]? = other[i]?) :
    Thumb.MovPair.at? image site = Thumb.MovPair.at? other site := by
  have hword : ∀ k, k + 2 ≤ 8 → image.u16At? (site + k) = other.u16At? (site + k) := fun k hk => by
    rw [Bytes.u16At?, Bytes.u16At?, Bytes.fieldAt?_congr hs fun i _ _ => h i (by omega) (by omega)]
  have hfirst : image.u16At? site = other.u16At? site := hword 0 (by decide)
  rw [Thumb.MovPair.at?, Thumb.MovPair.at?, hfirst, hword 2 (by decide), hword 4 (by decide), hword 6 (by decide)]

@[simp] theorem size_encode (p : Thumb.MovPair) : p.encode.size = 8 := rfl

theorem movPair_le (h : Thumb.MovPair.at? image site = some p) : site + 8 ≤ image.size :=
  (Bytes.u16At?_eq_some_iff.mp (movPair_eq_some_iff.mp h).2.2.2).1

theorem overwrite_encode (p : Thumb.MovPair) (image : Bytes) (site : Nat) :
    image.overwrite site p.encode =
      (((image.overwrite site (Bytes.ofU16 p.low.first)).overwrite (site + 2) (Bytes.ofU16 p.low.second)).overwrite
        (site + 4) (Bytes.ofU16 p.high.first)).overwrite (site + 6) (Bytes.ofU16 p.high.second) := by
  rw [Thumb.MovPair.encode, Bytes.overwrite_append, Bytes.overwrite_append, Bytes.overwrite_append]
  rfl

theorem movPair_overwrite (p : Thumb.MovPair) (hle : site + 8 ≤ image.size) :
    Thumb.MovPair.at? (image.overwrite site p.encode) site = some p := by
  rw [movPair_eq_some_iff, overwrite_encode]
  refine ⟨?_, ?_, ?_, ?_⟩
  · rw [Bytes.u16At?_overwrite_apart (Or.inl (by omega)), Bytes.u16At?_overwrite_apart (Or.inl (by omega)),
      Bytes.u16At?_overwrite_apart (Or.inl (by omega)), Bytes.u16At?_overwrite _ (by omega)]
  · rw [Bytes.u16At?_overwrite_apart (Or.inl (by omega)), Bytes.u16At?_overwrite_apart (Or.inl (by omega)),
      Bytes.u16At?_overwrite _ (by rw [Bytes.size_overwrite]; omega)]
  · rw [Bytes.u16At?_overwrite_apart (Or.inl (by omega)),
      Bytes.u16At?_overwrite _ (by rw [Bytes.size_overwrite, Bytes.size_overwrite]; omega)]
  · rw [Bytes.u16At?_overwrite _ (by rw [Bytes.size_overwrite, Bytes.size_overwrite, Bytes.size_overwrite]; omega)]

theorem overwrite_movPair (h : Thumb.MovPair.at? image site = some p) : image.overwrite site p.encode = image := by
  obtain ⟨ha, hb, hc, hd⟩ := movPair_eq_some_iff.mp h
  rw [overwrite_encode, Bytes.overwrite_u16At ha, Bytes.overwrite_u16At hb, Bytes.overwrite_u16At hc,
    Bytes.overwrite_u16At hd]

end MovPair

/-! ## Jobs -/

/-- An entry at its place, with the site of the upper immediate that waits for it. -/
structure Job where
  fixup : Fixup
  site : Nat
  entryAt : UInt32
  pending : Option Nat
  deriving DecidableEq, Repr

namespace Job

variable {j j' : Job} {image other : Bytes} {d d' : UInt64}

def run (j : Job) (delta : UInt64) (image : Bytes) : Bytes :=
  match j.fixup.patches image delta j.entryAt j.site j.pending with
  | .ok (patches, _) => Patch.applyAll image patches
  | .error _ => image

/-- The fields a job reads and writes: an upper immediate is left to the job of the low one. -/
def spans (j : Job) : List Span :=
  match j.fixup with
  | .nothing | .riscvHigh => []
  | .riscvLow _ => (j.site, 4) :: (j.pending.map (·, 4)).toList
  | fixup => [(j.site, fixup.width)]

def Covers (j : Job) (i : Nat) : Prop := ∃ s ∈ j.spans, s.Holds i

/-- The fields of two jobs lie apart. -/
def Apart (j j' : Job) : Prop := ∀ s ∈ j.spans, ∀ s' ∈ j'.spans, Span.Apart s s'

/-- A field of at most 64 bits that takes the whole delta. The two words of a pair lie apart. -/
structure Whole (j : Job) : Prop where
  unshifted : ∀ width shift, j.fixup = .add width shift → width ≤ 8 ∧ shift = 0
  spans : j.spans.Pairwise Span.Apart

theorem Apart.not_covers (h : j.Apart j') {i : Nat} (hi : j.Covers i) : ¬j'.Covers i := by
  obtain ⟨s, hs, hi⟩ := hi
  rintro ⟨s', hs', hi'⟩
  exact (h s hs s' hs').not_holds hi hi'

/-! What each kind of job writes. -/

theorem run_riscvHigh (site : Nat) (entryAt : UInt32) (pending : Option Nat) (d : UInt64) (image : Bytes) :
    run ⟨.riscvHigh, site, entryAt, pending⟩ d image = image := by
  simp only [run, Fixup.patches]
  cases fieldAt image site 4 <;> rfl

theorem run_add (width shift site : Nat) (entryAt : UInt32) (pending : Option Nat) (d : UInt64) (image : Bytes) :
    run ⟨.add width shift, site, entryAt, pending⟩ d image =
      (image.fieldAt? site width).elim image fun v =>
        image.overwrite site (leBytes width (v + (d.toNat >>> shift))).toArray := by
  simp only [run, Fixup.patches, fieldAt]
  cases image.fieldAt? site width <;> rfl

theorem run_thumbMov (site : Nat) (entryAt : UInt32) (pending : Option Nat) (d : UInt64) (image : Bytes) :
    run ⟨.thumbMov, site, entryAt, pending⟩ d image =
      (Thumb.MovPair.at? image site).elim image fun p => image.overwrite site (p.relocate d.toUInt32).encode := by
  simp only [run, Fixup.patches]
  cases Thumb.MovPair.at? image site <;> rfl

theorem run_riscvLow (form : RiscV.LowForm) (site : Nat) (entryAt : UInt32) (highSite : Nat) (d : UInt64)
    (image : Bytes) :
    run ⟨.riscvLow form, site, entryAt, some highSite⟩ d image =
      (image.u32At? highSite).elim image fun hi => (image.u32At? site).elim image fun lo =>
        (image.overwrite highSite (Bytes.ofU32 (RiscV.relocatePair form hi lo d.toUInt32).1)).overwrite site
          (Bytes.ofU32 (RiscV.relocatePair form hi lo d.toUInt32).2) := by
  simp only [run, Fixup.patches, fieldAt, Bytes.u32At?]
  cases image.fieldAt? highSite 4 with
  | none => rfl
  | some hi =>
    cases image.fieldAt? site 4 with
    | none => rfl
    | some lo => rfl

/-! A job changes its own fields, and depends on nothing else. -/

theorem getElem?_overwrite_span {b src : Bytes} {pos width i : Nat} (hs : src.size = width)
    (h : ¬Span.Holds (pos, width) i) : (b.overwrite pos src)[i]? = b[i]? := by
  rw [← hs] at h
  exact Bytes.getElem?_overwrite_outside h

@[simp] theorem size_run (j : Job) (d : UInt64) (image : Bytes) : (j.run d image).size = image.size := by
  unfold run
  split
  · exact size_applyAll image _
  · rfl

theorem run_outside (j : Job) (d : UInt64) (image : Bytes) {i : Nat} (h : ¬j.Covers i) :
    (j.run d image)[i]? = image[i]? := by
  obtain ⟨fixup, site, entryAt, pending⟩ := j
  have hspan : ∀ s ∈ spans ⟨fixup, site, entryAt, pending⟩, ¬s.Holds i := fun s hs hi => h ⟨s, hs, hi⟩
  cases fixup with
  | nothing => rfl
  | riscvHigh => rw [run_riscvHigh]
  | add width shift =>
    have hout : ¬Span.Holds (site, width) i := hspan (site, width) List.mem_cons_self
    rw [run_add]
    cases image.fieldAt? site width with
    | none => rfl
    | some v => exact getElem?_overwrite_span (by simp) hout
  | thumbMov =>
    have hout : ¬Span.Holds (site, 8) i := hspan (site, 8) List.mem_cons_self
    rw [run_thumbMov]
    cases Thumb.MovPair.at? image site with
    | none => rfl
    | some p => exact getElem?_overwrite_span (size_encode _) hout
  | riscvLow form =>
    cases pending with
    | none => rfl
    | some highSite =>
      have hout : ¬Span.Holds (site, 4) i := hspan (site, 4) List.mem_cons_self
      have hout' : ¬Span.Holds (highSite, 4) i := hspan (highSite, 4) (List.mem_cons_of_mem _ List.mem_cons_self)
      rw [run_riscvLow]
      cases image.u32At? highSite with
      | none => rfl
      | some hi =>
        cases image.u32At? site with
        | none => rfl
        | some lo =>
          exact (getElem?_overwrite_span (Bytes.size_ofU32 _) hout).trans
            (getElem?_overwrite_span (Bytes.size_ofU32 _) hout')

theorem run_congr (j : Job) (d : UInt64) (hs : image.size = other.size)
    (h : ∀ i, j.Covers i → image[i]? = other[i]?) {i : Nat} (hi : j.Covers i) : (j.run d image)[i]? = (j.run d other)[i]? := by
  obtain ⟨fixup, site, entryAt, pending⟩ := j
  have hspan : ∀ s ∈ spans ⟨fixup, site, entryAt, pending⟩,
      ∀ k, s.1 ≤ k → k < s.1 + s.2 → image[k]? = other[k]? :=
    fun s hmem k h1 h2 => h k ⟨s, hmem, h1, h2⟩
  have hsame : image[i]? = other[i]? := h i hi
  cases fixup with
  | nothing => exact hsame
  | riscvHigh =>
    rw [run_riscvHigh, run_riscvHigh]
    exact hsame
  | add width shift =>
    have hfield : image.fieldAt? site width = other.fieldAt? site width :=
      Bytes.fieldAt?_congr hs (hspan (site, width) List.mem_cons_self)
    rw [run_add, run_add, hfield]
    cases other.fieldAt? site width with
    | none => exact hsame
    | some v => exact Bytes.getElem?_overwrite_congr hs _ hsame
  | thumbMov =>
    have hpair : Thumb.MovPair.at? image site = Thumb.MovPair.at? other site :=
      movPair_congr hs (hspan (site, 8) List.mem_cons_self)
    rw [run_thumbMov, run_thumbMov, hpair]
    cases Thumb.MovPair.at? other site with
    | none => exact hsame
    | some p => exact Bytes.getElem?_overwrite_congr hs _ hsame
  | riscvLow form =>
    cases pending with
    | none => exact hsame
    | some highSite =>
      have hlow : image.u32At? site = other.u32At? site :=
        congrArg _ (Bytes.fieldAt?_congr hs (hspan (site, 4) List.mem_cons_self))
      have hhigh : image.u32At? highSite = other.u32At? highSite :=
        congrArg _ (Bytes.fieldAt?_congr hs (hspan (highSite, 4) (List.mem_cons_of_mem _ List.mem_cons_self)))
      rw [run_riscvLow, run_riscvLow, hlow, hhigh]
      cases other.u32At? highSite with
      | none => exact hsame
      | some hi =>
        cases other.u32At? site with
        | none => exact hsame
        | some lo =>
          refine Bytes.getElem?_overwrite_congr ?_ _ (Bytes.getElem?_overwrite_congr hs _ hsame)
          rw [Bytes.size_overwrite, Bytes.size_overwrite, hs]

/-- Jobs with fields apart can be done in either order. -/
theorem run_comm (h : j.Apart j') (d d' : UInt64) (image : Bytes) :
    j.run d (j'.run d' image) = j'.run d' (j.run d image) := by
  apply Array.ext_getElem?
  intro i
  by_cases hi : j.Covers i
  · have hi' := h.not_covers hi
    rw [run_outside j' _ _ hi']
    exact run_congr j d (size_run j' d' image) (fun k hk => run_outside j' d' image (h.not_covers hk)) hi
  · rw [run_outside j _ _ hi]
    by_cases hi' : j'.Covers i
    · exact (run_congr j' d' (size_run j d image)
        (fun k hk => run_outside j d image fun hk' => h.not_covers hk' hk) hi').symm
    · rw [run_outside j' _ _ hi', run_outside j' _ _ hi', run_outside j _ _ hi]

/-! A job done twice. -/

/-- Sums in a field of at most 64 bits do not see where the delta wraps. -/
theorem wrapped_sum {width : Nat} (hw : width ≤ 8) (v : Nat) (d d' : UInt64) :
    ((v + d.toNat >>> 0) % 1 <<< (8 * width) + d'.toNat >>> 0) % 1 <<< (8 * width) =
      (v + (d + d').toNat >>> 0) % 1 <<< (8 * width) := by
  have hdvd : 2 ^ (8 * width) ∣ 2 ^ 64 := Nat.pow_dvd_pow 2 (by omega)
  rw [Nat.one_shiftLeft, Nat.shiftRight_zero, Nat.shiftRight_zero, Nat.shiftRight_zero, Nat.mod_add_mod,
    UInt64.toNat_add, Nat.add_mod v, Nat.mod_mod_of_dvd _ hdvd, ← Nat.add_mod, Nat.add_assoc]

theorem toUInt32_zero : (0 : UInt64).toUInt32 = 0 := rfl

section Words

variable {b : Bytes} {pos pos' : Nat} (h : pos + 4 ≤ pos' ∨ pos' + 4 ≤ pos)

include h

theorem u32At?_high (v v' : UInt32) (hle : pos' + 4 ≤ b.size) :
    ((b.overwrite pos' (Bytes.ofU32 v)).overwrite pos (Bytes.ofU32 v')).u32At? pos' = some v := by
  rw [Bytes.u32At?_overwrite_apart h.symm, Bytes.u32At?_overwrite _ hle]

theorem overwrite_words (v v' w w' : UInt32) :
    (((b.overwrite pos' (Bytes.ofU32 v)).overwrite pos (Bytes.ofU32 v')).overwrite pos' (Bytes.ofU32 w)).overwrite pos
      (Bytes.ofU32 w') = (b.overwrite pos' (Bytes.ofU32 w)).overwrite pos (Bytes.ofU32 w') := by
  have hsize : ∀ x y : UInt32, (Bytes.ofU32 y).size = (Bytes.ofU32 x).size := fun _ _ => rfl
  have hcomm : ((b.overwrite pos' (Bytes.ofU32 v)).overwrite pos (Bytes.ofU32 v')).overwrite pos' (Bytes.ofU32 w) =
      ((b.overwrite pos' (Bytes.ofU32 v)).overwrite pos' (Bytes.ofU32 w)).overwrite pos (Bytes.ofU32 v') :=
    Bytes.overwrite_comm h
  rw [hcomm, Bytes.overwrite_overwrite (hsize v w), Bytes.overwrite_overwrite (hsize v' w')]

end Words

/-- A job by one delta and then by another is the job by the sum. -/
theorem run_run (h : j.Whole) (d d' : UInt64) (image : Bytes) : j.run d' (j.run d image) = j.run (d + d') image := by
  obtain ⟨fixup, site, entryAt, pending⟩ := j
  cases fixup with
  | nothing => rfl
  | riscvHigh => rw [run_riscvHigh, run_riscvHigh, run_riscvHigh]
  | add width shift =>
    obtain ⟨hwidth, rfl⟩ := h.unshifted width shift rfl
    rw [run_add, run_add, run_add]
    cases hv : image.fieldAt? site width with
    | none => rw [Option.elim_none, hv, Option.elim_none, Option.elim_none]
    | some v =>
      have hle := (Bytes.fieldAt?_eq_some_iff.mp hv).1
      have hsum : leBytes width ((v + d.toNat >>> 0) % 1 <<< (8 * width) + d'.toNat >>> 0) =
          leBytes width (v + (d + d').toNat >>> 0) := leBytes_congr (wrapped_sum hwidth v d d')
      rw [Option.elim_some, Bytes.fieldAt?_overwrite _ hle, Option.elim_some, Option.elim_some,
        Bytes.overwrite_overwrite (by simp), hsum]
  | thumbMov =>
    rw [run_thumbMov, run_thumbMov, run_thumbMov]
    cases hp : Thumb.MovPair.at? image site with
    | none => rw [Option.elim_none, hp, Option.elim_none, Option.elim_none]
    | some p =>
      rw [Option.elim_some, movPair_overwrite _ (movPair_le hp), Option.elim_some, Option.elim_some,
        Bytes.overwrite_overwrite (by rw [size_encode, size_encode]), Thumb.MovPair.relocate_relocate,
        UInt64.toUInt32_add]
  | riscvLow form =>
    cases pending with
    | none => rfl
    | some highSite =>
      have happart : site + 4 ≤ highSite ∨ highSite + 4 ≤ site := by
        have hpair := h.spans
        simpa [spans, Span.Apart] using hpair
      rw [run_riscvLow, run_riscvLow, run_riscvLow]
      cases hhi : image.u32At? highSite with
      | none => rw [Option.elim_none, hhi, Option.elim_none, Option.elim_none]
      | some hi =>
        cases hlo : image.u32At? site with
        | none =>
          rw [Option.elim_some, Option.elim_none, hhi, hlo, Option.elim_some, Option.elim_none, Option.elim_some,
            Option.elim_none]
        | some lo =>
          have hle := (Bytes.u32At?_eq_some_iff.mp hlo).1
          have hle' := (Bytes.u32At?_eq_some_iff.mp hhi).1
          rw [Option.elim_some, Option.elim_some, Option.elim_some, Option.elim_some, u32At?_high happart _ _ hle',
            Option.elim_some, Bytes.u32At?_overwrite _ (by rw [Bytes.size_overwrite]; exact hle), Option.elim_some,
            RiscV.relocatePair_relocatePair, ← UInt64.toUInt32_add, overwrite_words happart]

/-- A delta of zero leaves the fields as they are, also where the two words of a pair overlap: both are read
    before either is written, and each is written as it was read. -/
theorem run_zero (j : Job) (image : Bytes) : j.run 0 image = image := by
  obtain ⟨fixup, site, entryAt, pending⟩ := j
  cases fixup with
  | nothing => rfl
  | riscvHigh => rw [run_riscvHigh]
  | add width shift =>
    have hshift : (0 : UInt64).toNat >>> shift = 0 := Nat.zero_shiftRight shift
    rw [run_add, hshift]
    cases hv : image.fieldAt? site width with
    | none => rfl
    | some v => exact Bytes.overwrite_fieldAt hv
  | thumbMov =>
    rw [run_thumbMov]
    cases hp : Thumb.MovPair.at? image site with
    | none => rfl
    | some p =>
      rw [Option.elim_some, toUInt32_zero, Thumb.MovPair.relocate_zero, overwrite_movPair hp]
  | riscvLow form =>
    cases pending with
    | none => rfl
    | some highSite =>
      rw [run_riscvLow]
      cases hhi : image.u32At? highSite with
      | none => rfl
      | some hi =>
        cases hlo : image.u32At? site with
        | none => rfl
        | some lo =>
          rw [Option.elim_some, Option.elim_some, toUInt32_zero, RiscV.relocatePair_zero, Bytes.overwrite_u32At hhi,
            Bytes.overwrite_u32At hlo]

end Job

end NetBoot.Image.Relocation
