/-
  NetBoot.Proofs.Image.Relocation.Additive — relocating twice is relocating once by the sum.

  Applying an accepted table is doing its jobs one after the other (`jobs`, `applyEntries_eq`), and
  which jobs these are depends neither on the delta nor on what their fields hold. Where all
  fields lie apart from each other and from the table, a relocated image still has the table it had,
  and the second round does the same jobs once more. Each of them can be drawn forward to where it was
  done first, so the two rounds are one by the sum of the deltas (`runAll_runAll`). `apply_additive`
  says so of the whole table, and with it that going back restores every byte and that rebasing an
  image gives the one that was loaded at the other base.
-/

import NetBoot.Image.Mapped
import NetBoot.Proofs.Image.Relocation.Acceptance
import NetBoot.Proofs.Image.Relocation.Job

namespace NetBoot.Image.Relocation

variable {family : FixupFamily} {image other : Bytes} {start stop : Nat}

/-! ## The jobs of a table -/

/-- The jobs of entries, behind an upper immediate that may wait. -/
def jobs (family : FixupFamily) : Option Nat → List Placed → List Job
  | _, [] => []
  | pending, e :: es =>
    match siteOf? e.page e.entry.offset, Fixup.ofKind? family e.entry.kind with
    | some site, some fixup => ⟨fixup, site, UInt32.ofNat e.pos, pending⟩ :: jobs family (fixup.leaves site) es
    | _, _ => []

/-- Does jobs in their order. -/
def runAll (js : List Job) (delta : UInt64) (image : Bytes) : Bytes := js.foldl (fun image j => j.run delta image) image

@[simp] theorem runAll_cons (j : Job) (js : List Job) (delta : UInt64) (image : Bytes) :
    runAll (j :: js) delta image = runAll js delta (j.run delta image) := rfl

@[simp] theorem size_runAll (js : List Job) (delta : UInt64) (image : Bytes) :
    (runAll js delta image).size = image.size := by
  induction js generalizing image with
  | nil => rfl
  | cons j js ih => rw [runAll_cons, ih, Job.size_run]

theorem jobs_cons {e : Placed} {es : List Placed} {pending : Option Nat} {site : Nat} {fixup : Fixup}
    (hs : siteOf? e.page e.entry.offset = some site) (hk : Fixup.ofKind? family e.entry.kind = some fixup) :
    jobs family pending (e :: es) =
      ⟨fixup, site, UInt32.ofNat e.pos, pending⟩ :: jobs family (fixup.leaves site) es := by
  rw [jobs, hs, hk]

/-- A sound entry at its place is a job done. -/
theorem Placed.apply_eq_run {e : Placed} {waiting : Option (Nat × Nat)} (delta : UInt64) (hin : InImage image waiting)
    (hs : e.Sound family image.size) (hf : e.Follows family (waiting.map (·.1))) :
    ∃ site fixup, siteOf? e.page e.entry.offset = some site ∧ Fixup.ofKind? family e.entry.kind = some fixup ∧
      e.apply family delta image waiting =
        .ok ((⟨fixup, site, UInt32.ofNat e.pos, waiting.map (·.2)⟩ : Job).run delta image,
          (fixup.leaves site).map (e.block, ·)) := by
  obtain ⟨pending, rfl⟩ := exists_pending hf.block
  have hhigh : ∀ s, pending = some s → s + 4 ≤ image.size := fun s hs => hin (e.block, s) (by rw [hs]; rfl)
  have hfault := fault?_eq_none_iff_sound.mpr ⟨hs, follows_sameBlock_iff.mp hf⟩
  obtain ⟨site, fixup, hsite, hk, hw, hfits⟩ := Entry.fault?_eq_none_iff.mp hfault
  have hps : ∃ ps, fixup.patches image delta (UInt32.ofNat e.pos) site pending = .ok (ps, fixup.leaves site) := by
    obtain ⟨ps, hps, -⟩ := Fixup.patches_of_fits hw hhigh hfits
    exact ⟨ps, hps⟩
  obtain ⟨ps, hps⟩ := hps
  have hpatches : e.entry.patches image family delta e.page e.pos pending = .ok (ps, fixup.leaves site) := by
    unfold Entry.patches
    rw [hsite, hk]
    dsimp only
    rw [Option.any_some, hw, Bool.and_not_self, if_neg Bool.false_ne_true, hps]
  have hpending : (pending.map (e.block, ·)).map (·.2) = pending := by
    cases pending <;> rfl
  refine ⟨site, fixup, hsite, hk, ?_⟩
  rw [apply_sameBlock, hpatches, hpending, Job.run, hps]
  rfl

/-- Applying sound and paired entries is doing their jobs. -/
theorem applyEntries_eq {es : List Placed} {waiting : Option (Nat × Nat)} (delta : UInt64)
    (hin : InImage image waiting) (hs : ∀ e ∈ es, e.Sound family image.size)
    (hp : PairedFrom family (waiting.map (·.1)) es) :
    applyEntries family delta image waiting es =
      (runAll (jobs family (waiting.map (·.2)) es) delta image, .ok none) := by
  induction es generalizing image waiting with
  | nil =>
    have hnone : waiting = none := Option.map_eq_none_iff.mp (hp.nonempty rfl)
    rw [hnone]
    rfl
  | cons e es ih =>
    obtain ⟨hf, hp⟩ := pairedFrom_cons.mp hp
    obtain ⟨he, hs⟩ := List.forall_mem_cons.mp hs
    obtain ⟨site, fixup, hsite, hk, happly⟩ := Placed.apply_eq_run delta hin he hf
    obtain ⟨image', waiting', happly', hsize, hin', hawaits⟩ := Placed.apply_of_sound delta hin he hf
    rw [happly, Except.ok.injEq, Prod.mk.injEq] at happly'
    obtain ⟨rfl, rfl⟩ := happly'
    have hleft : ((fixup.leaves site).map (e.block, ·)).map (·.2) = fixup.leaves site := by
      cases fixup.leaves site <;> rfl
    rw [applyEntries, happly, jobs_cons hsite hk, runAll_cons]
    dsimp only
    rw [ih hin' (by rw [hsize]; exact hs) (by rw [hawaits]; exact hp), hleft]

/-! ## Fields apart -/

/-- A job works on its own field and on that of the upper immediate before it. -/
theorem Job.mem_spans {j : Job} {s : Span} (hs : s ∈ j.spans) :
    j.pending.map (·, 4) = some s ∨ (j.fixup ≠ .nothing ∧ s = (j.site, j.fixup.width)) := by
  obtain ⟨fixup, site, entryAt, pending⟩ := j
  cases fixup with
  | nothing => exact absurd hs List.not_mem_nil
  | riscvHigh => exact absurd hs List.not_mem_nil
  | add width shift => exact Or.inr ⟨fun h => (nomatch h), List.mem_singleton.mp hs⟩
  | thumbMov => exact Or.inr ⟨fun h => (nomatch h), List.mem_singleton.mp hs⟩
  | riscvLow form =>
    rcases List.mem_cons.mp hs with rfl | hs
    · exact Or.inr ⟨fun h => (nomatch h), rfl⟩
    · exact Or.inl (Option.mem_toList.mp hs)

/-- Only the high half of an address takes a part of the delta. -/
theorem Fixup.unshifted_of_ofKind? {kind : UInt8} {width shift : Nat} (hk : kind ≠ Entry.high)
    (h : Fixup.ofKind? family kind = some (.add width shift)) : width ≤ 8 ∧ shift = 0 := by
  unfold Fixup.ofKind? at h
  rw [if_neg hk] at h
  split at h
  · cases h
  · split at h
    · cases h
      exact ⟨by decide, rfl⟩
    · split at h
      · cases h
        exact ⟨by decide, rfl⟩
      · split at h
        · cases h
          exact ⟨by decide, rfl⟩
        · cases family with
          | generic => cases h
          | thumb =>
            simp only at h
            split at h <;> cases h
          | riscv =>
            simp only at h
            split at h
            · cases h
            · split at h
              · cases h
              · split at h <;> cases h

section Tidy

variable {es : List Placed} {pending : Option Nat}

theorem jobs_spans {j : Job} (hj : j ∈ jobs family pending es) {s : Span} (hs : s ∈ j.spans) :
    pending.map (·, 4) = some s ∨ ∃ e ∈ es, e.field? family = some s := by
  induction es generalizing pending with
  | nil => exact absurd hj List.not_mem_nil
  | cons e es ih =>
    unfold jobs at hj
    split at hj
    · rename_i site fixup hsite hk
      have hfield : fixup ≠ .nothing → e.field? family = some (site, fixup.width) := fun hn =>
        Placed.field?_eq_some_iff.mpr ⟨site, fixup, hsite, hk, hn, rfl⟩
      rcases List.mem_cons.mp hj with rfl | hj
      · rcases Job.mem_spans hs with hpend | ⟨hn, rfl⟩
        · exact Or.inl hpend
        · exact Or.inr ⟨e, List.mem_cons_self, hfield hn⟩
      · rcases ih hj with hleft | ⟨e', he', hfield'⟩
        · refine Or.inr ⟨e, List.mem_cons_self, ?_⟩
          cases fixup with
          | riscvHigh =>
            rw [hfield (fun h => nomatch h), ← hleft]
            rfl
          | _ => cases hleft
        · exact Or.inr ⟨e', List.mem_cons_of_mem e he', hfield'⟩
    · exact absurd hj List.not_mem_nil

/-- Entries with fields apart come down to jobs with fields apart. -/
theorem jobs_tidy (happart : es.Pairwise (Placed.Apart family)) (hhigh : ∀ e ∈ es, e.entry.kind ≠ Entry.high)
    (hpend : ∀ s, pending.map (·, 4) = some s → ∀ e ∈ es, ∀ s' ∈ e.field? family, Span.Apart s s') :
    (jobs family pending es).Pairwise Job.Apart ∧ ∀ j ∈ jobs family pending es, j.Whole := by
  induction es generalizing pending with
  | nil => exact ⟨.nil, fun _ h => (nomatch h)⟩
  | cons e es ih =>
    unfold jobs
    split
    · rename_i site fixup hsite hk
      obtain ⟨hhead, happart⟩ := List.pairwise_cons.mp happart
      obtain ⟨hkind, hhigh⟩ := List.forall_mem_cons.mp hhigh
      have hfield : fixup ≠ .nothing → e.field? family = some (site, fixup.width) := fun hn =>
        Placed.field?_eq_some_iff.mpr ⟨site, fixup, hsite, hk, hn, rfl⟩
      have hleft : ∀ s, (fixup.leaves site).map (·, 4) = some s → e.field? family = some s := by
        intro s hs
        cases fixup with
        | riscvHigh =>
          rw [hfield (fun h => nomatch h), ← hs]
          rfl
        | _ => cases hs
      obtain ⟨hrest, hwhole⟩ := ih happart hhigh fun s hs e' he' s' hs' => hhead e' he' s (hleft s hs) s' hs'
      refine ⟨List.pairwise_cons.mpr ⟨?_, hrest⟩, List.forall_mem_cons.mpr ⟨?_, hwhole⟩⟩
      · intro j hj s hs s' hs'
        rcases jobs_spans hj hs' with hwait | ⟨e', he', hs''⟩
        · -- Only an upper immediate leaves something waiting, and its own job has no field.
          cases fixup with
          | riscvHigh => exact absurd hs List.not_mem_nil
          | _ => cases hwait
        · rcases Job.mem_spans hs with hp | ⟨hn, rfl⟩
          · exact hpend s hp e' (List.mem_cons_of_mem e he') s' hs''
          · exact hhead e' he' _ (hfield hn) s' hs''
      · refine ⟨?_, ?_⟩
        · rintro width shift rfl
          exact Fixup.unshifted_of_ofKind? hkind hk
        · cases fixup with
          | riscvLow form =>
            cases pending with
            | none => exact List.pairwise_singleton _ _
            | some s =>
              refine List.pairwise_pair.mpr (Span.Apart.symm ?_)
              exact hpend (s, 4) rfl e List.mem_cons_self (site, 4) (hfield fun h => nomatch h)
          | nothing => exact .nil
          | riscvHigh => exact .nil
          | add width shift => exact List.pairwise_singleton _ _
          | thumbMov => exact List.pairwise_singleton _ _
    · exact ⟨.nil, fun _ h => (nomatch h)⟩

end Tidy

/-! ## Two rounds -/

section Rounds

variable {j : Job} {js : List Job}

/-- A job can be drawn forward past others with fields apart. -/
theorem run_runAll (h : ∀ j' ∈ js, j.Apart j') (d d' : UInt64) (image : Bytes) :
    j.run d' (runAll js d image) = runAll js d (j.run d' image) := by
  induction js generalizing image with
  | nil => rfl
  | cons j' js ih =>
    obtain ⟨hj', h⟩ := List.forall_mem_cons.mp h
    rw [runAll_cons, runAll_cons, ih h, Job.run_comm hj']

/-- Jobs done one after the other, and then all of them again, are done once by the sum of the deltas. -/
theorem runAll_runAll (happart : js.Pairwise Job.Apart) (hwhole : ∀ j ∈ js, j.Whole) (d d' : UInt64)
    (image : Bytes) : runAll js d' (runAll js d image) = runAll js (d + d') image := by
  induction js generalizing image with
  | nil => rfl
  | cons j js ih =>
    obtain ⟨hj, happart⟩ := List.pairwise_cons.mp happart
    obtain ⟨hw, hwhole⟩ := List.forall_mem_cons.mp hwhole
    calc runAll (j :: js) d' (runAll (j :: js) d image)
      _ = runAll js d' (j.run d' (runAll js d (j.run d image))) := rfl
      _ = runAll js d' (runAll js d (j.run d' (j.run d image))) := by rw [run_runAll hj]
      _ = runAll js d' (runAll js d (j.run (d + d') image)) := by rw [Job.run_run hw]
      _ = runAll js (d + d') (j.run (d + d') image) := ih happart hwhole _

theorem runAll_zero (js : List Job) (image : Bytes) : runAll js 0 image = image := by
  induction js with
  | nil => rfl
  | cons j js ih => rw [runAll_cons, Job.run_zero, ih]

theorem runAll_outside (d : UInt64) (image : Bytes) {i : Nat} (h : ∀ j ∈ js, ¬j.Covers i) :
    (runAll js d image)[i]? = image[i]? := by
  induction js generalizing image with
  | nil => rfl
  | cons j js ih =>
    obtain ⟨hj, h⟩ := List.forall_mem_cons.mp h
    rw [runAll_cons, ih _ h, Job.run_outside j d image hj]

end Rounds

/-! ## The table -/

/-- The entries of a table as it lies in an image. -/
def entriesOf (image : Bytes) (table : DataDirectory) : List Placed :=
  (decode image table.rva.toNat (table.rva.toNat + table.size.toNat)).1

/-- The fields that a table has fixed up lie apart from each other and from the table, and none is the high
    half of an address. -/
structure Separate (image : Bytes) (table : DataDirectory) (family : FixupFamily) : Prop where
  noHigh : ∀ e ∈ entriesOf image table, e.entry.kind ≠ Entry.high
  apart : (entriesOf image table).Pairwise (Placed.Apart family)
  outside : ∀ e ∈ entriesOf image table, e.Outside family table.rva.toNat (table.rva.toNat + table.size.toNat)

section Table

variable {table : DataDirectory}

/-- Jobs leave a table alone that lies beside all fields. -/
theorem agree_runAll (h : ∀ e ∈ entriesOf image table, e.Outside family start stop) (d : UInt64) :
    Agree image (runAll (jobs family none (entriesOf image table)) d image) start stop := by
  refine ⟨size_runAll _ d image, fun i hstart hstop => runAll_outside d image ?_⟩
  rintro j hj ⟨s, hs, hi⟩
  rcases jobs_spans hj hs with hnone | ⟨e, he, hfield⟩
  · cases hnone
  · have hout := Placed.outside_iff.mp (h e he) s hfield
    unfold Span.Holds at hi
    omega

/-- A table that can be applied by some delta is applied by any, to any image that holds it as it is. -/
theorem apply_eq_runAll {delta : UInt64}
    (hout : ∀ e ∈ entriesOf image table, e.Outside family table.rva.toNat (table.rva.toNat + table.size.toNat))
    (hok : (apply image table delta family).2 = .ok ())
    (ha : Agree image other table.rva.toNat (table.rva.toNat + table.size.toNat)) (d : UInt64) :
    apply other table d family = (runAll (jobs family none (entriesOf image table)) d other, .ok ()) := by
  unfold apply at hok ⊢
  by_cases hsize : table.size = 0
  · have hnone : entriesOf image table = [] := by
      rw [entriesOf, hsize, decode, if_neg (by simp)]
    rw [if_pos hsize, hnone]
    rfl
  · rw [if_neg hsize] at hok ⊢
    by_cases hfits : image.size < table.rva.toNat + table.size.toNat
    · rw [if_pos hfits] at hok
      cases hok
    · have hle := Nat.le_of_not_lt hfits
      rw [if_neg hfits, walkTable_eq delta (Agree.refl image _ _) (Nat.le_refl _) hle hout] at hok
      obtain ⟨hending, hsound, hpaired⟩ := (finish_eq_ok_iff (inImage_none image)).mp hok
      rw [← ha.size] at hsound
      rw [if_neg (by rw [ha.size]; exact hfits), walkTable_eq d ha (Nat.le_refl _) hle hout,
        applyEntries_eq d (inImage_none other) hsound hpaired, hending]
      rfl

end Table

/-- An image that has been relocated can be relocated again, to what it had been if it were relocated once by
    the sum of the deltas. Relocated back it is as it was, and rebased it is as if it were loaded at the other
    base. -/
theorem apply_additive {table : DataDirectory} {delta : UInt64} {image' : Bytes} (hsep : Separate image table family)
    (h : apply image table delta family = (image', .ok ())) :
    (∀ delta', apply image' table delta' family = apply image table (delta + delta') family ∧
      (apply image' table delta' family).2 = .ok ()) ∧
    apply image' table (-delta) family = (image, .ok ()) ∧
    ∀ (header : Header) (loaded rebased : MappedImage), loaded.loadDelta header = delta →
      apply image' table (rebased.base - loaded.base) family =
        apply image table (rebased.loadDelta header) family := by
  have hok : (apply image table delta family).2 = .ok () := by rw [h]
  have happlied := fun d => apply_eq_runAll hsep.outside hok (Agree.refl image _ _) d
  have himage' : image' = runAll (jobs family none (entriesOf image table)) delta image := by
    have hrun := happlied delta
    rw [h] at hrun
    exact congrArg Prod.fst hrun
  obtain ⟨happart, hwhole⟩ : (jobs family none (entriesOf image table)).Pairwise Job.Apart ∧
      ∀ j ∈ jobs family none (entriesOf image table), j.Whole :=
    jobs_tidy hsep.apart hsep.noHigh fun _ hs => (nomatch hs)
  have hagain : ∀ d, apply image' table d family =
      (runAll (jobs family none (entriesOf image table)) (delta + d) image, .ok ()) := by
    intro d
    rw [himage', apply_eq_runAll hsep.outside hok (agree_runAll hsep.outside delta) d,
      runAll_runAll happart hwhole]
  have hsum : ∀ d, apply image' table d family = apply image table (delta + d) family := by
    intro d
    rw [hagain, happlied]
  refine ⟨fun d => ⟨hsum d, ?_⟩, ?_, ?_⟩
  · rw [hagain]
  · rw [hagain, UInt64.add_right_neg, runAll_zero]
  · rintro header loaded rebased rfl
    have hbase : loaded.base - header.imageBase + (rebased.base - loaded.base) = rebased.base - header.imageBase := by
      grind
    rw [hsum, MappedImage.loadDelta, MappedImage.loadDelta, hbase]

/-- A pair of immediates, moved by a delta whose low part carries, is moved back to where it was. -/
theorem pairedImage_restored :
    Separate pairedImage pairedTable .riscv ∧ (apply pairedImage pairedTable 0x12345 .riscv).2 = .ok () ∧
      apply (apply pairedImage pairedTable 0x12345 .riscv).1 pairedTable (-0x12345) .riscv = (pairedImage, .ok ()) := by
  have hentries : entriesOf pairedImage pairedTable = pairedEntries := congrArg Prod.fst decode_pairedImage
  have hsep : Separate pairedImage pairedTable .riscv := by
    refine ⟨?_, ?_, ?_⟩
    · rw [hentries]
      decide
    · rw [hentries]
      decide
    · rw [hentries]
      decide
  have hok : (apply pairedImage pairedTable 0x12345 .riscv).2 = .ok () := by
    decide +kernel
  exact ⟨hsep, hok, (apply_additive hsep (Prod.ext rfl hok)).2.1⟩

/-- The high half of an address takes the high half of each delta, and not what the low halves carry: two
    moves by `0x8000` leave it alone, one by `0x10000` does not. -/
example :
    let image : Bytes := #[0x10, 0, 0, 0, 10, 0, 0, 0, 0x00, 0x10] ++ Bytes.zeros 8
    apply (apply image ⟨0, 10⟩ 0x8000 .generic).1 ⟨0, 10⟩ 0x8000 .generic ≠
      apply image ⟨0, 10⟩ 0x10000 .generic := by
  decide +kernel

end NetBoot.Image.Relocation
