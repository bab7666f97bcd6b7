/-
  NetBoot.Proofs.Image.Building — the image that is built for a sample, as the parser reads it.

  The builder writes fields at positions that it counts itself, and the parser reads the format at those
  of its own. They meet in the bytes:
  - The header fields lie apart from each other and before the section table, so all of them are in the
    file in the end, and what none of them covers is zero (`build_header`, `headers_zero`).
  - A section writes its entry of the table and puts its data behind the file; it leaves alone what is
    there (`addSection_written`, `getElem?_addSection`). So every section is there in the end
    (`addSections_written`).
  Then the file is of the format (`conforms_build`), and the header that the parser finds shows the sample.
-/

import Mathlib.Data.List.Forall2
import NetBoot.Image.Sample
import NetBoot.Proofs.Image.Format

namespace NetBoot.Image.Sample

/-! ## Fields written one by one -/

section Writing

variable {raw : Bytes} {fields : List (Nat × Bytes)}

/-- Fields of these positions and lengths lie apart. -/
def Apart (f g : Nat × Nat) : Prop := f.1 + f.2 ≤ g.1 ∨ g.1 + g.2 ≤ f.1

instance (f g : Nat × Nat) : Decidable (Apart f g) := inferInstanceAs (Decidable (_ ∨ _))

/-- The positions of fields and their lengths. -/
def spans (fields : List (Nat × Bytes)) : List (Nat × Nat) := fields.map fun f => (f.1, f.2.size)

@[simp] theorem size_writeAll (raw : Bytes) (fields : List (Nat × Bytes)) : (writeAll raw fields).size = raw.size := by
  unfold writeAll
  induction fields generalizing raw with
  | nil => rfl
  | cons f fields ih => rw [List.foldl_cons, ih, Bytes.size_overwrite]

/-- A byte that no field covers. -/
theorem getElem?_writeAll {i : Nat} (h : ∀ f ∈ spans fields, ¬(f.1 ≤ i ∧ i < f.1 + f.2)) :
    (writeAll raw fields)[i]? = raw[i]? := by
  unfold writeAll
  induction fields generalizing raw with
  | nil => rfl
  | cons f fields ih =>
    obtain ⟨hf, hfields⟩ := List.forall_mem_cons.mp h
    rw [List.foldl_cons, ih hfields]
    exact Bytes.getElem?_overwrite_outside hf

/-- Fields that lie apart are all there when they have been written. -/
theorem writeAll_carries (hapart : (spans fields).Pairwise Apart)
    (hin : ∀ f ∈ spans fields, f.1 + f.2 ≤ raw.size) : ∀ f ∈ fields, (writeAll raw fields).Carries f.1 f.2 := by
  induction fields generalizing raw with
  | nil => exact fun _ hf => (nomatch hf)
  | cons f fields ih =>
    obtain ⟨hf, hapart⟩ := List.pairwise_cons.mp hapart
    obtain ⟨hfin, hin⟩ := List.forall_mem_cons.mp hin
    intro g hg
    rcases List.mem_cons.mp hg with rfl | hg
    · have hfin : g.1 + g.2.size ≤ raw.size := hfin
      refine (Bytes.carries_overwrite hfin).congr fun i hlo hhi => ?_
      have hout : ∀ s ∈ spans fields, ¬(s.1 ≤ i ∧ i < s.1 + s.2) := by
        intro s hs hcover
        have happart : g.1 + g.2.size ≤ s.1 ∨ s.1 + s.2 ≤ g.1 := hf s hs
        omega
      exact getElem?_writeAll hout
    · exact ih hapart (by rw [Bytes.size_overwrite]; exact hin) g hg

end Writing

/-! ## Sections -/

/-- A section and its entry at `pos`, with the data from `low` on. -/
structure Written (b : Bytes) (pos low : Nat) (t : SampleSection) : Prop where
  name : b.Carries pos (Bytes.resize (Bytes.ofString t.name) 8)
  virtualSize : b.Carries (pos + 8) (Bytes.ofU32 t.virtualSize)
  rva : b.Carries (pos + 12) (Bytes.ofU32 t.rva)
  length : b.Carries (pos + 16) (Bytes.ofU32 (UInt32.ofNat t.data.size))
  data : ∃ offset, low ≤ offset ∧ offset + t.data.size ≤ b.size ∧ b.Carries offset t.data ∧
    b.Carries (pos + 20) (Bytes.ofU32 (if t.data.isEmpty then 0 else UInt32.ofNat offset))

section Sections

variable {raw : Bytes} {entry low : Nat} {t : SampleSection}

/-- A file with what has been written, kept elsewhere. -/
theorem Written.mono {b b' : Bytes} {pos : Nat} (h : Written b pos low t) (hsize : b.size ≤ b'.size)
    (hkept : ∀ i, i < b.size → i < pos + 40 ∨ low ≤ i → b'[i]? = b[i]?) : Written b' pos low t := by
  have hhead {k : Nat} {src : Bytes} (hb : b.Carries k src) (hk : k + src.size ≤ pos + 40) : b'.Carries k src := by
    intro i hi
    rw [hkept (k + i) (hb.lt hi) (Or.inl (by omega)), hb i hi]
  obtain ⟨offset, hlow, hend, hdata, hoffset⟩ := h.data
  refine ⟨hhead h.name (by simp), hhead h.virtualSize (by simp), hhead h.rva (by simp),
    hhead h.length (by simp), offset, hlow, Nat.le_trans hend hsize, ?_, hhead hoffset (by simp)⟩
  intro i hi
  rw [hkept (offset + i) (hdata.lt hi) (Or.inr (by omega)), hdata i hi]

/-- One section added. -/
def addSection (raw : Bytes) (entry : Nat) (t : SampleSection) : Bytes :=
  let raw := writeAll raw (sectionFields entry raw.size t) ++ t.data
  Bytes.resize raw (fileAlign raw.size)

theorem addSections_cons (raw : Bytes) (entry : Nat) (t : SampleSection) (r : List SampleSection) :
    addSections raw entry (t :: r) = addSections (addSection raw entry t) (entry + 40) r := rfl

theorem le_fileAlign (n : Nat) : n ≤ fileAlign n := by
  unfold fileAlign fileAlignment
  omega

theorem size_addSection (raw : Bytes) (entry : Nat) (t : SampleSection) :
    (addSection raw entry t).size = fileAlign (raw.size + t.data.size) := by
  rw [addSection, Bytes.size_resize, Array.size_append, size_writeAll]

theorem le_size_addSection (raw : Bytes) (entry : Nat) (t : SampleSection) :
    raw.size + t.data.size ≤ (addSection raw entry t).size := by
  rw [size_addSection]
  exact le_fileAlign _

/-- Filling up the file keeps what is there. -/
theorem getElem?_addSection_of_lt {i : Nat} (hi : i < raw.size + t.data.size) :
    (addSection raw entry t)[i]? = (writeAll raw (sectionFields entry raw.size t) ++ t.data)[i]? := by
  have hlt : i < (writeAll raw (sectionFields entry raw.size t) ++ t.data).size := by
    rw [Array.size_append, size_writeAll]
    exact hi
  have hle := le_fileAlign (writeAll raw (sectionFields entry raw.size t) ++ t.data).size
  rw [addSection, Bytes.getElem?_resize, if_pos (by omega), Array.getElem?_eq_getElem hlt]
  rfl

theorem spans_sectionFields (entry offset : Nat) (t : SampleSection) : spans (sectionFields entry offset t) =
    [(entry, min 8 (Bytes.ofString t.name).size), (entry + 8, 4), (entry + 12, 4), (entry + 16, 4), (entry + 20, 4),
      (entry + 36, 4)] := by
  simp [spans, sectionFields]

/-- The first field of an entry is the name, of at most eight bytes; the others are behind it. -/
theorem sectionSpans_cases {offset : Nat} {f : Nat × Nat} (hf : f ∈ spans (sectionFields entry offset t)) :
    f = (entry, min 8 (Bytes.ofString t.name).size) ∨ entry + 8 ≤ f.1 ∧ f.1 + f.2 ≤ entry + 40 := by
  rw [spans_sectionFields, List.mem_cons] at hf
  refine hf.imp id fun hrest => ?_
  simp only [List.mem_cons, List.not_mem_nil, or_false] at hrest
  rcases hrest with rfl | rfl | rfl | rfl | rfl <;> exact ⟨by simp, by simp⟩

theorem sectionSpans_within {offset : Nat} {f : Nat × Nat} (hf : f ∈ spans (sectionFields entry offset t)) :
    entry ≤ f.1 ∧ f.1 + f.2 ≤ entry + 40 := by
  rcases sectionSpans_cases hf with rfl | hrest
  · dsimp only
    omega
  · omega

theorem sectionSpans_apart (entry offset : Nat) (t : SampleSection) :
    (spans (sectionFields entry offset t)).Pairwise Apart := by
  rw [spans_sectionFields]
  simp only [List.pairwise_cons, List.forall_mem_cons, List.not_mem_nil, false_implies, implies_true, and_true,
    List.Pairwise.nil, Apart]
  omega

/-- A section changes its own entry of the table, and no other byte of the file. -/
theorem getElem?_addSection {i : Nat} (hi : i < raw.size) (h : ¬(entry ≤ i ∧ i < entry + 40)) :
    (addSection raw entry t)[i]? = raw[i]? := by
  rw [getElem?_addSection_of_lt (by omega), Array.getElem?_append, if_pos (by simpa using hi)]
  refine getElem?_writeAll fun f hf hcover => ?_
  have hwithin := sectionSpans_within hf
  omega

/-- What is written for a section is in the file. -/
theorem carries_addSection {k : Nat} {src : Bytes}
    (h : (writeAll raw (sectionFields entry raw.size t) ++ t.data).Carries k src)
    (hk : k + src.size ≤ raw.size + t.data.size) : (addSection raw entry t).Carries k src :=
  h.congr fun i _ hhi => getElem?_addSection_of_lt (by omega)

theorem sectionFields_carries (hin : entry + 40 ≤ raw.size) {f : Nat × Bytes}
    (hf : f ∈ sectionFields entry raw.size t) : (addSection raw entry t).Carries f.1 f.2 := by
  have hspan : (f.1, f.2.size) ∈ spans (sectionFields entry raw.size t) := List.mem_map.mpr ⟨f, hf, rfl⟩
  have hwithin := sectionSpans_within hspan
  refine carries_addSection ((writeAll_carries (sectionSpans_apart _ _ _) (fun g hg => ?_) f hf).append _) (by omega)
  have hwithin := sectionSpans_within hg
  omega

/-- The name is written as far as it goes, and what is behind it has been zero. -/
theorem addSection_name (hin : entry + 40 ≤ raw.size) (hzero : ∀ i, entry ≤ i → i < entry + 40 → raw[i]? = some 0) :
    (addSection raw entry t).Carries entry (Bytes.resize (Bytes.ofString t.name) 8) := by
  intro i hi
  rw [Bytes.size_resize] at hi
  rw [Bytes.getElem?_resize, if_pos hi]
  by_cases hshort : i < (Bytes.ofString t.name).size
  · have hname : (entry, (Bytes.ofString t.name).extract 0 8) ∈ sectionFields entry raw.size t := by
      simp [sectionFields]
    rw [sectionFields_carries hin hname i (by simp; omega), Array.getElem?_extract, if_pos (by omega), Nat.zero_add,
      Array.getElem?_eq_getElem hshort]
    rfl
  · have hout : ∀ f ∈ spans (sectionFields entry raw.size t), ¬(f.1 ≤ entry + i ∧ entry + i < f.1 + f.2) := by
      intro f hf hcover
      rcases sectionSpans_cases hf with rfl | hrest
      · dsimp only at hcover
        omega
      · omega
    rw [getElem?_addSection_of_lt (by omega), Array.getElem?_append, if_pos (by rw [size_writeAll]; omega),
      getElem?_writeAll hout, hzero _ (by omega) (by omega), Array.getElem?_eq_none (by omega)]
    rfl

/-- The entry of a section, behind which its data is put. -/
theorem addSection_written (hlow : low ≤ raw.size) (hin : entry + 40 ≤ raw.size)
    (hzero : ∀ i, entry ≤ i → i < entry + 40 → raw[i]? = some 0) : Written (addSection raw entry t) entry low t := by
  have hword {k : Nat} {v : UInt32} (h : (k, Bytes.ofU32 v) ∈ sectionFields entry raw.size t) :
      (addSection raw entry t).Carries k (Bytes.ofU32 v) := sectionFields_carries hin h
  have hdata : (addSection raw entry t).Carries raw.size t.data := by
    have hbehind := (Bytes.carries_self t.data).prepend (writeAll raw (sectionFields entry raw.size t))
    rw [size_writeAll, Nat.add_zero] at hbehind
    exact carries_addSection hbehind (Nat.le_refl _)
  exact {
    name := addSection_name hin hzero
    virtualSize := hword (by simp [sectionFields])
    rva := hword (by simp [sectionFields])
    length := hword (by simp [sectionFields])
    data := ⟨raw.size, hlow, le_size_addSection raw entry t, hdata, hword (by simp [sectionFields])⟩ }

/-- Sections change their entries of the table, and no other byte of the file. -/
theorem getElem?_addSections {l : List SampleSection} {i : Nat} (hi : i < raw.size)
    (h : i < entry ∨ entry + 40 * l.length ≤ i) : (addSections raw entry l)[i]? = raw[i]? := by
  induction l generalizing raw entry with
  | nil => rfl
  | cons t l ih =>
    rw [List.length_cons] at h
    have hsize := le_size_addSection raw entry t
    rw [addSections_cons, ih (by omega) (by omega), getElem?_addSection hi (by omega)]

theorem size_addSections (raw : Bytes) (entry : Nat) (l : List SampleSection) :
    (addSections raw entry l).size = l.foldl (fun n t => fileAlign (n + t.data.size)) raw.size := by
  induction l generalizing raw entry with
  | nil => rfl
  | cons t l ih => rw [addSections_cons, ih, size_addSection, List.foldl_cons]

theorem le_size_addSections (raw : Bytes) (entry : Nat) (l : List SampleSection) :
    raw.size ≤ (addSections raw entry l).size := by
  induction l generalizing raw entry with
  | nil => exact Nat.le_refl _
  | cons t l ih =>
    have hsize := le_size_addSection raw entry t
    have hrest := ih (addSection raw entry t) (entry + 40)
    rw [addSections_cons]
    omega

/-- Every section that is added is there in the end, with its entry at its place of the table. -/
theorem addSections_written {l : List SampleSection} (hend : entry + 40 * l.length ≤ low) (hlow : low ≤ raw.size)
    (hzero : ∀ i, entry ≤ i → i < low → raw[i]? = some 0) {k : Nat} {t : SampleSection} (hk : l[k]? = some t) :
    Written (addSections raw entry l) (entry + 40 * k) low t := by
  induction l generalizing raw entry k with
  | nil => simp at hk
  | cons t' l ih =>
    rw [List.length_cons] at hend
    have hsize := le_size_addSection raw entry t'
    rw [addSections_cons]
    cases k with
    | zero =>
      obtain rfl : t' = t := by simpa using hk
      refine (addSection_written hlow (by omega) fun i hlo hhi => hzero i hlo (by omega)).mono
        (le_size_addSections _ _ _) fun i hi hout => ?_
      exact getElem?_addSections hi (by omega)
    | succ k =>
      have hpos : entry + 40 * (k + 1) = entry + 40 + 40 * k := by omega
      rw [hpos]
      refine ih (by omega) (by omega) (fun i hlo hhi => ?_) (by simpa using hk)
      rw [getElem?_addSection (by omega) (by omega)]
      exact hzero i (by omega) hhi

end Sections

/-! ## The headers -/

/-- The positions of the header fields and their lengths, with or without a directory for the table. -/
def headerSpans (form : OptionalForm) (tabled : Bool) : List (Nat × Nat) :=
  [(0, 2), (60, 4), (64, 4), (68, 2), (70, 2), (84, 2), (86, 2)] ++
    ([(0, 2),
      match form with
      | .pe32 => (28, 4)
      | .pe32Plus => (24, 8),
      (16, 4), (32, 4), (36, 4), (56, 4), (60, 4), (68, 2), (form.directories - 4, 4)] ++
      if tabled then [(form.directories + 40, 4), (form.directories + 44, 4)] else []).map
      fun (pos, len) => (optionalOffset + pos, len)

theorem headerSpans_apart : ∀ form tabled, (headerSpans form tabled).Pairwise Apart := by
  intro form tabled
  cases form <;> cases tabled <;> decide

/-- The header fields end before the section table. -/
theorem headerSpans_le : ∀ form tabled, ∀ f ∈ headerSpans form tabled,
    f.1 + f.2 ≤ optionalOffset + form.directories + 128 := by
  intro form tabled
  cases form <;> cases tabled <;> decide

/-- Without a table its directory is left out. -/
theorem headerSpans_directory : ∀ form, ∀ f ∈ headerSpans form false,
    Apart f (optionalOffset + form.directories + 44, 4) := by
  intro form
  cases form <;> decide

section Headers

variable {s : Sample}

theorem spans_headerFields (s : Sample) : spans s.headerFields = headerSpans s.form s.table.isSome := by
  unfold headerFields optionalFields
  cases s.form <;> cases s.table <;> rfl

theorem sectionTableOffset_eq (s : Sample) : s.sectionTableOffset = optionalOffset + s.form.directories + 128 := by
  rw [sectionTableOffset, optionalSize, DataDirectory.entrySize, Nat.add_assoc]

theorem sectionTableOffset_le (s : Sample) : s.sectionTableOffset ≤ 328 := by
  rw [sectionTableOffset_eq]
  cases s.form <;> decide

/-- The headers of a sample, before its sections are added. -/
def headers (s : Sample) : Bytes := writeAll (Bytes.zeros dataStart) s.headerFields

@[simp] theorem size_headers (s : Sample) : s.headers.size = 1024 := by
  rw [headers, size_writeAll, Bytes.size_zeros]
  rfl

theorem build_eq (s : Sample) : s.build = addSections s.headers s.sectionTableOffset s.allSections := rfl

theorem le_size_build (s : Sample) : 1024 ≤ s.build.size := by
  rw [build_eq, ← size_headers s]
  exact le_size_addSections _ _ _

/-- What stands in the headers is left alone by the sections. -/
theorem carries_build {k : Nat} {src : Bytes} (h : s.headers.Carries k src) (hk : k + src.size ≤ s.sectionTableOffset) :
    s.build.Carries k src := by
  intro i hi
  rw [build_eq, getElem?_addSections (h.lt hi) (Or.inl (by omega)), h i hi]

theorem headers_carries (s : Sample) : ∀ f ∈ s.headerFields, s.headers.Carries f.1 f.2 := by
  have hle := sectionTableOffset_le s
  refine writeAll_carries ?_ ?_
  · rw [spans_headerFields]
    exact headerSpans_apart _ _
  · intro f hf
    rw [spans_headerFields] at hf
    have hend := headerSpans_le _ _ f hf
    rw [← sectionTableOffset_eq] at hend
    rw [Bytes.size_zeros, dataStart]
    omega

/-- Every header field is in the file. -/
theorem build_header {f : Nat × Bytes} (hf : f ∈ s.headerFields) : s.build.Carries f.1 f.2 := by
  refine carries_build (headers_carries s f hf) ?_
  rw [sectionTableOffset_eq]
  refine headerSpans_le s.form s.table.isSome (f.1, f.2.size) ?_
  rw [← spans_headerFields]
  exact List.mem_map.mpr ⟨f, hf, rfl⟩

/-- What no header field covers is zero. -/
theorem headers_zero {i : Nat} (hi : i < 1024)
    (h : ∀ f ∈ headerSpans s.form s.table.isSome, ¬(f.1 ≤ i ∧ i < f.1 + f.2)) : s.headers[i]? = some 0 := by
  rw [← spans_headerFields] at h
  rw [headers, getElem?_writeAll h, Bytes.getElem?_zeros]
  exact if_pos hi

/-- Every section is in the file. -/
theorem build_section (hcount : s.allSections.length ≤ 17) {k : Nat} {t : SampleSection}
    (hk : s.allSections[k]? = some t) : Written s.build (s.sectionTableOffset + 40 * k) 1024 t := by
  have hle := sectionTableOffset_le s
  rw [build_eq]
  refine addSections_written (by omega) (Nat.le_of_eq (size_headers s).symm) (fun i hlo hhi => headers_zero hhi ?_) hk
  intro f hf
  have hend := headerSpans_le _ _ f hf
  rw [← sectionTableOffset_eq] at hend
  omega

/-- Without a relocation table the directory for it says that there is none. -/
theorem build_directory (h : s.table = none) :
    s.build.Carries (optionalOffset + s.form.directories + 44) (Bytes.ofU32 0) := by
  have hle := sectionTableOffset_le s
  have hoffset := sectionTableOffset_eq s
  refine carries_build (fun i hi => ?_) (by rw [Bytes.size_ofU32]; omega)
  rw [Bytes.size_ofU32] at hi
  have hzero : (Bytes.ofU32 0)[i]? = some 0 := by
    have hbytes : Bytes.ofU32 0 = Bytes.zeros 4 := rfl
    rw [hbytes, Bytes.getElem?_zeros, if_pos hi]
  rw [hzero]
  refine headers_zero (by omega) ?_
  rw [h]
  intro f hf
  have happart : f.1 + f.2 ≤ optionalOffset + s.form.directories + 44 ∨
      optionalOffset + s.form.directories + 44 + 4 ≤ f.1 := headerSpans_directory s.form f hf
  omega

/-! The fields that the parser reads. -/

theorem header16 {k : Nat} {v : UInt16} (h : (k, Bytes.ofU16 v) ∈ s.headerFields) : field s.build k 2 = v.toNat :=
  field_of_u16 (build_header h)

theorem header32 {k : Nat} {v : UInt32} (h : (k, Bytes.ofU32 v) ∈ s.headerFields) : field s.build k 4 = v.toNat :=
  field_of_u32 (build_header h)

/-- A field of the optional header is one of the headers. -/
theorem mem_headerFields {f : Nat × Bytes} (hf : f ∈ s.optionalFields) : (optionalOffset + f.1, f.2) ∈ s.headerFields :=
  List.mem_append_right _ (List.mem_map.mpr ⟨f, hf, rfl⟩)

theorem signature_build (s : Sample) : Format.signature s.build = 64 := by
  have hmem : (60, Bytes.ofU32 (UInt32.ofNat peOffset)) ∈ s.headerFields := by
    simp [headerFields, signatureOffsetField]
  exact header32 hmem

theorem optional_build (s : Sample) : Format.optional s.build = optionalOffset := by
  rw [Format.optional, signature_build]
  rfl

theorem optionalSize_build (s : Sample) : Format.optionalSize s.build = s.optionalSize := by
  have hmem : (84, Bytes.ofU16 (UInt16.ofNat s.optionalSize)) ∈ s.headerFields := by
    simp [headerFields, peOffset]
  rw [Format.optionalSize, signature_build, header16 hmem]
  unfold optionalSize
  cases s.form <;> rfl

theorem table_build (s : Sample) : Format.table s.build = s.sectionTableOffset := by
  rw [Format.table, optional_build, optionalSize_build]
  rfl

theorem sectionCount_build (hcount : s.allSections.length ≤ 17) :
    Format.sectionCount s.build = s.allSections.length := by
  have hmem : (70, Bytes.ofU16 (UInt16.ofNat s.allSections.length)) ∈ s.headerFields := by
    simp [headerFields, peOffset]
  rw [Format.sectionCount, signature_build, header16 hmem, UInt16.toNat_ofNat', Nat.mod_eq_of_lt (by omega)]

theorem optional16 {k : Nat} {v : UInt16} (h : (k, Bytes.ofU16 v) ∈ s.optionalFields) :
    field s.build (Format.optional s.build + k) 2 = v.toNat := by
  rw [optional_build]
  exact header16 (mem_headerFields h)

theorem optional32 {k : Nat} {v : UInt32} (h : (k, Bytes.ofU32 v) ∈ s.optionalFields) :
    field s.build (Format.optional s.build + k) 4 = v.toNat := by
  rw [optional_build]
  exact header32 (mem_headerFields h)

theorem fixedSize_eq (form : OptionalForm) : (Format.layout form).fixedSize = form.directories := by
  cases form <;> rfl

theorem directoryCount_build (s : Sample) : Format.directoryCount s.build s.form = s.directoryCount.toNat := by
  have hmem : (s.form.directories - 4, Bytes.ofU32 s.directoryCount) ∈ s.optionalFields := by
    simp [optionalFields]
  have hpos : Format.optional s.build + s.form.directories - 4 =
      Format.optional s.build + (s.form.directories - 4) := by
    rw [optional_build]
    cases s.form <;> rfl
  rw [Format.directoryCount, fixedSize_eq, hpos, optional32 hmem]

theorem conforms_build (hmachine : s.machine = Machine.native.code)
    (hsubsystem : s.subsystem = OptionalHeader.efiApplication) (hcount : s.allSections.length ≤ 17)
    (hentry : s.entry < s.sizeOfImage) (hheaders : s.headerSize ≤ s.sizeOfImage)
    (hfile : s.headerSize.toNat ≤ s.build.size) : Format.Conforms s.build {} s.form := by
  have hsize := le_size_build s
  have htable := sectionTableOffset_le s
  have hmz : (0, Bytes.ofU16 dosMagic) ∈ s.headerFields := by simp [headerFields]
  have hpe : (64, Bytes.ofU32 peSignature) ∈ s.headerFields := by simp [headerFields, peOffset]
  have hcode : (68, Bytes.ofU16 s.machine) ∈ s.headerFields := by simp [headerFields, peOffset]
  have hmagic : (0, Bytes.ofU16 s.form.magic) ∈ s.optionalFields := by simp [optionalFields]
  have hsub : (68, Bytes.ofU16 s.subsystem) ∈ s.optionalFields := by simp [optionalFields]
  have hheader : (60, Bytes.ofU32 s.headerSize) ∈ s.optionalFields := by simp [optionalFields]
  have himage : (56, Bytes.ofU32 s.sizeOfImage) ∈ s.optionalFields := by simp [optionalFields]
  have hpoint : (16, Bytes.ofU32 s.entry) ∈ s.optionalFields := by simp [optionalFields]
  refine ⟨by omega, header16 hmz, ?_, ?_, ?_, ?_, ?_, ?_, ?_, ?_, ?_, ?_, ?_⟩
  · rw [table_build]
    omega
  · rw [signature_build]
    exact header32 hpe
  · rw [signature_build, header16 hcode, hmachine]
  · have hread := optional16 hmagic
    rw [Nat.add_zero] at hread
    rw [hread]
    cases s.form <;> rfl
  · rw [optionalSize_build, fixedSize_eq, optionalSize]
    omega
  · intro _
    rw [optionalSize_build, fixedSize_eq, optionalSize, DataDirectory.entrySize]
    omega
  · intro _
    rw [optional16 hsub, hsubsystem]
    rfl
  · rw [optional32 hheader]
    exact hfile
  · rw [optional32 hheader, optional32 himage]
    exact UInt32.le_iff_toNat_le.mp hheaders
  · rw [optional32 hpoint, optional32 himage]
    exact UInt32.lt_iff_toNat_lt.mp hentry
  · rw [table_build, sectionCount_build hcount]
    omega

end Headers

/-! ## What the parser finds -/

/-- A section as the parser finds it: its name cut or filled up to eight bytes, and its data in the file. -/
structure ShowsSection (raw : Bytes) (t : SampleSection) (d : ImageSection) : Prop where
  name : d.name = Bytes.resize (Bytes.ofString t.name) 8
  rva : d.virtualAddress = t.rva
  virtualSize : d.virtualSize = t.virtualSize
  length : d.rawSize.toNat = t.data.size
  data : raw.extract d.rawOffset.toNat (d.rawOffset.toNat + t.data.size) = t.data

/-- A header that says what the sample is. -/
structure Shows (s : Sample) (h : Header) : Prop where
  entry : h.entryRva = s.entry
  base : h.imageBase = s.imageBase
  alignment : h.sectionAlignment = s.sectionAlignment
  imageSize : h.imageSize = s.sizeOfImage
  headerSize : h.headerSize = s.headerSize
  form : h.isPe32Plus = true ↔ s.form = .pe32Plus
  sections : List.Forall₂ (ShowsSection s.build) s.allSections h.sections
  reloc : ∀ d, h.reloc = some d ↔ ∃ t, s.table = some t ∧ t.size ≠ 0 ∧ d.rva = s.relocRva ∧ d.size.toNat = t.size

section Shows

variable {s : Sample} {h : Header}

theorem showsSection_of_written {b : Bytes} {pos low : Nat} {t : SampleSection} {d : ImageSection}
    (hlt : b.size < 0x100000000) (hw : Written b pos low t) (hd : Format.DescribesSection b pos d) :
    ShowsSection b t d := by
  obtain ⟨offset, -, hend, hdata, hoffset⟩ := hw.data
  refine ⟨?_, ?_, ?_, ?_, ?_⟩
  · have hname := hw.name.extract
    rw [Bytes.size_resize] at hname
    rw [hd.name, hname]
  · exact UInt32.toNat_inj.mp (hd.virtualAddress.trans (field_of_u32 hw.rva))
  · exact UInt32.toNat_inj.mp (hd.virtualSize.trans (field_of_u32 hw.virtualSize))
  · rw [hd.rawSize, field_of_u32 hw.length, UInt32.toNat_ofNat', Nat.mod_eq_of_lt (by omega)]
  · by_cases hempty : t.data.isEmpty = true
    · rw [Array.isEmpty_iff.mp hempty]
      exact Array.extract_empty_of_stop_le_start (Nat.le_refl _)
    · have hplace : d.rawOffset.toNat = offset := by
        rw [hd.rawOffset, field_of_u32 hoffset, if_neg hempty, UInt32.toNat_ofNat', Nat.mod_eq_of_lt (by omega)]
      rw [hplace]
      exact hdata.extract

theorem sections_of_describes (hcount : s.allSections.length ≤ 17) (hlt : s.build.size < 0x100000000)
    (hd : Format.Describes s.build {} s.form h) : List.Forall₂ (ShowsSection s.build) s.allSections h.sections := by
  have hlen : s.allSections.length = h.sections.length := by rw [hd.count, sectionCount_build hcount]
  refine List.forall₂_iff_get.mpr ⟨hlen, fun i hi hi' => ?_⟩
  have hentry := hd.sections i _ (List.getElem?_eq_getElem hi')
  rw [table_build] at hentry
  exact showsSection_of_written hlt (build_section hcount (List.getElem?_eq_getElem hi)) hentry

/-- The table is among the data of the sections. -/
theorem size_table_le (hcount : s.allSections.length ≤ 17) {t : Bytes} (ht : s.table = some t) :
    t.size ≤ s.build.size := by
  have hlast : s.allSections[s.sections.length]? = some ⟨".reloc", s.relocRva, UInt32.ofNat t.size, t⟩ := by
    simp [allSections, ht]
  obtain ⟨offset, -, hend, -, -⟩ := (build_section hcount hlast).data
  exact Nat.le_trans (Nat.le_add_left _ _) hend

theorem base_of_describes (hbase : s.form = .pe32 → s.imageBase < 0x100000000)
    (hd : Format.Describes s.build {} s.form h) : h.imageBase = s.imageBase := by
  refine UInt64.toNat_inj.mp (hd.imageBase.trans ?_)
  cases hform : s.form with
  | pe32 =>
    have hlt : s.imageBase.toNat < 0x100000000 := UInt64.lt_iff_toNat_lt.mp (hbase hform)
    have hmem : (28, Bytes.ofU32 s.imageBase.toUInt32) ∈ s.optionalFields := by simp [optionalFields, hform]
    have hread := optional32 hmem
    rw [UInt64.toNat_toUInt32, Nat.mod_eq_of_lt hlt] at hread
    exact hread
  | pe32Plus =>
    have hmem : (24, Bytes.ofU64 s.imageBase) ∈ s.optionalFields := by simp [optionalFields, hform]
    rw [optional_build]
    exact field_of_u64 (build_header (mem_headerFields hmem))

theorem reloc_of_describes (hcount : s.allSections.length ≤ 17) (hdirectories : 6 ≤ s.directoryCount)
    (hlt : s.build.size < 0x100000000) (hd : Format.Describes s.build {} s.form h) (d : DataDirectory) :
    h.reloc = some d ↔ ∃ t, s.table = some t ∧ t.size ≠ 0 ∧ d.rva = s.relocRva ∧ d.size.toNat = t.size := by
  have hsix : 5 < s.directoryCount.toNat := UInt32.le_iff_toNat_le.mp hdirectories
  have hplace : Format.directory s.build s.form = Format.optional s.build + (s.form.directories + 40) := by
    rw [Format.directory, fixedSize_eq, Nat.add_assoc]
  rw [hd.reloc, directoryCount_build, hplace]
  cases ht : s.table with
  | none =>
    have hnone : field s.build (Format.optional s.build + (s.form.directories + 40) + 4) 4 = 0 := by
      rw [optional_build]
      exact field_of_u32 (build_directory ht)
    simp [hnone]
  | some t =>
    have hrva : (s.form.directories + 40, Bytes.ofU32 s.relocRva) ∈ s.optionalFields := by
      simp [optionalFields, ht, Header.relocationDirectory, DataDirectory.entrySize]
    have hlen : (s.form.directories + 40 + 4, Bytes.ofU32 (UInt32.ofNat t.size)) ∈ s.optionalFields := by
      simp [optionalFields, ht, Header.relocationDirectory, DataDirectory.entrySize]
    have hle := size_table_le hcount ht
    have hsize := optional32 hlen
    rw [UInt32.toNat_ofNat', Nat.mod_eq_of_lt (by omega), ← Nat.add_assoc] at hsize
    rw [optional32 hrva, hsize, UInt32.toNat_inj]
    simp [hsix]

/-- The header that is found in an image shows what it was built from. -/
theorem shows_of_parse (hconforms : Format.Conforms s.build {} s.form) (hcount : s.allSections.length ≤ 17)
    (hdirectories : 6 ≤ s.directoryCount) (hlt : s.build.size < 0x100000000)
    (hbase : s.form = .pe32 → s.imageBase < 0x100000000) (hparse : Header.parse s.build {} = .ok h) : s.Shows h := by
  obtain ⟨form, hconforms', hd⟩ := Format.parse_sound hparse
  rw [← hconforms.form_unique hconforms'] at hd
  have hword {k : Nat} {v w : UInt32} (hw : w.toNat = field s.build (Format.optional s.build + k) 4)
      (hmem : (k, Bytes.ofU32 v) ∈ s.optionalFields) : w = v := UInt32.toNat_inj.mp (hw.trans (optional32 hmem))
  exact {
    entry := hword hd.entryRva (by simp [optionalFields])
    base := base_of_describes hbase hd
    alignment := hword hd.sectionAlignment (by simp [optionalFields])
    imageSize := hword hd.imageSize (by simp [optionalFields])
    headerSize := hword hd.headerSize (by simp [optionalFields])
    form := hd.isPe32Plus
    sections := sections_of_describes hcount hlt hd
    reloc := reloc_of_describes hcount hdirectories hlt hd }

end Shows

/-- An image that is built is parsed to what it was built from. -/
theorem parse_build (s : Sample) (hmachine : s.machine = Machine.native.code)
    (hsubsystem : s.subsystem = OptionalHeader.efiApplication) (hcount : s.allSections.length ≤ 17)
    (hdirectories : 6 ≤ s.directoryCount) (hentry : s.entry < s.sizeOfImage) (hheaders : s.headerSize ≤ s.sizeOfImage)
    (hfile : s.headerSize.toNat ≤ s.build.size) (hlt : s.build.size < 0x100000000)
    (hbase : s.form = .pe32 → s.imageBase < 0x100000000) :
    ∃ h, Header.parse s.build {} = .ok h ∧ s.Shows h := by
  have hconforms := conforms_build hmachine hsubsystem hcount hentry hheaders hfile
  obtain ⟨h, hparse⟩ := Format.parse_complete hconforms
  exact ⟨h, hparse, shows_of_parse hconforms hcount hdirectories hlt hbase hparse⟩

/-- A section of code, a page of data for a value that is fixed up, and the table for that. -/
def pokedSample : Sample :=
  (({} : Sample).withSection ".text.hot" 0x1000 0x20 #[0x90, 0xC3]).withHighLow 0x2004 0x1000

theorem parse_build_poked : ∃ h, Header.parse pokedSample.build {} = .ok h ∧ pokedSample.Shows h := by
  have hsize : pokedSample.build.size = 0x1800 := by
    rw [build_eq, size_addSections, size_headers]
    decide +kernel
  refine parse_build pokedSample rfl rfl ?_ ?_ ?_ ?_ ?_ ?_ ?_
  · decide +kernel
  · decide
  · decide +kernel
  · decide +kernel
  · rw [hsize]
    decide
  · rw [hsize]
    decide
  · intro h
    cases h

end NetBoot.Image.Sample
