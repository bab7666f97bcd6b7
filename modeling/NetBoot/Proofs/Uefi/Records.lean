/-
  NetBoot.Proofs.Uefi.Records — the firmware's records of loaded images, seen as a map.

  A record holds pointers: to data of the firmware, to nothing, or to copies that the boot client has made
  when it replaced the record. The copies of a record go when it is replaced again, and what makes it safe
  to follow the pointers all the same is an invariant: a record that points to a copy points to the one that
  is kept for its handle (`Kept`). So what a handle's record says depends on that handle alone
  (`World.recordOn`); it is what is read (`loadedImage_run`), an update puts a record in its place and leaves
  the others (`recordOn_replaced_self`, `recordOn_replaced_of_ne`), and the invariant holds again (`Kept.replaced`).

  Some records cannot be told apart by what is read of them: an option size that is odd, a path that is
  malformed. Writing back what was read puts another record in place of them, of which the same is read
  (`Alike.written_back`), and two worlds of which the same is read stay so under all updates to come
  (`Alike.setAll`).
-/

import NetBoot.Proofs.DevicePath
import NetBoot.Proofs.Uefi.Run
import NetBoot.Uefi.Records

namespace NetBoot.Uefi

open Records (copy pathAt optionsAt optionsOf raw rawOf loadedImage setLoadedImage)

/-! ## What a record says -/

/-- Where a pointer of a record leads, if this is the copy that is kept for it. -/
def Pointer.target {α : Type} (f : RecordCopy → α) (kept : Option RecordCopy) : Pointer α → Option α
  | .null => none
  | .firmware data => some data
  | .copy _ => kept.map f

/-- What a record says. -/
def RawImage.contents (r : RawImage) (kept : Option RecordCopy) : LoadedImage where
  parent := r.parent
  device := r.device
  path := (r.path.target (·.path) kept).bind DevicePath.readFrom?
  options := ((r.options.target (·.options) kept).getD []).take (r.optionsSize.toNat / 2)
  base := r.base
  size := r.size

/-- The bytes of the path in a record; none for no path. -/
def pathBytes (record : LoadedImage) : Bytes := (record.path.map (·.bytes)).getD #[]

namespace World

/-- The record on a handle as the firmware keeps it. -/
def imageOn (w : World) (handle : Handle) : Except ServiceError RawImage :=
  match Services.lookUp w .loadedImage (w.images.contains handle) .unsupported with
  | .error status => .error (.ofStatus status)
  | .ok () => .ok ((w.images.find? handle).getD {})

/-- What the record on a handle says. -/
def recordOn (w : World) (handle : Handle) : Except ServiceError LoadedImage :=
  (w.imageOn handle).map (·.contents (w.copies.find? handle))

/-- The world with another record on a handle. -/
def replaced (w : World) (handle : Handle) (record : LoadedImage) : World :=
  { w with
    images := w.images.insert handle (rawOf record w.nextCopy (pathBytes record))
    copies := w.copies.insert handle ⟨w.nextCopy, pathBytes record, record.options⟩
    nextCopy := w.nextCopy + 1 }

end World

/-- The pointer leads to no copy but this one. -/
def Pointer.LeadsTo {α : Type} (p : Pointer α) (kept : Option RecordCopy) : Prop :=
  ∀ number, p = .copy number → ∃ c, kept = some c ∧ c.number = number

/-- A record that points to a copy points to the one that is kept for its handle, and no two copies have one
    number. -/
structure Kept (w : World) : Prop where
  path : ∀ handle r, w.images.find? handle = some r → r.path.LeadsTo (w.copies.find? handle)
  options : ∀ handle r, w.images.find? handle = some r → r.options.LeadsTo (w.copies.find? handle)
  distinct : ∀ p ∈ w.copies.pairs, ∀ q ∈ w.copies.pairs, p.2.number = q.2.number → p = q
  below : ∀ p ∈ w.copies.pairs, p.2.number < w.nextCopy

/-- The records are as the firmware has made them: no copies are kept, and none is pointed to. -/
structure FirmwareRecords (w : World) : Prop where
  copies : w.copies = .empty
  path : ∀ handle r, w.images.find? handle = some r → ∀ number, r.path ≠ .copy number
  options : ∀ handle r, w.images.find? handle = some r → ∀ number, r.options ≠ .copy number

theorem FirmwareRecords.kept {w : World} (h : FirmwareRecords w) : Kept w where
  path handle r hr number hn := absurd hn (h.path handle r hr number)
  options handle r hr number hn := absurd hn (h.options handle r hr number)
  distinct := by
    rw [h.copies]
    exact fun p hp => absurd hp List.not_mem_nil
  below := by
    rw [h.copies]
    exact fun p hp => absurd hp List.not_mem_nil

variable {w : World} {handle : Handle} {record : LoadedImage} {r : RawImage}

/-! ## Reading -/

theorem raw_run (w : World) (handle : Handle) : raw handle w = .ok (w.imageOn handle) w := by
  have hlook : Services.handleProtocol .loadedImage handle w =
      .ok (Services.lookUp w .loadedImage (w.images.contains handle) .unsupported) w := rfl
  rw [raw, bind_of_ok hlook, World.imageOn]
  cases Services.lookUp w .loadedImage (w.images.contains handle) .unsupported <;> rfl

theorem find?_of_imageOn (h : w.imageOn handle = .ok r) : w.images.find? handle = some r := by
  rw [World.imageOn, Services.lookUp] at h
  cases hfind : w.images.find? handle with
  | some r' =>
    rw [hfind] at h
    split at h
    · cases h
    · exact congrArg some (Except.ok.inj h)
  | none =>
    rw [Table.contains, hfind] at h
    split at h
    · cases h
    · next hlook =>
      split at hlook
      · cases hlook
      · simp at hlook

theorem copy_run (hw : Kept w) {c : RecordCopy} (hc : w.copies.find? handle = some c) : copy c.number w = .ok c w := by
  have hmem := Table.mem_of_find? hc
  cases hfind : w.copies.pairs.find? (·.2.number == c.number) with
  | none =>
    have hnone := List.find?_eq_none.mp hfind _ hmem
    simp at hnone
  | some q =>
    have hnumber : q.2.number = c.number := by simpa using List.find?_some hfind
    obtain rfl := hw.distinct _ (List.mem_of_find?_eq_some hfind) _ hmem hnumber
    rw [copy, get_bind, hfind]
    rfl

theorem pathAt_run (hw : Kept w) {p : Pointer Bytes} (hp : p.LeadsTo (w.copies.find? handle)) :
    pathAt p w = .ok (p.target (·.path) (w.copies.find? handle)) w := by
  cases p with
  | null => rfl
  | firmware memory => rfl
  | copy number =>
    obtain ⟨c, hc, rfl⟩ := hp number rfl
    rw [pathAt, bind_of_ok (copy_run hw hc), Pointer.target, hc]
    rfl

theorem optionsAt_run (hw : Kept w) {p : Pointer (List UInt16)} (hp : p.LeadsTo (w.copies.find? handle)) :
    optionsAt p w = .ok (p.target (·.options) (w.copies.find? handle)) w := by
  cases p with
  | null => rfl
  | firmware memory => rfl
  | copy number =>
    obtain ⟨c, hc, rfl⟩ := hp number rfl
    rw [optionsAt, bind_of_ok (copy_run hw hc), Pointer.target, hc]
    rfl

/-- What is read of a handle is what its record says, and reading changes nothing. -/
theorem loadedImage_run (hw : Kept w) (handle : Handle) : loadedImage handle w = .ok (w.recordOn handle) w := by
  rw [loadedImage, bind_of_ok (raw_run w handle), World.recordOn]
  cases himage : w.imageOn handle with
  | error e => rfl
  | ok r =>
    have hr := find?_of_imageOn himage
    have hoptions : optionsOf r w = .ok (r.contents (w.copies.find? handle)).options w := by
      rw [optionsOf, bind_of_ok (optionsAt_run hw (hw.options handle r hr)), RawImage.contents]
      cases r.options.target (·.options) (w.copies.find? handle) with
      | none => rw [Option.getD_none, List.take_nil]; rfl
      | some units => rfl
    dsimp only
    rw [bind_of_ok hoptions, bind_of_ok (pathAt_run hw (hw.path handle r hr))]
    rfl

/-! ## Replacing -/

theorem setLoadedImage_run (w : World) (handle : Handle) (record : LoadedImage) :
    setLoadedImage handle record w =
      match w.recordOn handle with
      | .error e => .ok (.error e) w
      | .ok _ =>
        if UInt32.size ≤ 2 * record.options.length then .ok (.error .invalidParameter) w
        else .ok (.ok ()) (w.replaced handle record) := by
  rw [setLoadedImage, bind_of_ok (raw_run w handle), World.recordOn]
  cases w.imageOn handle with
  | error e => rfl
  | ok r =>
    dsimp only [Except.map]
    split <;> rfl

theorem imageOn_of_recordOn {old : LoadedImage} (h : w.recordOn handle = .ok old) :
    ∃ r, w.imageOn handle = .ok r ∧ r.contents (w.copies.find? handle) = old := by
  rw [World.recordOn] at h
  cases hr : w.imageOn handle with
  | error e =>
    rw [hr] at h
    cases h
  | ok r =>
    rw [hr] at h
    exact ⟨r, rfl, Except.ok.inj h⟩

/-- The record as it is read back when it has been put on a handle. -/
def asRead (record : LoadedImage) : LoadedImage :=
  { record with path := record.path.bind fun p => DevicePath.readFrom? p.bytes }

theorem asRead_closed (h : ∀ p, record.path = some p → p.Closed) : asRead record = record := by
  have hpath : (record.path.bind fun p => DevicePath.readFrom? p.bytes) = record.path := by
    cases hp : record.path with
    | none => rfl
    | some p =>
      have hread := DevicePath.readFrom?_closed (h p hp) #[]
      rwa [Array.append_empty] at hread
  rw [asRead, hpath]

/-- What is read of a record is read again when it has been written back. -/
theorem asRead_contents (r : RawImage) (kept : Option RecordCopy) : asRead (r.contents kept) = r.contents kept := by
  have hpath : ((r.contents kept).path.bind fun p => DevicePath.readFrom? p.bytes) = (r.contents kept).path := by
    cases hp : (r.contents kept).path with
    | none => rfl
    | some p =>
      obtain ⟨memory, -, hread⟩ := Option.bind_eq_some_iff.mp hp
      exact DevicePath.readFrom?_readFrom? hread
  rw [asRead, hpath]

/-- The pointers of a record that has been put on a handle lead to what went into its copy. -/
theorem contents_rawOf (number : Nat) (hshort : 2 * record.options.length < UInt32.size) :
    (rawOf record number (pathBytes record)).contents (some ⟨number, pathBytes record, record.options⟩) =
      asRead record := by
  have hoptions : ((if record.options.isEmpty then Pointer.null else .copy number : Pointer (List UInt16)).target
      (·.options) (some ⟨number, pathBytes record, record.options⟩)).getD [] = record.options := by
    cases record.options <;> rfl
  have hcount : (UInt32.ofNat (2 * record.options.length)).toNat / 2 = record.options.length := by
    rw [UInt32.toNat_ofNat_of_lt' hshort]
    omega
  have hpath : ((if (pathBytes record).isEmpty then Pointer.null else .copy number : Pointer Bytes).target (·.path)
      (some ⟨number, pathBytes record, record.options⟩)).bind DevicePath.readFrom? =
        record.path.bind fun p => DevicePath.readFrom? p.bytes := by
    have hempty : DevicePath.readFrom? #[] = none := by
      simp [DevicePath.readFrom?, DevicePath.extent?, DevicePath.lengthAt, DevicePath.maxLength]
    by_cases hbytes : (pathBytes record).isEmpty = true
    · rw [if_pos hbytes]
      rw [Array.isEmpty_iff] at hbytes
      cases hp : record.path with
      | none => rfl
      | some p =>
        rw [pathBytes, hp] at hbytes
        rw [Option.bind_some, show p.bytes = #[] from hbytes, hempty]
        rfl
    · rw [if_neg hbytes]
      cases hp : record.path with
      | none =>
        rw [pathBytes, hp] at hbytes
        exact absurd rfl hbytes
      | some p => rw [pathBytes, hp]; rfl
  rw [RawImage.contents, rawOf, asRead]
  dsimp only
  rw [hoptions, hcount, List.take_length, hpath]

theorem imageOn_replaced_self (h : w.imageOn handle = .ok r) :
    (w.replaced handle record).imageOn handle = .ok (rawOf record w.nextCopy (pathBytes record)) := by
  have hfind : (w.replaced handle record).images.find? handle = some (rawOf record w.nextCopy (pathBytes record)) :=
    Table.find?_insert_self _ _ _
  have hthere : (w.replaced handle record).nullProtocols.contains .loadedImage = false := by
    rw [World.imageOn, Services.lookUp] at h
    cases hnull : w.nullProtocols.contains .loadedImage with
    | false => exact hnull
    | true =>
      rw [hnull, if_pos rfl] at h
      cases h
  rw [World.imageOn, Services.lookUp, hthere, if_neg Bool.false_ne_true, Table.contains, hfind]
  rfl

theorem recordOn_replaced_self {old : LoadedImage} (h : w.recordOn handle = .ok old)
    (hshort : 2 * record.options.length < UInt32.size) :
    (w.replaced handle record).recordOn handle = .ok (asRead record) := by
  obtain ⟨r, hr, -⟩ := imageOn_of_recordOn h
  have hcopy : (w.replaced handle record).copies.find? handle =
      some ⟨w.nextCopy, pathBytes record, record.options⟩ := Table.find?_insert_self _ _ _
  rw [World.recordOn, imageOn_replaced_self hr, hcopy]
  exact congrArg Except.ok (contents_rawOf _ hshort)

theorem recordOn_replaced_of_ne {other : Handle} (h : other ≠ handle) :
    (w.replaced handle record).recordOn other = w.recordOn other := by
  have himage : (w.replaced handle record).imageOn other = w.imageOn other := by
    rw [World.imageOn, World.imageOn, Services.lookUp, Services.lookUp, World.replaced, Table.contains, Table.contains]
    dsimp only
    rw [Table.find?_insert_of_ne _ _ h]
  rw [World.recordOn, World.recordOn, himage]
  rw [World.replaced]
  dsimp only
  rw [Table.find?_insert_of_ne _ _ h]

/-- The pointers of a new record lead to its own copy, which has a number that no other has. -/
theorem Kept.replaced (hw : Kept w) (handle : Handle) (record : LoadedImage) : Kept (w.replaced handle record) := by
  have hself : (w.replaced handle record).copies.find? handle =
      some ⟨w.nextCopy, pathBytes record, record.options⟩ := Table.find?_insert_self _ _ _
  have hother {other : Handle} (h : other ≠ handle) :
      (w.replaced handle record).copies.find? other = w.copies.find? other := Table.find?_insert_of_ne _ _ h
  have himage {other : Handle} (h : other ≠ handle) :
      (w.replaced handle record).images.find? other = w.images.find? other := Table.find?_insert_of_ne _ _ h
  have hrecord {r : RawImage} (h : (w.replaced handle record).images.find? handle = some r) :
      rawOf record w.nextCopy (pathBytes record) = r := by
    rw [World.replaced, Table.find?_insert_self] at h
    exact Option.some.inj h
  have hnew {α : Type} {empty : Bool} : (if empty then Pointer.null else .copy w.nextCopy : Pointer α).LeadsTo
      ((w.replaced handle record).copies.find? handle) := by
    intro number hn
    split at hn
    · cases hn
    · exact ⟨_, hself, Pointer.copy.inj hn⟩
  have hpair {p : Handle × RecordCopy} (hp : p ∈ (w.replaced handle record).copies.pairs) :
      p = (handle, ⟨w.nextCopy, pathBytes record, record.options⟩) ∨ p ∈ w.copies.pairs := Table.mem_insert hp
  refine ⟨fun other r hr => ?_, fun other r hr => ?_, fun p hp q hq hpq => ?_, fun p hp => ?_⟩
  · by_cases h : other = handle
    · subst h
      rw [← hrecord hr]
      exact hnew
    · rw [hother h]
      rw [himage h] at hr
      exact hw.path other r hr
  · by_cases h : other = handle
    · subst h
      rw [← hrecord hr]
      exact hnew
    · rw [hother h]
      rw [himage h] at hr
      exact hw.options other r hr
  · -- the number of the new copy lies above those of all others
    rcases hpair hp with rfl | hp <;> rcases hpair hq with rfl | hq
    · rfl
    · exact absurd hpq.symm (Nat.ne_of_lt (hw.below q hq))
    · exact absurd hpq (Nat.ne_of_lt (hw.below p hp))
    · exact hw.distinct p hp q hq hpq
  · rcases hpair hp with rfl | hp
    · exact Nat.lt_succ_self _
    · exact Nat.lt_succ_of_lt (hw.below p hp)

/-! ## Updates -/

/-- Puts records on handles, one after another, and has what the calls have answered. -/
def setAll (updates : List (Handle × LoadedImage)) : Uefi (List (Except ServiceError Unit)) :=
  updates.mapM fun u => setLoadedImage u.1 u.2

section Updates

variable {u : Handle × LoadedImage} {us : List (Handle × LoadedImage)} {w₁ w₂ : World}
  {answer : Except ServiceError Unit} {answers : List (Except ServiceError Unit)}

theorem setAll_nil (w : World) : setAll [] w = .ok [] w := rfl

theorem setAll_cons (h : setLoadedImage u.1 u.2 w = .ok answer w₁) (hs : setAll us w₁ = .ok answers w₂) :
    setAll (u :: us) w = .ok (answer :: answers) w₂ := by
  rw [setAll] at hs ⊢
  rw [List.mapM_cons, bind_of_ok h, bind_of_ok hs]
  rfl

/-- One update ends, and if it has succeeded its record is in place and the others are as before. -/
theorem set_ends (hw : Kept w) (handle : Handle) (record : LoadedImage) :
    ∃ answer v, setLoadedImage handle record w = .ok answer v ∧ Kept v ∧
      (answer = .ok () → v.recordOn handle = .ok (asRead record) ∧
        ∀ other, other ≠ handle → v.recordOn other = w.recordOn other) := by
  rw [setLoadedImage_run]
  cases hold : w.recordOn handle with
  | error e => exact ⟨_, w, rfl, hw, nofun⟩
  | ok old =>
    dsimp only
    split
    · exact ⟨_, w, rfl, hw, nofun⟩
    · next hshort =>
      exact ⟨_, _, rfl, hw.replaced handle record, fun _ =>
        ⟨recordOn_replaced_self hold (Nat.lt_of_not_le hshort), fun _ h => recordOn_replaced_of_ne h⟩⟩

/-- After updates that have all succeeded, each handle has the record that was put on it last, and a handle
    without an update has the record it had. -/
theorem setAll_ends (hw : Kept w) (us : List (Handle × LoadedImage)) :
    ∃ answers v, setAll us w = .ok answers v ∧ Kept v ∧
      ((∀ a ∈ answers, a = .ok ()) → ∀ handle,
        v.recordOn handle = (us.reverse.lookup handle).elim (w.recordOn handle) fun record => .ok (asRead record)) := by
  induction us generalizing w with
  | nil => exact ⟨[], w, setAll_nil w, hw, fun _ _ => rfl⟩
  | cons u us ih =>
    obtain ⟨answer, w₁, hset, hw₁, hone⟩ := set_ends hw u.1 u.2
    obtain ⟨answers, v, hall, hv, hrest⟩ := ih hw₁
    refine ⟨answer :: answers, v, setAll_cons hset hall, hv, fun hok handle => ?_⟩
    obtain ⟨hanswer, hanswers⟩ := List.forall_mem_cons.mp hok
    obtain ⟨hself, hother⟩ := hone hanswer
    have hfirst : w₁.recordOn handle =
        ([u].lookup handle).elim (w.recordOn handle) fun record => .ok (asRead record) := by
      rw [List.lookup_cons]
      by_cases h : handle = u.1
      · rw [h, beq_self_eq_true]
        exact hself
      · rw [beq_eq_false_iff_ne.mpr h]
        exact hother handle h
    -- a later update of the handle hides this one
    rw [hrest hanswers handle, hfirst, List.reverse_cons, List.lookup_append]
    cases us.reverse.lookup handle with
    | some record => rfl
    | none => rfl

end Updates

/-! ## Worlds that cannot be told apart -/

/-- Of two worlds the same is read on every handle. -/
structure Alike (w w' : World) : Prop where
  left : Kept w
  right : Kept w'
  same : ∀ handle, w.recordOn handle = w'.recordOn handle

namespace Alike

variable {w' : World}

theorem reads (h : Alike w w') (handle : Handle) :
    ∃ a, loadedImage handle w = .ok a w ∧ loadedImage handle w' = .ok a w' :=
  ⟨w.recordOn handle, loadedImage_run h.left handle, by rw [h.same handle, loadedImage_run h.right handle]⟩

theorem replaced (h : Alike w w') {old : LoadedImage} (hold : w.recordOn handle = .ok old)
    (hshort : 2 * record.options.length < UInt32.size) :
    Alike (w.replaced handle record) (w'.replaced handle record) := by
  refine ⟨h.left.replaced handle record, h.right.replaced handle record, fun other => ?_⟩
  by_cases hne : other = handle
  · subst hne
    rw [recordOn_replaced_self hold hshort, recordOn_replaced_self ((h.same other).symm.trans hold) hshort]
  · rw [recordOn_replaced_of_ne hne, recordOn_replaced_of_ne hne, h.same other]

theorem set (h : Alike w w') (handle : Handle) (record : LoadedImage) :
    ∃ answer v v', setLoadedImage handle record w = .ok answer v ∧
      setLoadedImage handle record w' = .ok answer v' ∧ Alike v v' := by
  rw [setLoadedImage_run, setLoadedImage_run, ← h.same handle]
  cases hold : w.recordOn handle with
  | error e => exact ⟨_, w, w', rfl, rfl, h⟩
  | ok old =>
    dsimp only
    split
    · exact ⟨_, w, w', rfl, rfl, h⟩
    · next hshort => exact ⟨_, _, _, rfl, rfl, h.replaced hold (Nat.lt_of_not_le hshort)⟩

theorem setAll (h : Alike w w') (us : List (Handle × LoadedImage)) :
    ∃ answers v v', setAll us w = .ok answers v ∧ setAll us w' = .ok answers v' ∧ Alike v v' := by
  induction us generalizing w w' with
  | nil => exact ⟨[], w, w', setAll_nil w, setAll_nil w', h⟩
  | cons u us ih =>
    obtain ⟨answer, w₁, w₁', hset, hset', h₁⟩ := h.set u.1 u.2
    obtain ⟨answers, v, v', hall, hall', hv⟩ := ih h₁
    exact ⟨answer :: answers, v, v', setAll_cons hset hall, setAll_cons hset' hall', hv⟩

/-- What is read can be written back, and nobody sees the difference. -/
theorem written_back (hw : Kept w) (h : w.recordOn handle = .ok record) :
    setLoadedImage handle record w = .ok (.ok ()) (w.replaced handle record) ∧
      Alike w (w.replaced handle record) := by
  obtain ⟨r, hr, hcontents⟩ := imageOn_of_recordOn h
  have hshort : 2 * record.options.length < UInt32.size := by
    have hcount : record.options.length ≤ r.optionsSize.toNat / 2 := by
      rw [← hcontents]
      exact List.length_take_le _ _
    have hsize := r.optionsSize.toNat_lt
    rw [UInt32.size]
    omega
  refine ⟨?_, hw, hw.replaced handle record, fun other => ?_⟩
  · rw [setLoadedImage_run, h]
    exact if_neg (Nat.not_le_of_lt hshort)
  · by_cases hne : other = handle
    · rw [hne, recordOn_replaced_self h hshort, h, ← hcontents, asRead_contents]
    · rw [recordOn_replaced_of_ne hne]

end Alike

/-- The records that the firmware has made are a map from handles. After updates that have all succeeded, with
    paths that are absent or closed, the last record that was put on a handle is read of it, and of a handle
    without an update what was read before. And whatever is read of a handle can be written back: all updates
    to come answer the same, and the same is read after them. -/
theorem records_read_back (hw : FirmwareRecords w) (us : List (Handle × LoadedImage)) :
    ∃ answers v, setAll us w = .ok answers v ∧
      ((∀ a ∈ answers, a = .ok ()) → (∀ u ∈ us, ∀ p, u.2.path = some p → p.Closed) → ∀ handle,
        (∀ record, us.reverse.lookup handle = some record → loadedImage handle v = .ok (.ok record) v) ∧
        (us.reverse.lookup handle = none → ∃ a, loadedImage handle w = .ok a w ∧ loadedImage handle v = .ok a v)) ∧
      ∀ handle record, loadedImage handle v = .ok (.ok record) v →
        ∃ v', setLoadedImage handle record v = .ok (.ok ()) v' ∧
          ∀ later, ∃ answers' x x', setAll later v = .ok answers' x ∧ setAll later v' = .ok answers' x' ∧
            ∀ handle', ∃ a, loadedImage handle' x = .ok a x ∧ loadedImage handle' x' = .ok a x' := by
  obtain ⟨answers, v, hrun, hv, hrecords⟩ := setAll_ends hw.kept us
  refine ⟨answers, v, hrun, fun hok hpaths handle => ⟨fun record hlast => ?_, fun hnone => ?_⟩,
    fun handle record hread => ?_⟩
  · have hmem : (handle, record) ∈ us := by
      obtain ⟨before, behind, hsplit, -⟩ := List.lookup_eq_some_iff.mp hlast
      have : (handle, record) ∈ us.reverse := by rw [hsplit]; simp
      exact List.mem_reverse.mp this
    have hrecord := hrecords hok handle
    rw [hlast, Option.elim_some, asRead_closed (hpaths _ hmem)] at hrecord
    rw [loadedImage_run hv, hrecord]
  · have hsame := hrecords hok handle
    rw [hnone, Option.elim_none] at hsame
    exact ⟨_, loadedImage_run hw.kept handle, by rw [← hsame, loadedImage_run hv]⟩
  · rw [loadedImage_run hv] at hread
    have hrecord : v.recordOn handle = .ok record := by
      injection hread
    obtain ⟨hset, halike⟩ := Alike.written_back hv hrecord
    refine ⟨_, hset, fun later => ?_⟩
    obtain ⟨answers', x, x', hall, hall', hx⟩ := halike.setAll later
    exact ⟨answers', x, x', hall, hall', hx.reads⟩

/-- The firmware has a path that stops in the middle of a node and a size that is odd; both are gone when the
    record is written back, and the same is read. -/
theorem records_read_back_odd_size :
    let odd : RawImage := { path := .firmware #[4, 4, 3, 0], optionsSize := 5, options := .firmware [1, 2, 3] }
    let w : World := { images := ⟨[(⟨1⟩, odd), (⟨2⟩, {})]⟩ }
    let path : DevicePath := ⟨#[4, 4, 6, 0, 0x61, 0, 0x7f, 0xff, 4, 0]⟩
    let last : LoadedImage := { device := bootDevice, path := some path, options := [7, 0], base := 0x1000, size := 9 }
    FirmwareRecords w ∧ path.Closed ∧
      ∃ v, setAll [(⟨2⟩, { options := [5] }), (⟨2⟩, last)] w = .ok [.ok (), .ok ()] v ∧
        loadedImage ⟨2⟩ v = .ok (.ok last) v ∧ loadedImage ⟨1⟩ v = .ok (.ok { options := [1, 2] }) v ∧
        ∃ v', setLoadedImage ⟨1⟩ { options := [1, 2] } v = .ok (.ok ()) v' ∧
          loadedImage ⟨1⟩ v' = .ok (.ok { options := [1, 2] }) v' := by
  intro odd w path last
  have hw : FirmwareRecords w := by
    have hrecords {handle : Handle} {r : RawImage} (h : w.images.find? handle = some r) : r = odd ∨ r = {} := by
      have hmem := Table.mem_of_find? h
      simp only [w, List.mem_cons, List.not_mem_nil, or_false, Prod.mk.injEq] at hmem
      exact hmem.imp And.right And.right
    refine ⟨rfl, fun handle r hr number => ?_, fun handle r hr number => ?_⟩ <;>
      rcases hrecords hr with rfl | rfl <;> nofun
  have hpath : path.Closed := by
    refine ⟨[⟨4, 4, #[0x61, 0]⟩], .endEntire, fun n hn => ?_, rfl, rfl, rfl, by decide⟩
    rw [List.mem_singleton.mp hn]
    exact ⟨rfl, rfl⟩
  let us : List (Handle × LoadedImage) := [(⟨2⟩, { options := [5] }), (⟨2⟩, last)]
  obtain ⟨answers, v, hrun, hread, hback⟩ := records_read_back hw us
  have hanswers : answers = [.ok (), .ok ()] := by
    have h := hrun.symm.trans (show setAll us w = .ok [.ok (), .ok ()] _ from rfl)
    injection h
  subst hanswers
  have hok : ∀ a ∈ ([.ok (), .ok ()] : List (Except ServiceError Unit)), a = .ok () := by simp
  have hclosed : ∀ u ∈ us, ∀ p, u.2.path = some p → p.Closed := by
    intro u hu p hp
    simp only [us, List.mem_cons, List.not_mem_nil, or_false] at hu
    rcases hu with rfl | rfl
    · cases hp
    · rw [← Option.some.inj hp]
      exact hpath
  obtain ⟨a, hbefore, hafter⟩ := (hread hok hclosed ⟨1⟩).2 rfl
  have ha : a = .ok { options := [1, 2] } := by
    have hodd : odd.contents none = { options := [1, 2] } := by
      simp [odd, RawImage.contents, Pointer.target, DevicePath.readFrom?, DevicePath.extent?, DevicePath.lengthAt,
        DevicePath.maxLength]
    have hfirst := hbefore.symm.trans (loadedImage_run hw.kept ⟨1⟩)
    rw [show w.recordOn ⟨1⟩ = .ok (odd.contents none) from rfl, hodd] at hfirst
    injection hfirst
  subst ha
  obtain ⟨v', hset, hlater⟩ := hback _ _ hafter
  obtain ⟨_, x, x', hx, hx', hsame⟩ := hlater []
  obtain ⟨a, hv, hv'⟩ := hsame ⟨1⟩
  obtain rfl : v = x := by
    rw [setAll_nil] at hx
    injection hx
  obtain rfl : v' = x' := by
    rw [setAll_nil] at hx'
    injection hx'
  have ha : a = .ok { options := [1, 2] } := by
    have h := hv.symm.trans hafter
    injection h
  subst ha
  exact ⟨hw, hpath, v, hrun, (hread hok hclosed ⟨2⟩).1 last rfl, hafter, v', hset, hv'⟩

end NetBoot.Uefi
