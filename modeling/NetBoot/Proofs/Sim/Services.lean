/-
  NetBoot.Proofs.Sim.Services — what each service of a simulated machine does to its world.

  Every service that can fail says so as a value, so a run of it ends in a world that is written
  out here: the one it began in with its event noted, and with its effect where it succeeded. Giving
  pages back is the one exception (`freePages_of_live`): pages that are not live end the run. Each
  service notes its own kind of event only (`Emits`), and those that note none leave the events as
  they are.
-/

import NetBoot.Proofs.Sim.Run

namespace NetBoot.Sim

variable {w w' : World}

/-! ## Pages -/

theorem allocatePages_run (pages : Nat) (w : World) :
    (∃ e, takePages w pages = .error e ∧
      allocatePages pages w = .ok (.error e) { w with events := w.events.push (.allocatePages pages (.error e)) }) ∨
    ∃ base memory, takePages w pages = .ok (base, memory) ∧ ∃ log,
      allocatePages pages w = .ok (.ok base) { w with
        memory
        allocations := w.allocations.insert base pages
        allocationCount := w.allocationCount + 1
        log
        events := w.events.push (.allocatePages pages (.ok base)) } := by
  cases h : takePages w pages with
  | error e =>
    refine Or.inl ⟨e, rfl, ?_⟩
    rw [allocatePages, get_bind, h]
    rfl
  | ok r =>
    obtain ⟨base, memory⟩ := r
    refine Or.inr ⟨base, memory, rfl, ?_⟩
    rw [allocatePages, get_bind, h]
    dsimp only
    rw [set_bind]
    exact (Silent.note _).bind_run _ _

/-- Fresh pages lie where the next ones were, and in memory. -/
theorem takePages_eq_ok {pages : Nat} {base : Address} {memory : Memory} (h : takePages w pages = .ok (base, memory)) :
    base = w.memory.next ∧ memory.start = w.memory.start ∧ base.toNat + pages * pageSize ≤ memoryEnd.toNat := by
  simp only [takePages, need_bind_eq_ok_iff] at h
  obtain ⟨-, -, h⟩ := h
  cases ht : w.memory.take? pages with
  | none =>
    rw [ht] at h
    cases h
  | some r =>
    rw [ht] at h
    cases h
    exact Memory.take?_eq_some ht

theorem freePages_of_live {base : Address} {pages : Nat} (h : w.allocations.find? base = some pages) :
    freePages base pages w = .ok () { w with
      events := w.events.push (.freePages base pages)
      allocations := w.allocations.erase base } := by
  rw [freePages, emit_bind, get_bind]
  dsimp only
  rw [h]
  dsimp only
  rw [set_bind, if_neg (fun hne => hne rfl)]
  rfl

/-- Giving pages back changes the allocations and notes itself, whether it is cut off or not. -/
theorem freePages_after (base : Address) (pages : Nat) (w : World) :
    ∃ allocations, after (freePages base pages) w = { w with
      events := w.events.push (.freePages base pages)
      allocations } := by
  unfold after
  rw [freePages, emit_bind, get_bind]
  dsimp only
  cases w.allocations.find? base with
  | none => exact ⟨w.allocations, rfl⟩
  | some live =>
    dsimp only
    rw [set_bind]
    by_cases hl : live ≠ pages
    · rw [if_pos hl]
      exact ⟨_, rfl⟩
    · rw [if_neg hl]
      exact ⟨_, rfl⟩

/-! ## Records -/

/-- The record that a query of a handle answers with. -/
def World.recordOf (w : World) (handle : Handle) : Except ServiceError LoadedImage :=
  match w.recordFaults.find? handle with
  | some e => .error e
  | none => demand (w.records.find? handle) .notFound

theorem loadedImage_run (handle : Handle) (w : World) : loadedImage handle w = .ok (w.recordOf handle) w := by
  rw [loadedImage, get_bind]
  unfold World.recordOf
  cases w.recordFaults.find? handle with
  | some e => rfl
  | none => cases w.records.find? handle <;> rfl

theorem recordOf_eq_ok {handle : Handle} {record : LoadedImage} (h : w.recordOf handle = .ok record) :
    w.records.find? handle = some record := by
  unfold World.recordOf at h
  split at h
  · cases h
  · cases hr : w.records.find? handle with
    | none =>
      rw [hr] at h
      cases h
    | some r =>
      rw [hr] at h
      cases h
      rfl

theorem setLoadedImage_run (handle : Handle) (record : LoadedImage) (w : World) :
    (∃ e, setLoadedImage handle record w = .ok (.error e) { w with
      updates := w.updates + 1
      events := w.events.push (.setLoadedImage handle record) }) ∨
    setLoadedImage handle record w = .ok (.ok ()) { w with
      updates := w.updates + 1
      records := w.records.insert handle record
      events := w.events.push (.setLoadedImage handle record) } := by
  rw [setLoadedImage, emit_bind, get_bind]
  dsimp only
  cases w.updateFaults.find? (w.updates + 1) with
  | some e => exact Or.inl ⟨e, rfl⟩
  | none =>
    by_cases hc : w.records.contains handle = true
    · simp only [hc, if_true]
      exact Or.inr rfl
    · simp only [hc, Bool.false_eq_true, if_false]
      exact Or.inl ⟨.notFound, rfl⟩

/-- The answer to an update of the record of a handle. -/
def World.updateOf (w : World) (handle : Handle) : Except ServiceError Unit :=
  match w.updateFaults.find? (w.updates + 1) with
  | some e => .error e
  | none => need (w.records.contains handle = true) .notFound

theorem setLoadedImage_noted (handle : Handle) (record : LoadedImage) (w : World) :
    ∃ w', setLoadedImage handle record w = .ok (w.updateOf handle) w' ∧
      Noted [.setLoadedImage handle record] w w' := by
  rw [setLoadedImage, emit_bind, get_bind]
  unfold World.updateOf need
  dsimp only
  cases w.updateFaults.find? (w.updates + 1) with
  | some e =>
    refine ⟨_, rfl, ?_⟩
    exact .push rfl
  | none =>
    by_cases hc : w.records.contains handle = true
    · rw [if_pos hc, if_pos hc]
      exact ⟨_, rfl, .push rfl⟩
    · rw [if_neg hc, if_neg hc]
      exact ⟨_, rfl, .push rfl⟩

/-! ## Images of the firmware -/

/-- What a verifier answers, whatever the image. -/
def Verifier.answer : Verifier → Option Status
  | .absent => none
  | .answering status => some status
  | .recording accept _ => some (if accept then .success else .securityViolation)

def World.answer (w : World) : Option Status := w.verifier.answer

theorem verify_noted (image : Bytes) (w : World) :
    ∃ w', verify image w = .ok w.answer w' ∧ Noted [.verify image w.answer] w w' := by
  have ha : ∀ v, w.verifier = v → w.answer = v.answer := fun v h => by rw [World.answer, h]
  rw [verify, judge, bind_assoc, get_bind]
  split
  · rw [ha _ ‹_›]
    exact ⟨_, rfl, .push rfl⟩
  · rw [ha _ ‹_›]
    exact ⟨_, rfl, .push rfl⟩
  · rw [ha _ ‹_›]
    exact ⟨_, rfl, .push rfl⟩

/-- A verdict changes nothing but what the verifier keeps. -/
theorem verify_run (image : Bytes) (w : World) :
    ∃ verifier, verify image w = .ok w.answer { w with
      verifier
      events := w.events.push (.verify image w.answer) } := by
  have ha : ∀ v, w.verifier = v → w.answer = v.answer := fun v h => by rw [World.answer, h]
  rw [verify, judge, bind_assoc, get_bind]
  split
  · rw [ha _ ‹_›]
    exact ⟨w.verifier, rfl⟩
  · rw [ha _ ‹_›]
    exact ⟨w.verifier, rfl⟩
  · rw [ha _ ‹_›]
    exact ⟨_, rfl⟩

theorem loadImage_run (parent : Handle) (path : Option DevicePath) (source : Bytes) (w : World) :
    (∃ status, w.loadImageError = some status ∧ loadImage parent path source w = .ok (.error status) { w with
      events := w.events.push (.loadImage parent path source (.error status)) }) ∨
    w.loadImageError = none ∧ loadImage parent path source w = .ok (.ok ⟨w.nextHandle + 1⟩) { w with
      nextHandle := w.nextHandle + 1
      records := w.records.insert ⟨w.nextHandle + 1⟩ { parent, size := UInt64.ofNat source.size }
      events := w.events.push (.loadImage parent path source (.ok ⟨w.nextHandle + 1⟩)) } := by
  rcases Option.eq_none_or_eq_some w.loadImageError with h | ⟨status, h⟩
  · refine .inr ⟨h, ?_⟩
    cases w
    cases h
    rfl
  · refine .inl ⟨status, h, ?_⟩
    cases w
    cases h
    rfl

theorem loadImage_noted (parent : Handle) (path : Option DevicePath) (source : Bytes) (w : World) :
    ∃ r w', loadImage parent path source w = .ok r w' ∧ Noted [.loadImage parent path source r] w w' := by
  rw [loadImage, get_bind]
  cases w.loadImageError with
  | some status => exact ⟨_, _, rfl, .push rfl⟩
  | none => exact ⟨_, _, rfl, .push rfl⟩

theorem startImage_noted (handle : Handle) (w : World) :
    ∃ exit w', startImage handle w = .ok exit w' ∧ Noted [.startImage handle] w w' :=
  ⟨_, _, rfl, .push rfl⟩

theorem unloadImage_noted (handle : Handle) (w : World) :
    ∃ status w', unloadImage handle w = .ok status w' ∧ Noted [.unloadImage handle] w w' := by
  rw [unloadImage, emit_bind, get_bind]
  dsimp only
  cases w.unloadStatus with
  | some status =>
    refine ⟨_, _, rfl, ?_⟩
    exact .push rfl
  | none =>
    refine ⟨_, _, rfl, ?_⟩
    exact .push rfl

/-! ## The network -/

theorem redirectBoot_run (file : String) (server : Net.Ipv4) (w : World) :
    ∃ r events redirects pxeMode, redirectBoot file server w = .ok r { w with events, redirects, pxeMode } ∧
      (r = .ok () ↔ w.pxeMode.contains .dhcpAckReceived = true) ∧
      Noted [.redirect file server r] w { w with events, redirects, pxeMode } := by
  rw [redirectBoot, get_bind]
  by_cases h : w.pxeMode.contains .dhcpAckReceived = true
  · rw [if_pos h]
    exact ⟨.ok (), _, _, _, rfl, iff_of_true rfl h, .push rfl⟩
  · rw [if_neg h]
    exact ⟨.error .notFound, _, w.redirects, w.pxeMode, rfl, iff_of_false (fun e => nomatch e) h, .push rfl⟩

/-- What a look-up answers. -/
def World.hostOf (w : World) (name : String) : Except ServiceError Net.Ipv4 :=
  if w.lookupsNotReady = 0 then demand (w.hosts.find? name) .notFound else .error .notReady

theorem resolveHost_run (name : String) (w : World) :
    ∃ lookups, resolveHost name w = .ok (w.hostOf name) { w with
      lookups
      lookupsNotReady := w.lookupsNotReady - 1
      events := w.events.push (.resolve name (w.hostOf name)) } := by
  rw [resolveHost, lookUp, bind_assoc, get_bind]
  unfold World.hostOf
  dsimp only
  cases h : w.lookupsNotReady with
  | zero =>
    rw [if_pos rfl]
    cases w.hosts.find? name with
    | none => exact ⟨_, rfl⟩
    | some address => exact ⟨_, rfl⟩
  | succ k => exact ⟨_, rfl⟩

/-- Is a size query of this name to fail? -/
def World.sizeFails (w : World) (name : String) : Bool :=
  match w.sizeFailures.find? name with
  | some (_ + 1) => true
  | _ => false

theorem takeFailure_run (name : String) (w : World) :
    ∃ sizeFailures, takeFailure name w = .ok (w.sizeFails name) { w with sizeFailures } := by
  rw [takeFailure, get_bind]
  unfold World.sizeFails
  rcases w.sizeFailures.find? name with _ | _ | k
  · exact ⟨w.sizeFailures, rfl⟩
  · exact ⟨w.sizeFailures, rfl⟩
  · exact ⟨_, rfl⟩

/-- What a size query answers. -/
def World.sizeOf (w : World) (server : Net.Ipv4) (name : String) : Except ServiceError UInt64 :=
  if w.sizeFails name then .error (.firmware .tftpError)
  else
    match w.files.lookup (server, name) with
    | none => .error (.firmware .tftpError)
    | some data => .ok ((w.sizes.find? name).getD (UInt64.ofNat data.size))

theorem trueSize_run (server : Net.Ipv4) (name : String) (w : World) :
    ∃ sizeFailures, trueSize server name w = .ok (w.sizeOf server name) { w with sizeFailures } := by
  obtain ⟨sizeFailures, ht⟩ := takeFailure_run name w
  rw [trueSize, bind_of_ok ht]
  unfold World.sizeOf
  cases w.sizeFails name with
  | true => exact ⟨_, rfl⟩
  | false =>
    rw [if_neg Bool.false_ne_true, if_neg Bool.false_ne_true, get_bind]
    dsimp only
    cases w.files.lookup (server, name) with
    | none => exact ⟨_, rfl⟩
    | some data => exact ⟨_, rfl⟩

theorem fileSize_run (server : Net.Ipv4) (name : String) (w : World) :
    ∃ events sizeFailures, fileSize server name w = .ok (w.sizeOf server name) { w with events, sizeFailures } ∧
      Noted [.fileSize server name (w.sizeOf server name)] w { w with events, sizeFailures } := by
  obtain ⟨sizeFailures, ht⟩ := trueSize_run server name w
  rw [fileSize, bind_of_ok ht]
  exact ⟨_, _, rfl, .push rfl⟩

/-- What a read into a buffer of `len` bytes answers, and leaves there. -/
def World.fileIn (w : World) (server : Net.Ipv4) (name : String) (len : Nat) : Except ServiceError Nat × Bytes :=
  match w.readFaults.find? name with
  | some e => (.error e, #[])
  | none =>
    match w.files.lookup (server, name) with
    | none => (.error (.firmware .tftpError), #[])
    | some data => if len < data.size then (.error (.firmware .bufferTooSmall), #[]) else (.ok data.size, data)

theorem copyFile_run (server : Net.Ipv4) (name : String) (len : Nat) (w : World) :
    ∃ reads, copyFile server name len w = .ok (w.fileIn server name len) { w with reads } := by
  rw [copyFile, get_bind]
  unfold World.fileIn
  cases w.readFaults.find? name with
  | some e => exact ⟨w.reads, rfl⟩
  | none =>
    dsimp only
    rw [set_bind]
    cases w.files.lookup (server, name) with
    | none => exact ⟨_, rfl⟩
    | some data =>
      dsimp only
      split
      · exact ⟨_, rfl⟩
      · exact ⟨_, rfl⟩

theorem receiveFile_run (server : Net.Ipv4) (name : String) (len : Nat) (w : World) :
    ∃ events reads, receiveFile server name len w = .ok (w.fileIn server name len) { w with events, reads } ∧
      Noted [.receiveFile server name len (w.fileIn server name len).1] w { w with events, reads } := by
  obtain ⟨reads, hc⟩ := copyFile_run server name len w
  rw [receiveFile, bind_of_ok hc]
  exact ⟨_, _, rfl, .push rfl⟩

/-! ## Traps -/

theorem isInstalled_install (t : Image.Traps) (h : Handle) : (t.install h).2.isInstalled h = true := by
  rw [Image.Traps.isInstalled, Table.contains_iff]
  exact ⟨_, Table.find?_insert_self _ _ _⟩

theorem trapsCell_get_bind {β : Type} (f : Image.Traps → Sim β) : (trapsCell.get >>= f) w = f w.traps w := rfl

theorem installIn_run (h : Handle) (w : World) :
    ∃ log, Image.Traps.installIn ⟨keepLog⟩ trapsCell h w =
      .ok (w.traps.install h).1 { w with traps := (w.traps.install h).2, log } := by
  rw [Image.Traps.installIn, trapsCell_get_bind]
  exact (Silent.notes _).bind_run _ _

theorem takeIn_run (token : Image.TrapToken) (w : World) :
    Image.Traps.takeIn trapsCell token w = .ok (w.traps.take token).1 { w with traps := (w.traps.take token).2 } :=
  rfl

/-! ## Events -/

section Events

variable {P : Event → Prop}

theorem emits_silent {α : Type} {x : Sim α} {a : α} (hx : Silent x a) : Keeps (Emits P) x :=
  .silent (fun _ _ => .of_eq rfl) hx

theorem emits_allocatePages {pages : Nat} (h : ∀ r, P (.allocatePages pages r)) :
    Keeps (Emits P) (allocatePages pages) := by
  refine .of_run fun w => ?_
  rcases allocatePages_run pages w with ⟨e, -, hr⟩ | ⟨base, memory, -, log, hr⟩
  · exact ⟨_, _, hr, .of_push rfl (h _)⟩
  · exact ⟨_, _, hr, .of_push rfl (h _)⟩

theorem emits_freePages {base : Address} {pages : Nat} (h : P (.freePages base pages)) :
    Keeps (Emits P) (freePages base pages) := by
  intro w
  obtain ⟨allocations, ha⟩ := freePages_after base pages w
  rw [ha]
  exact .of_push rfl h

theorem emits_setLoadedImage {handle : Handle} {record : LoadedImage} (h : P (.setLoadedImage handle record)) :
    Keeps (Emits P) (setLoadedImage handle record) := by
  refine .of_run fun w => ?_
  rcases setLoadedImage_run handle record w with ⟨e, hr⟩ | hr
  · exact ⟨_, _, hr, .of_push rfl h⟩
  · exact ⟨_, _, hr, .of_push rfl h⟩

end Events

end NetBoot.Sim
