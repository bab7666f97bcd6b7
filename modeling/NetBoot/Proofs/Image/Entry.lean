/-
  NetBoot.Proofs.Image.Entry — the moment at which an image gets control.

  A launch puts the context into the record of its handle and sets a trap there, and only then calls
  the entry point; whatever fails before that, the call is not made (`launch_eq_ok`, `launch_eq_error`).
  With the stages before it that settles what an image finds when it gets control (`GetsControl`):
  itself, relocated to its end, under its own record and a trap.
-/

import NetBoot.Proofs.Image.Validation
import NetBoot.Image.Sample

namespace NetBoot

/-- Is it the call of an entry point? -/
def Sim.Event.isEntryCall : Sim.Event → Bool
  | .callEntry .. => true
  | _ => false

namespace Image

open Sim

variable {n : Nat} {w w' : World}

/-- No entry point is called from the one world to the other. -/
abbrev NoEntry : World → World → Prop := Emits fun e => e.isEntryCall = false

theorem NoEntry.steps : LoadSteps NoEntry := .emits (fun _ _ => rfl) fun _ _ => rfl

theorem NoEntry.update (handle : Handle) (record : LoadedImage) : Keeps NoEntry (setLoadedImage handle record) :=
  emits_setLoadedImage rfl

/-! ## Launching -/

/-- An image that ran was called once: on the world it was given, with a trap set. -/
theorem MappedImage.run_eq_ok {image : MappedImage} {handle : Handle} {saved : LoadedImage} {exit : Exit}
    (h : image.run (machine n).toFirmware trapsCell handle saved w = .ok exit w') :
    ∃ now status later, (machine n).callEntry image.entry handle now = .ok status later ∧
      now.records = w.records ∧ now.memory = w.memory ∧ now.traps.isInstalled handle = true ∧
      NoEntry w now ∧ NoEntry later w' := by
  unfold MappedImage.run Journal.info Journal.error at h
  rw [machine_toJournal, machine_setLoadedImage] at h
  obtain ⟨log, hr⟩ := installIn_run handle w
  rw [bind_of_ok hr, bind_of_ok (syncCaches_run _ _ _ _)] at h
  obtain ⟨log', h⟩ := (Silent.note _).bind_eq_ok h
  obtain ⟨status, later, hcall, h⟩ := bind_eq_ok_iff.mp h
  refine ⟨_, status, later, hcall, rfl, rfl, isInstalled_install w.traps handle, .of_push rfl rfl, ?_⟩
  rw [bind_of_ok (takeIn_run _ _)] at h
  refine .trans (.of_eq ?_) (Keeps.of_ok ?_ h)
  · rfl
  refine .bind (Emits.ordered _) (emits_silent (.note _)) fun _ => ?_
  refine .bind (Emits.ordered _) (NoEntry.update _ _) fun r => ?_
  cases r with
  | error e => exact emits_silent (.bind (.note _) (.pure _))
  | ok u => exact .pure (Emits.ordered _) _

theorem launch_eq_error {image : MappedImage} {context : LaunchContext} {e : LoadError}
    (h : launch (machine n).toFirmware trapsCell image context w = .ok (.error e) w') : NoEntry w w' := by
  unfold launch Journal.error at h
  rw [machine_toJournal, machine_loadedImage, machine_setLoadedImage, bind_of_ok (loadedImage_run _ _)] at h
  cases hs : w.recordOf context.handle with
  | error fault =>
    rw [hs] at h
    refine Keeps.of_ok ?_ h
    refine .bind (Emits.ordered _) (emits_silent (.note _)) fun _ => ?_
    exact .bind (Emits.ordered _) (NoEntry.steps.release image) fun _ => .pure (Emits.ordered _) _
  | ok saved =>
    rw [hs] at h
    dsimp only at h
    rcases setLoadedImage_run context.handle (context.record saved image.base image.imageSize) w with ⟨fault, hr⟩ | hr
    · rw [bind_of_ok hr] at h
      refine .trans ((NoEntry.update _ _).of_ok hr) (Keeps.of_ok ?_ h)
      refine .bind (Emits.ordered _) (emits_silent (.note _)) fun _ => ?_
      exact .bind (Emits.ordered _) (NoEntry.steps.release image) fun _ => .pure (Emits.ordered _) _
    · rw [bind_of_ok hr] at h
      obtain ⟨exit, w₁, -, h⟩ := bind_eq_ok_iff.mp h
      obtain ⟨u, w₂, -, h⟩ := bind_eq_ok_iff.mp h
      cases h

/-- A launch that has a result called the entry point once: under the record that it gave the
    handle, and under a trap. -/
theorem launch_eq_ok {image : MappedImage} {context : LaunchContext} {exit : Exit}
    (h : launch (machine n).toFirmware trapsCell image context w = .ok (.ok exit) w') :
    ∃ saved now status later, (machine n).callEntry image.entry context.handle now = .ok status later ∧
      w.records.find? context.handle = some saved ∧
      now.records.find? context.handle = some (context.record saved image.base image.imageSize) ∧
      now.memory = w.memory ∧ now.traps.isInstalled context.handle = true ∧
      NoEntry w now ∧ NoEntry later w' := by
  unfold launch Journal.error at h
  rw [machine_toJournal, machine_loadedImage, machine_setLoadedImage, bind_of_ok (loadedImage_run _ _)] at h
  cases hs : w.recordOf context.handle with
  | error fault =>
    rw [hs] at h
    obtain ⟨log, h⟩ := (Silent.note _).bind_eq_ok h
    obtain ⟨u, w₁, -, h⟩ := bind_eq_ok_iff.mp h
    cases h
  | ok saved =>
    rw [hs] at h
    dsimp only at h
    rcases setLoadedImage_run context.handle (context.record saved image.base image.imageSize) w with ⟨fault, hr⟩ | hr
    · rw [bind_of_ok hr] at h
      obtain ⟨log, h⟩ := (Silent.note _).bind_eq_ok h
      obtain ⟨u, w₁, -, h⟩ := bind_eq_ok_iff.mp h
      cases h
    · rw [bind_of_ok hr] at h
      obtain ⟨exit', w₁, hrun, h⟩ := bind_eq_ok_iff.mp h
      obtain ⟨u, w₂, hrel, h⟩ := bind_eq_ok_iff.mp h
      cases h
      obtain ⟨now, status, later, hcall, hrec, hmem, htrap, hbefore, hbehind⟩ := MappedImage.run_eq_ok hrun
      refine ⟨saved, now, status, later, hcall, recordOf_eq_ok hs, ?_, hmem, htrap, ?_, ?_⟩
      · rw [hrec]
        exact Table.find?_insert_self _ _ _
      · exact .trans ((NoEntry.update _ _).of_ok hr) hbefore
      · exact hbehind.trans ((NoEntry.steps.release image).of_ok hrel)

/-! ## Loading and launching -/

theorem ValidatedEvents.no_entry {part : Bytes} {answer : Option Status} {es : List Event}
    {result : Except LoadError Exit} (h : ValidatedEvents part answer es result) :
    ∀ e ∈ es, e.isEntryCall = false := by
  intro e he
  cases h with
  | refused _ =>
    rw [List.mem_singleton.mp he]
    rfl
  | notLoaded _ =>
    simp only [List.mem_cons, List.not_mem_nil, or_false] at he
    rcases he with rfl | rfl
    · rfl
    · rfl
  | started _ hu =>
    simp only [List.mem_cons, List.mem_append, List.not_mem_nil, or_false] at he
    rcases he with rfl | rfl | he | rfl
    · rfl
    · rfl
    · obtain ⟨record, rfl⟩ := hu e he
      rfl
    · rfl

theorem NoEntry.launchValidated (l : Loader) (raw : Bytes) (context : LaunchContext) :
    Keeps NoEntry (l.launchValidated (machine n).toFirmware raw context) := by
  refine .of_run fun w => ?_
  obtain ⟨l', result, es, w', hr, hn, hes⟩ := l.launchValidated_run raw context w
  refine ⟨_, w', hr, es, hn, ?_⟩
  cases hs : Fat.select raw l.config.machine with
  | error e =>
    rw [hs] at hes
    rw [hes.1]
    exact fun _ h => (nomatch h)
  | ok selection =>
    rw [hs] at hes
    exact hes.no_entry

/-- The entry point of a loaded image lies in it, above its base. -/
theorem MappedImage.toNat_entry {rawSize : Nat} {header : Header} {layout : Layout} {allocation : Address}
    (h : Layout.Sound rawSize header layout)
    (ha : allocation.toNat + layout.pages * pageSize ≤ memoryEnd.toNat) :
    (ofAllocation allocation layout header).entry.toNat =
      (ofAllocation allocation layout header).base.toNat + header.entryRva.toNat := by
  have hend : memoryEnd.toNat + UInt32.size + UInt32.size < UInt64.size := by decide
  have hlt := h.alignment_lt
  have hb := (le_base h (show allocation.toNat + layout.alignment ≤ UInt64.size by omega)).2
  have he : header.entryRva.toNat < UInt32.size := header.entryRva.toNat_lt
  exact toNat_entry_of_lt (by omega)

/-- An image gets control: `w` is the world before it was loaded, `now` the one in which its entry
    point is called. -/
structure GetsControl (config : LoaderConfig) (raw : Bytes) (context : LaunchContext) (w now : World) (part : Bytes)
    (header : Header) (image : MappedImage) : Prop where
  selected : (Fat.select raw config.machine).map (·.apply raw) = .ok part
  parsed : Header.parse part config = .ok header
  size_eq : (Layout.of part.size header config).map (·.size) = .ok image.size
  entry_eq : image.entry.toNat = image.base.toNat + header.entryRva.toNat
  entry_lt : header.entryRva < header.imageSize
  /-- What lies at its base is its mapping after a relocation that went through. -/
  memory : Layout.relocated? part header image.size (image.base - header.imageBase) =
    some (now.memory.bytesAt image.base image.size)
  record : ∃ saved, w.records.find? context.handle = some saved ∧
    now.records.find? context.handle = some {
      parent := saved.parent
      device := context.device.getD saved.device
      path := context.path
      options := context.options
      base := image.base
      size := header.imageSize.toUInt64 }
  trapped : now.traps.isInstalled context.handle = true

/-- An attempt that fails calls no entry point. One that runs its image without a check of signatures
    calls one, and the image then gets control. -/
theorem Loader.loadAndLaunch_enters_once {l l' : Loader} {raw : Bytes} {context : LaunchContext}
    {result : Except LoadError Exit} (hp : l.config.pageSize = pageSize)
    (h : l.loadAndLaunch (machine n).toFirmware trapsCell raw context w = .ok (l', result) w') :
    (∀ e, result = .error e → NoEntry w w') ∧
    (∀ exit w₀, result = .ok exit → l.mustValidate (machine n).toFirmware w = .ok false w₀ →
      ∃ part header image now status later, GetsControl l.config raw context w now part header image ∧
        (machine n).callEntry image.entry context.handle now = .ok status later ∧
        NoEntry w now ∧ NoEntry later w') := by
  obtain ⟨log, hm⟩ := l.mustValidate_run (n := n) w
  unfold loadAndLaunch at h
  rw [bind_of_ok hm] at h
  cases hv : l.validates w with
  | true =>
    rw [hv] at h hm
    rw [if_pos rfl] at h
    have hquiet : NoEntry { w with log } w' := (NoEntry.launchValidated l raw context).of_ok h
    constructor
    · exact fun _ _ => hquiet
    · intro exit w₀ he hm'
      rw [hm] at hm'
      cases hm'
  | false =>
    rw [hv, if_neg Bool.false_ne_true] at h
    obtain ⟨⟨l₁, loaded⟩, w₁, hload, h⟩ := bind_eq_ok_iff.mp h
    have hquiet : NoEntry { w with log } w₁ := (NoEntry.steps.load l raw).of_ok hload
    cases loaded with
    | error e =>
      cases h
      exact ⟨fun _ _ => hquiet, fun _ _ he => (nomatch he)⟩
    | ok loaded =>
      obtain ⟨header, image⟩ := loaded
      obtain ⟨log', h⟩ := (l₁.silent_enter .launched).bind_eq_ok h
      obtain ⟨launched, w₂, hlaunch, h⟩ := bind_eq_ok_iff.mp h
      obtain ⟨l₂, hf⟩ := (l₁.withStage .launched).silent_finish (n := n) launched
      obtain ⟨heq, log'', rfl⟩ := hf.eq_ok h
      cases heq
      constructor
      · rintro e rfl
        have hlaunch : NoEntry { w₁ with log := log' } w₂ := launch_eq_error hlaunch
        exact Emits.trans hquiet hlaunch
      · rintro exit w₀ rfl -
        obtain ⟨selection, layout, hs, hh, hl, hend, himage, hrel, hsame⟩ := load_eq_ok hp hload
        obtain ⟨saved, now, status, later, hcall, hsaved, hrec, hmem, htrap, hbefore, hbehind⟩ := launch_eq_ok hlaunch
        obtain ⟨_, _, _, _, _, rfl⟩ := hsame
        refine ⟨selection.apply raw, header, image, now, status, later, ?_, hcall, Emits.trans hquiet hbefore, hbehind⟩
        exact {
          selected := by rw [hs]; rfl
          parsed := hh
          size_eq := by rw [hl, himage]; rfl
          entry_eq := by rw [himage]; exact MappedImage.toNat_entry (Layout.sound_of_eq_ok hp hl) hend
          entry_lt := (Header.parse_bounds hh).1
          memory := by rw [hmem]; exact hrel
          record := ⟨saved, hsaved, by rw [hrec, himage]; rfl⟩
          trapped := htrap }

/-- The smallest sample gets control on a fresh machine. -/
theorem Loader.sample_gets_control :
    ∃ exit part header image now,
      (∃ l' w', loadAndLaunch {} (machine 0).toFirmware trapsCell (Sample.build {}) (.onHandle ownHandle) {} =
        .ok (l', .ok exit) w') ∧
      GetsControl {} (Sample.build {}) (.onHandle ownHandle) {} now part header image := by
  have hok : (value? (loadAndLaunch {} (machine 0).toFirmware trapsCell (Sample.build {}) (.onHandle ownHandle))
      {}).any (·.2.isOk) = true := by decide +kernel
  obtain ⟨⟨l', result⟩, hv, hok⟩ := (Option.any_eq_true _ _).mp hok
  obtain ⟨w', h⟩ := value?_eq_some hv
  cases result with
  | error e => cases hok
  | ok exit =>
    have hm : mustValidate {} (machine 0).toFirmware {} = .ok false {} := rfl
    obtain ⟨part, header, image, now, status, later, hc, -⟩ := (loadAndLaunch_enters_once rfl h).2 exit _ rfl hm
    exact ⟨exit, part, header, image, now, ⟨l', w', h⟩, hc⟩

end Image

end NetBoot
