/-
  NetBoot.Proofs.Image.Stages — the stages that a loader goes through, call by call.

  To run an image on request, a loader takes one step after the other, and what each of them comes to
  can be told from the loader, the file, the context and the world before (`Request.course`). The first
  step that fails decides which stages the loader enters and which error it answers with; whatever
  happens, it is back at `unloaded` behind the request. The image may take pages of its own while it
  runs, so only the events before the hand-over and behind it count (`OwnEvents`): among those, pages
  are taken exactly when the stage `mapped` is reached.

  `Served` says all of this of one request, and `ServedAll` of any number of them in a row.
-/

import NetBoot.Proofs.Image.Errands

namespace NetBoot.Image

open Sim

variable {w w' w'' : World}

/-! ## What the steps come to -/

/-- The steps by which a request is served, those of a validated one last. -/
inductive Step where
  | selection
  | header
  | mapping
  | relocation
  | launch
  | validation
  | firmwareLoad
  deriving DecidableEq, Repr

/-- How a request fails: at which step, and with which error. -/
structure Failure where
  step : Step
  error : LoadError
  deriving DecidableEq, Repr

/-- What a step comes to, as a part of its request. -/
def Step.taking {α : Type} (s : Step) (outcome : Except LoadError α) : Except Failure α :=
  outcome.mapError fun e => ⟨s, e⟩

/-- What mapping a part of a file comes to: the image, and the memory that then holds it. -/
def mapping (w : World) (part : Bytes) (header : Header) (config : LoaderConfig) :
    Except LoadError (MappedImage × Memory) := do
  let layout ← Layout.of part.size header config
  let (allocation, memory) ← (takePages w layout.pages).mapError fun _ => .outOfMemory
  let image := MappedImage.ofAllocation allocation layout header
  return (image, memory.write image.base (Layout.contents part header layout.size))

/-- What relocating a mapped image comes to. -/
def relocation (image : MappedImage) (header : Header) (memory : Memory) : Except LoadError Unit :=
  match header.reloc with
  | none => .ok ()
  | some table => do
    need (header.imageSize.toNat ≤ image.size) .sectionOutsideImage
    let front := memory.bytesAt image.base header.imageSize.toNat
    (Relocation.apply front table (image.loadDelta header) header.machine.family).2.mapError (·.error)

/-- What giving a handle the record of an image comes to. -/
def preparing (w : World) (handle : Handle) : Except LoadError Unit := do
  let _ ← (w.recordOf handle).mapError fun e => .launchFailed e.status
  (w.updateOf handle).mapError fun e => .launchFailed e.status

/-- What loading comes to, and the image that it gives. -/
def loading (config : LoaderConfig) (raw : Bytes) (w : World) : Except Failure MappedImage := do
  let selection ← Step.selection.taking (Fat.select raw config.machine)
  let part := selection.apply raw
  let header ← Step.header.taking (Header.parse part config)
  let (image, memory) ← Step.mapping.taking (mapping w part header config)
  Step.relocation.taking (relocation image header memory)
  return image

/-- What the firmware makes of an image that it is given. -/
def firmwareLoading (w : World) : Except LoadError Unit :=
  match w.loadImageError with
  | some status => .error (.launchFailed status)
  | none => .ok ()

/-- What a validated request comes to. -/
def validating (config : LoaderConfig) (raw : Bytes) (w : World) : Except Failure Unit := do
  let _ ← Step.selection.taking (Fat.select raw config.machine)
  Step.validation.taking (Secure.verdict w.answer)
  Step.firmwareLoad.taking (firmwareLoading w)

/-! ## Requests -/

/-- A call of a loader that is to run an image. -/
inductive Request where
  | launch (raw : Bytes) (context : LaunchContext)
  /-- With a check of its signature, whatever the platform enforces. -/
  | launchValidated (raw : Bytes) (context : LaunchContext)
  deriving Repr

/-- The stages of a request that fails first at a step, or at none. -/
def stagesUntil (validated : Bool) : Option Step → List Stage
  | some .selection | some .header | some .validation => [.unloaded]
  | some .mapping => [.headerParsed, .unloaded]
  | some .relocation => [.headerParsed, .mapped, .unloaded]
  | some .launch => [.headerParsed, .mapped, .relocated, .launched, .unloaded]
  | some .firmwareLoad => [.validatedPassthrough, .unloaded]
  | none =>
    if validated then [.validatedPassthrough, .unloaded]
    else [.headerParsed, .mapped, .relocated, .launched, .unloaded]

/-- The step that failed, if one did. -/
def failedAt? (course : Except Failure Unit) : Option Step :=
  match course with
  | .error f => some f.step
  | .ok () => none

namespace Request

def perform (image : Address → Handle → Sim Status) (l : Loader) : Request → Sim (Loader × Except LoadError Exit)
  | launch raw context => l.loadAndLaunch (entering image) trapsCell raw context
  | launchValidated raw context => l.launchValidated (entering image) raw context

/-- Does the request check the signature? -/
def validates (q : Request) (l : Loader) (w : World) : Bool :=
  match q with
  | launch .. => l.validates w
  | launchValidated .. => true

def raw : Request → Bytes
  | launch raw _ => raw
  | launchValidated raw _ => raw

def context : Request → LaunchContext
  | launch _ context => context
  | launchValidated _ context => context

/-- What the request comes to in a world: its first failure, if a step fails. -/
def course (q : Request) (l : Loader) (w : World) : Except Failure Unit :=
  if q.validates l w then validating l.config q.raw w
  else do
    let _ ← loading l.config q.raw w
    Step.launch.taking (preparing w q.context.handle)

/-- The stages that the request enters. -/
def stages (q : Request) (l : Loader) (w : World) : List Stage :=
  stagesUntil (q.validates l w) (failedAt? (q.course l w))

/-- A request up to the call of the entry point, if it comes to that. -/
def start (l : Loader) : Request → Sim (Except (Loader × Except LoadError Exit) (Loader × Launching))
  | launch raw context => l.start raw context
  | launchValidated raw context => do
    let r ← l.launchValidated (machine 0).toFirmware raw context
    return .error r

theorem perform_eq (q : Request) (l : Loader) (image : Address → Handle → Sim Status) :
    q.perform image l = orClaim (q.start l) fun claim =>
      image claim.2.image.entry claim.2.context.handle >>= claim.1.settle claim.2 := by
  cases q with
  | launch raw context => exact l.loadAndLaunch_eq raw context image
  | launchValidated raw context => exact (orClaim_of_result _ _).symm

end Request

/-- The events of a request that are its own: all of them, or those around the run of its image. -/
inductive OwnEvents (image : Address → Handle → Sim Status) (q : Request) (l : Loader) (w w' : World) :
    List Event → Prop
  | alone {es : List Event} {r : Loader × Except LoadError Exit} (hs : q.start l w = .ok (.error r) w')
      (hn : Noted es w w') : OwnEvents image q l w w' es
  | around {before behind : List Event} {l₁ : Loader} {launching : Launching} {now later : World} {status : Status}
      {r : Loader × Except LoadError Exit} (hs : q.start l w = .ok (.ok (l₁, launching)) now)
      (hi : image launching.image.entry launching.context.handle now = .ok status later)
      (hf : l₁.settle launching status later = .ok r w') (hn : Noted before w now) (hn' : Noted behind later w') :
      OwnEvents image q l w w' (before ++ behind)

/-- The loader `l` has served a request in the world `w`, which left the two as `l'` and `w'`. -/
structure Served (image : Address → Handle → Sim Status) (l : Loader) (w : World) (q : Request)
    (result : Except LoadError Exit) (l' : Loader) (w' : World) : Prop where
  config_eq : l'.config = l.config
  history_eq : l'.history = l.history ++ q.stages l w
  unloaded : l'.stage = .unloaded
  stages_mem : q.stages l w ∈ [[.unloaded], [.headerParsed, .unloaded], [.headerParsed, .mapped, .unloaded],
    [.headerParsed, .mapped, .relocated, .launched, .unloaded], [.validatedPassthrough, .unloaded]]
  /-- The result is the error of the first step that fails; without one, an exit. -/
  result_eq : match q.course l w with
    | .error f => result = .error f.error
    | .ok () => ∃ exit, result = .ok exit
  of_ok : ∀ exit, result = .ok exit → q.stages l w = [.headerParsed, .mapped, .relocated, .launched, .unloaded] ∨
    q.stages l w = [.validatedPassthrough, .unloaded]
  pages : ∃ es, OwnEvents image q l w w' es ∧ (taken es).length = if .mapped ∈ q.stages l w then 1 else 0

/-- Requests that one loader served in a row. -/
inductive ServedAll (image : Address → Handle → Sim Status) :
    Loader → World → List Request → List (Except LoadError Exit) → Loader → World → Prop
  | none {l : Loader} {w : World} : ServedAll image l w [] [] l w
  | next {l l₁ l' : Loader} {w w₁ w' : World} {q : Request} {qs : List Request} {result : Except LoadError Exit}
      {results : List (Except LoadError Exit)} : Served image l w q result l₁ w₁ →
      ServedAll image l₁ w₁ qs results l' w' → ServedAll image l w (q :: qs) (result :: results) l' w'

/-- Serves the requests one after the other. -/
def serveAll (image : Address → Handle → Sim Status) :
    List Request → Loader → Sim (Loader × List (Except LoadError Exit))
  | [], l => return (l, [])
  | q :: qs, l => do
    let (l, result) ← q.perform image l
    let (l, results) ← serveAll image qs l
    return (l, result :: results)

/-! ## Pages -/

/-- A run took these runs of pages, in their order. -/
def Takes (runs : List PageRun) (w w' : World) : Prop := ∃ es, Noted es w w' ∧ taken es = runs

namespace Takes

variable {runs runs' : List PageRun}

theorem trans (h : Takes runs w w') (h' : Takes runs' w' w'') : Takes (runs ++ runs') w w'' := by
  obtain ⟨es, hn, rfl⟩ := h
  obtain ⟨es', hn', rfl⟩ := h'
  exact ⟨es ++ es', hn.trans hn', taken_append es es'⟩

theorem of_same (h : SamePages w w') : Takes [] w w' := by
  obtain ⟨es, hn, hquiet⟩ := h.events
  exact ⟨es, hn, taken_of_quiet hquiet⟩

theorem ordered : Ordered (Takes []) := ⟨fun _ => ⟨[], .nil rfl, rfl⟩, fun h h' => h.trans h'⟩

theorem same {α : Type} {x : Sim α} (hx : Total SamePages x) : Keeps (Takes []) x := by
  refine .of_run fun w => ?_
  obtain ⟨a, w', hr, hs⟩ := hx w
  exact ⟨a, w', hr, of_same hs⟩

theorem silent {α : Type} {x : Sim α} {a : α} (hx : Silent x a) : Keeps (Takes []) x := same (SamePages.silent hx)

/-- Giving pages back takes none. -/
theorem release (image : MappedImage) : Keeps (Takes []) (image.release (machine 0).toFirmware) := by
  unfold MappedImage.release Journal.trace
  rw [machine_toJournal, machine_freePages]
  refine .bind ordered (silent (.note _)) fun _ w => ?_
  obtain ⟨allocations, ha⟩ := freePages_after image.allocation image.pages w
  rw [ha]
  exact ⟨_, .push rfl, rfl⟩

end Takes

/-! ## Loading -/

namespace MappedImage

/-- Mapping takes the pages of its image, and none if it fails. -/
theorem map_run (part : Bytes) (header : Header) (config : LoaderConfig) (w : World) :
    ∃ w', map (machine 0).toFirmware part header config w = .ok ((mapping w part header config).map (·.1)) w' ∧
      Takes (pagesOf ((mapping w part header config).map (·.1))) w w' ∧
      ∀ image memory, mapping w part header config = .ok (image, memory) → w'.memory = memory := by
  unfold map
  rw [machine_toJournal, machine_allocatePages]
  cases hl : Layout.of part.size header config with
  | error e =>
    have hm : mapping w part header config = .error e := by
      rw [mapping, hl]
      rfl
    dsimp only
    obtain ⟨log, hr⟩ := (Silent.notes (Layout.notes header e)).bind_run _ w
    rw [hr, hm]
    exact ⟨_, rfl, Takes.ordered.refl w, fun _ _ h => by cases h⟩
  | ok layout =>
    dsimp only
    rcases allocatePages_run layout.pages w with ⟨e, ht, hr⟩ | ⟨base, memory, ht, log, hr⟩
    · have hm : mapping w part header config = .error .outOfMemory := by
        simp only [mapping, bind, Except.bind, hl, mapError_error, ht]
      rw [bind_of_ok hr, hm]
      exact ⟨_, rfl, ⟨_, .push rfl, rfl⟩, fun _ _ h => by cases h⟩
    · have hm : mapping w part header config = .ok (ofAllocation base layout header,
          memory.write (ofAllocation base layout header).base (Layout.contents part header layout.size)) := by
        simp only [mapping, bind, Except.bind, hl, mapError_ok, ht]
        rfl
      rw [bind_of_ok hr, hm]
      dsimp only
      rw [bind_of_ok (writeMemory_run _ _ _ _)]
      obtain ⟨log', hr'⟩ := Silent.bind_run (Silent.notes _) _ _
      rw [hr']
      refine ⟨_, rfl, ⟨_, .push rfl, rfl⟩, fun image' memory' h => ?_⟩
      cases h
      rfl

/-- Relocating leaves the pages alone. -/
theorem relocate_run (image : MappedImage) (header : Header) (w : World) :
    ∃ w', image.relocate (machine 0).toFirmware header (image.loadDelta header) w =
      .ok (relocation image header w.memory) w' ∧ Takes [] w w' := by
  have hr : ∃ w', image.relocate (machine 0).toFirmware header (image.loadDelta header) w =
      .ok (relocation image header w.memory) w' := by
    unfold relocate relocation Journal.debug
    rw [machine_toJournal]
    cases header.reloc with
    | none =>
      obtain ⟨log, hr⟩ := (Silent.note _).bind_run _ w
      exact ⟨_, hr⟩
    | some table =>
      dsimp only
      by_cases hsize : image.size < header.imageSize.toNat
      · rw [if_pos hsize, need, if_neg (Nat.not_le.mpr hsize)]
        exact ⟨w, rfl⟩
      · rw [if_neg hsize, need, if_pos (Nat.le_of_not_lt hsize), bind_of_ok (readMemory_run _ _ _ _)]
        rcases hr : Relocation.apply (w.memory.bytesAt image.base header.imageSize.toNat) table
          (image.loadDelta header) header.machine.family with ⟨front, fault | ⟨⟨⟩⟩⟩
        · dsimp only
          rw [bind_of_ok (writeMemory_run _ _ _ _)]
          obtain ⟨log, hr'⟩ := Silent.bind_run (Silent.notes fault.notes) _ _
          exact ⟨_, hr'⟩
        · dsimp only
          rw [bind_of_ok (writeMemory_run _ _ _ _)]
          obtain ⟨log, hr'⟩ := Silent.bind_run (Silent.note _) _ _
          exact ⟨_, hr'⟩
  obtain ⟨w', hr⟩ := hr
  exact ⟨w', hr, (Takes.same (image.same_pages_relocate header _)).of_ok hr⟩

end MappedImage

namespace Loader

/-- Some more stages behind those that were entered. -/
def withStages (l : Loader) (ss : List Stage) : Loader := { l with history := l.history ++ ss }

theorem withStage_eq (l : Loader) (s : Stage) : l.withStage s = l.withStages [s] := rfl

@[simp] theorem withStages_withStages (l : Loader) (ss ss' : List Stage) :
    (l.withStages ss).withStages ss' = l.withStages (ss ++ ss') := by
  simp only [withStages, List.append_assoc]

/-- Mapping and relocating, with the stages that are entered and the pages that are taken. -/
theorem mapAndRelocate_outcome {l l' : Loader} {part : Bytes} {header : Header} {r : Except LoadError MappedImage}
    {m : Except LoadError (MappedImage × Memory)}
    (h : l.mapAndRelocate (machine 0).toFirmware part header w = .ok (l', r) w')
    (hm : mapping w part header l.config = m) :
    match m with
    | .error e => r = .error e ∧ l' = l.withStages [.unloaded] ∧ Takes [] w w'
    | .ok (image, memory) => Takes [image.pageRun] w w' ∧
      match relocation image header memory with
      | .error e => r = .error e ∧ l' = l.withStages [.mapped, .unloaded]
      | .ok () => r = .ok image ∧ l' = l.withStages [.mapped, .relocated] := by
  unfold mapAndRelocate at h
  obtain ⟨w₁, hr, ht, hmemory⟩ := MappedImage.map_run part header l.config w
  rw [bind_of_ok hr] at h
  rcases m with e | ⟨image, memory⟩
  · rw [hm] at h ht
    obtain ⟨log, h⟩ := (l.silent_fail e).bind_eq_ok h
    cases h
    exact ⟨rfl, rfl, ht⟩
  · rw [hm] at h ht
    obtain ⟨log, h⟩ := (l.silent_enter .mapped).bind_eq_ok h
    obtain ⟨w₂, hr', ht'⟩ := image.relocate_run header { w₁ with log }
    have hrel : relocation image header w₁.memory = relocation image header memory := by rw [hmemory _ _ hm]
    have ht' : Takes [] w₁ w₂ := ht'
    rw [bind_of_ok hr'] at h
    dsimp only at h ⊢
    rw [hrel] at h
    cases hc : relocation image header memory with
    | error e =>
      rw [hc] at h
      obtain ⟨u, w₃, hrelease, h⟩ := bind_eq_ok_iff.mp h
      obtain ⟨log', h⟩ := (silent_fail _ e).bind_eq_ok h
      cases h
      have ht'' : Takes [] w₂ w₃ := (Takes.release image).of_ok hrelease
      exact ⟨ht.trans (ht'.trans ht''), rfl, by simp [withStage_eq]⟩
    | ok u =>
      rw [hc] at h
      obtain ⟨log', h⟩ := (silent_enter _ .relocated).bind_eq_ok h
      cases h
      exact ⟨ht.trans ht', rfl, by simp [withStage_eq]⟩

/-- Loading gives the image that its steps come to, or ends with their first failure. -/
theorem load_outcome {l l' : Loader} {raw : Bytes} {r : Except LoadError (Header × MappedImage)}
    (h : l.load (machine 0).toFirmware raw w = .ok (l', r) w') :
    match loading l.config raw w with
    | .error f => r = .error f.error ∧ l' = l.withStages (stagesUntil false (some f.step)) ∧
      ∃ runs, Takes runs w w' ∧ runs.length = if .mapped ∈ stagesUntil false (some f.step) then 1 else 0
    | .ok image => r.map (·.2) = .ok image ∧ l' = l.withStages [.headerParsed, .mapped, .relocated] ∧
      Takes [image.pageRun] w w' := by
  unfold load at h
  obtain ⟨log, h⟩ := (l.silent_select raw).bind_eq_ok h
  cases hs : Fat.select raw l.config.machine with
  | error e =>
    have hc : loading l.config raw w = .error ⟨.selection, e⟩ := by rw [loading, hs]; rfl
    rw [hs] at h
    obtain ⟨log', h⟩ := (l.silent_fail e).bind_eq_ok h
    cases h
    rw [hc]
    exact ⟨rfl, rfl, [], ⟨[], .nil rfl, rfl⟩, rfl⟩
  | ok selection =>
    rw [hs] at h
    obtain ⟨log', h⟩ := (l.silent_parse _).bind_eq_ok h
    cases hh : Header.parse (selection.apply raw) l.config with
    | error e =>
      have hc : loading l.config raw w = .error ⟨.header, e⟩ := by
        simp only [loading, hs, bind, Except.bind, Step.taking, mapError_ok, mapError_error, hh]
      rw [hh] at h
      obtain ⟨log'', h⟩ := (l.silent_fail e).bind_eq_ok h
      cases h
      rw [hc]
      exact ⟨rfl, rfl, [], ⟨[], .nil rfl, rfl⟩, rfl⟩
    | ok header =>
      rw [hh] at h
      obtain ⟨log'', h⟩ := (l.silent_enter .headerParsed).bind_eq_ok h
      obtain ⟨⟨l₁, image⟩, w₁, hr, h⟩ := bind_eq_ok_iff.mp h
      cases h
      rcases hm : mapping w (selection.apply raw) header l.config with e | ⟨image', memory⟩
      · have hc : loading l.config raw w = .error ⟨.mapping, e⟩ := by
          simp only [loading, hs, bind, Except.bind, Step.taking, mapError_ok, mapError_error, hh, hm]
        obtain ⟨rfl, rfl, ht⟩ := mapAndRelocate_outcome hr hm
        rw [hc]
        exact ⟨rfl, by simp [withStage_eq, stagesUntil], [], ht, rfl⟩
      · obtain ⟨ht, hrel⟩ := mapAndRelocate_outcome hr hm
        cases hf : relocation image' header memory with
        | error e =>
          have hc : loading l.config raw w = .error ⟨.relocation, e⟩ := by
            simp only [loading, hs, bind, Except.bind, Step.taking, mapError_ok, mapError_error, hh, hm, hf]
          rw [hf] at hrel
          obtain ⟨rfl, rfl⟩ := hrel
          rw [hc]
          exact ⟨rfl, by simp [withStage_eq, stagesUntil], _, ht, rfl⟩
        | ok u =>
          have hc : loading l.config raw w = .ok image' := by
            simp only [loading, hs, bind, Except.bind, Step.taking, mapError_ok, hh, hm, hf]
            rfl
          rw [hf] at hrel
          obtain ⟨rfl, rfl⟩ := hrel
          rw [hc]
          exact ⟨rfl, by simp [withStage_eq], ht⟩

end Loader

/-! ## Launching -/

namespace Launching

/-- A launch starts if its handle can be prepared. -/
theorem start_outcome {image : MappedImage} {context : LaunchContext} {r : Except LoadError Launching}
    (h : start (machine 0).toFirmware trapsCell image context w = .ok r w') :
    r.map (·.image) = (preparing w context.handle).map fun _ => image := by
  unfold start Journal.error Journal.info at h
  rw [machine_toJournal, machine_loadedImage, machine_setLoadedImage, bind_of_ok (loadedImage_run _ _)] at h
  -- a failure ends with a note, and the pages given back
  have hfail {v : World} {e : LoadError} {note : Log.Record}
      (h : (do
        keepLog note
        image.release (machine 0).toFirmware
        return Except.error e : Sim (Except LoadError Launching)) v = .ok r w') : r = .error e := by
    obtain ⟨log, h⟩ := (Silent.note _).bind_eq_ok h
    obtain ⟨u, v', hr, h⟩ := bind_eq_ok_iff.mp h
    cases h
    rfl
  cases hs : w.recordOf context.handle with
  | error fault =>
    have hp : preparing w context.handle = .error (.launchFailed fault.status) := by rw [preparing, hs]; rfl
    rw [hs] at h
    rw [hfail h, hp]
    rfl
  | ok saved =>
    rw [hs] at h
    dsimp only at h
    obtain ⟨w₁, hu, -⟩ := setLoadedImage_noted context.handle (context.record saved image.base image.imageSize) w
    rw [bind_of_ok hu] at h
    cases hupdate : w.updateOf context.handle with
    | error fault =>
      have hp : preparing w context.handle = .error (.launchFailed fault.status) := by
        simp only [preparing, bind, Except.bind, hs, mapError_ok, mapError_error, hupdate]
      rw [hupdate] at h
      rw [hfail h, hp]
      rfl
    | ok u =>
      have hp : preparing w context.handle = .ok () := by
        simp only [preparing, bind, Except.bind, hs, mapError_ok, hupdate]
      rw [hupdate] at h
      dsimp only at h
      obtain ⟨log, ht⟩ := installIn_run context.handle w₁
      rw [bind_of_ok ht, bind_of_ok (syncCaches_run _ _ _ _)] at h
      obtain ⟨log', h⟩ := (Silent.note _).bind_eq_ok h
      cases h
      rw [hp]
      rfl

theorem start_takes (image : MappedImage) (context : LaunchContext) :
    Keeps (Takes []) (start (machine 0).toFirmware trapsCell image context) := by
  unfold start Journal.error Journal.info
  rw [machine_toJournal, machine_loadedImage, machine_setLoadedImage]
  refine .bind Takes.ordered (Takes.same (SamePages.query _)) fun r => ?_
  cases r with
  | error e =>
    refine .bind Takes.ordered (Takes.silent (.note _)) fun _ => ?_
    exact .bind Takes.ordered (Takes.release image) fun _ => .pure Takes.ordered _
  | ok saved =>
    refine .bind Takes.ordered (Takes.same (SamePages.update _ _)) fun r => ?_
    cases r with
    | error e =>
      refine .bind Takes.ordered (Takes.silent (.note _)) fun _ => ?_
      exact .bind Takes.ordered (Takes.release image) fun _ => .pure Takes.ordered _
    | ok u =>
      refine .bind Takes.ordered (Takes.same (SamePages.install _)) fun token => ?_
      refine .bind Takes.ordered (Takes.same (SamePages.syncCaches _ _)) fun _ => ?_
      exact Takes.silent (.bind (.note _) (.pure _))

end Launching

namespace Loader

theorem silent_unwind (l : Loader) (result : Except LoadError Exit) :
    Silent (l.finish (machine 0).toFirmware result) (l.withStage .unloaded, result) := by
  cases result with
  | error e => exact .bind (l.silent_fail e) (.pure _)
  | ok exit => exact .bind (l.silent_enter _) (.pure _)

/-- Settling a launch takes no pages, and leaves the loader at `unloaded` with an exit. -/
theorem settle_outcome {l l' : Loader} {launching : Launching} {status : Status} {result : Except LoadError Exit}
    (h : l.settle launching status w = .ok (l', result) w') :
    l' = l.withStage .unloaded ∧ (∃ exit, result = .ok exit) ∧ Takes [] w w' := by
  unfold settle Launching.finish at h
  rw [bind_assoc] at h
  obtain ⟨exit, w₁, hr, h⟩ := bind_eq_ok_iff.mp h
  rw [bind_assoc] at h
  obtain ⟨u, w₂, hrelease, h⟩ := bind_eq_ok_iff.mp h
  obtain ⟨heq, log, rfl⟩ := (l.silent_unwind (.ok exit)).eq_ok h
  cases heq
  have ht : Takes [] w w₁ := (Takes.same (launching.same_pages_comeBack status)).of_ok hr
  have ht' : Takes [] w₁ w₂ := (Takes.release _).of_ok hrelease
  exact ⟨rfl, ⟨_, rfl⟩, ht.trans ht'⟩

/-- A loaded image is launched, and its loader is done for if the handle cannot be prepared. -/
theorem startLoaded_outcome {l : Loader} {context : LaunchContext} {header : Header} {image : MappedImage}
    {s : Except (Loader × Except LoadError Exit) (Loader × Launching)}
    (h : startLoaded context (l, .ok (header, image)) w = .ok s w') :
    Takes [] w w' ∧
    match preparing w context.handle with
    | .error e => s = .error (l.withStages [.launched, .unloaded], .error e)
    | .ok () => ∃ launching, s = .ok (l.withStages [.launched], launching) := by
  obtain ⟨log, h⟩ := (l.silent_enter .launched).bind_eq_ok h
  obtain ⟨started, w₁, hr, h⟩ := bind_eq_ok_iff.mp h
  have ht : Takes [] w w₁ := (Launching.start_takes image context).of_ok (w := { w with log }) hr
  have hp : started.map (·.image) = (preparing w context.handle).map fun _ => image :=
    Launching.start_outcome (w := { w with log }) hr
  cases started with
  | error e =>
    obtain ⟨r, w₂, hf, h⟩ := bind_eq_ok_iff.mp h
    cases h
    obtain ⟨rfl, log', rfl⟩ := (silent_unwind _ (.error e)).eq_ok hf
    cases hprep : preparing w context.handle with
    | error e' =>
      rw [hprep] at hp
      cases hp
      exact ⟨ht, by simp [withStage_eq]⟩
    | ok u =>
      rw [hprep] at hp
      cases hp
  | ok launching =>
    cases h
    cases hprep : preparing w context.handle with
    | error e' =>
      rw [hprep] at hp
      cases hp
    | ok u => exact ⟨ht, launching, rfl⟩

/-! ## Validated requests -/

/-- The firmware starts every image that it loads. -/
theorem runByFirmware_outcome (image : Bytes) (context : LaunchContext) (w : World) :
    ∃ result w', runByFirmware (machine 0).toFirmware image context w = .ok result w' ∧
      match firmwareLoading w with
      | .error e => result = .error e
      | .ok () => ∃ exit, result = .ok exit := by
  unfold runByFirmware Journal.error Journal.info firmwareLoading
  rw [machine_toJournal, machine_loadImage, machine_startImage]
  rcases loadImage_run context.handle context.path image w with ⟨status, hl, hr⟩ | ⟨hl, hr⟩
  · rw [bind_of_ok hr, hl]
    obtain ⟨log, hr'⟩ := Silent.bind_run (Silent.note _) _ _
    exact ⟨_, _, hr', rfl⟩
  · rw [bind_of_ok hr, hl]
    dsimp only
    obtain ⟨w₁, updates, hp, -⟩ := prepare_run (n := 0) _ context _
    rw [bind_of_ok hp]
    obtain ⟨exit, w₂, hs, -⟩ := startImage_noted _ w₁
    rw [bind_of_ok hs]
    obtain ⟨log, hr'⟩ := Silent.bind_run (Silent.note _) _ _
    exact ⟨_, _, hr', exit, rfl⟩

/-- A validated request ends with the first failure of its steps, or with an exit. -/
theorem launchValidated_outcome {l l' : Loader} {raw : Bytes} {context : LaunchContext} {result : Except LoadError Exit}
    (h : l.launchValidated (machine 0).toFirmware raw context w = .ok (l', result) w') :
    match validating l.config raw w with
    | .error f => result = .error f.error ∧ l' = l.withStages (stagesUntil true (some f.step))
    | .ok () => (∃ exit, result = .ok exit) ∧ l' = l.withStages (stagesUntil true none) := by
  unfold launchValidated at h
  obtain ⟨log, h⟩ := (l.silent_select raw).bind_eq_ok h
  cases hs : Fat.select raw l.config.machine with
  | error e =>
    have hc : validating l.config raw w = .error ⟨.selection, e⟩ := by rw [validating, hs]; rfl
    rw [hs] at h
    obtain ⟨heq, -⟩ := (l.silent_unwind (.error e)).eq_ok h
    cases heq
    rw [hc]
    exact ⟨rfl, rfl⟩
  | ok selection =>
    rw [hs] at h
    dsimp only [Except.map] at h
    unfold Secure.validate at h
    rw [machine_toJournal, machine_verify, bind_assoc] at h
    obtain ⟨verifier, hv⟩ := verify_run (selection.apply raw) { w with log }
    rw [bind_of_ok hv, bind_assoc] at h
    obtain ⟨log', h⟩ := (Silent.note _).bind_eq_ok h
    have hanswer : ({ w with log } : World).answer = w.answer := rfl
    rw [hanswer, pure_bind] at h
    cases hverdict : Secure.verdict w.answer with
    | error e =>
      have hc : validating l.config raw w = .error ⟨.validation, e⟩ := by
        simp only [validating, bind, Except.bind, hs, Step.taking, mapError_ok, mapError_error, hverdict]
      rw [hverdict] at h
      obtain ⟨heq, -⟩ := (l.silent_unwind (.error e)).eq_ok h
      cases heq
      rw [hc]
      exact ⟨rfl, rfl⟩
    | ok u =>
      rw [hverdict] at h
      obtain ⟨log'', h⟩ := (l.silent_enter .validatedPassthrough).bind_eq_ok h
      obtain ⟨result', w₁, hr, hresult⟩ := runByFirmware_outcome (selection.apply raw) context
        { w with verifier, events := w.events.push (.verify (selection.apply raw) w.answer), log := log'' }
      obtain ⟨_, _, hr', h⟩ := bind_eq_ok_iff.mp h
      cases hr.symm.trans hr'
      obtain ⟨heq, -⟩ := (silent_unwind _ result').eq_ok h
      cases heq
      have hresult : match firmwareLoading w with
          | .error e => result = .error e
          | .ok () => ∃ exit, result = .ok exit := hresult
      cases hf : firmwareLoading w with
      | error e =>
        have hc : validating l.config raw w = .error ⟨.firmwareLoad, e⟩ := by
          simp only [validating, bind, Except.bind, hs, Step.taking, mapError_ok, mapError_error, hverdict, hf]
        rw [hf] at hresult
        rw [hc]
        exact ⟨hresult, by simp [withStage_eq, stagesUntil]⟩
      | ok u =>
        have hc : validating l.config raw w = .ok () := by
          simp only [validating, bind, Except.bind, hs, Step.taking, mapError_ok, hverdict, hf]
        rw [hf] at hresult
        rw [hc]
        exact ⟨hresult, by simp [withStage_eq, stagesUntil]⟩

end Loader

/-! ## One request -/

theorem SameButMemory.steps : LoadSteps SameButMemory where
  toOrdered := ordered
  log _ _ := ⟨_, _, _, _, _, rfl⟩
  memory _ _ := ⟨_, _, _, _, _, rfl⟩
  allocate pages := by
    refine .of_run fun w => ?_
    rcases allocatePages_run pages w with ⟨e, -, hr⟩ | ⟨base, memory, -, log, hr⟩
    · exact ⟨_, _, hr, _, _, _, _, _, rfl⟩
    · exact ⟨_, _, hr, _, _, _, _, _, rfl⟩
  free base pages := by
    intro w
    obtain ⟨allocations, ha⟩ := freePages_after base pages w
    rw [ha]
    exact ⟨_, _, _, _, _, rfl⟩

/-- What loading changes has no part in preparing a handle. -/
theorem SameButMemory.preparing_eq (h : SameButMemory w w') (handle : Handle) :
    preparing w' handle = preparing w handle := by
  obtain ⟨_, _, _, _, _, rfl⟩ := h
  rfl

namespace Request

/-- How a request ends that does not hand over. -/
structure Ends (q : Request) (l : Loader) (w : World) (r : Loader × Except LoadError Exit) : Prop where
  loader_eq : r.1 = l.withStages (q.stages l w)
  result_eq : match q.course l w with
    | .error f => r.2 = .error f.error
    | .ok () => ∃ exit, r.2 = .ok exit

variable {q : Request} {l l' : Loader} {r : Loader × Except LoadError Exit} {f : Failure}

theorem stages_of_error (h : q.course l w = .error f) : q.stages l w = stagesUntil (q.validates l w) (some f.step) := by
  rw [stages, h, failedAt?]

theorem stages_of_ok (h : q.course l w = .ok ()) : q.stages l w = stagesUntil (q.validates l w) none := by
  rw [stages, h, failedAt?]

/-- The steps of a validated request map nothing. -/
theorem mapped_not_mem_of_validates (h : q.validates l w = true) : .mapped ∉ q.stages l w := by
  unfold stages course
  rw [if_pos h, h, validating]
  cases Fat.select q.raw l.config.machine with
  | error e => exact show Stage.mapped ∉ [Stage.unloaded] by decide
  | ok selection =>
    cases Secure.verdict w.answer with
    | error e => exact show Stage.mapped ∉ [Stage.unloaded] by decide
    | ok u =>
      cases firmwareLoading w with
      | error e => exact show Stage.mapped ∉ [Stage.validatedPassthrough, .unloaded] by decide
      | ok u => exact show Stage.mapped ∉ [Stage.validatedPassthrough, .unloaded] by decide

/-- A validated request ends, and takes no pages. -/
theorem ends_of_validates {context : LaunchContext} {v : World} (hlog : ∃ log, v = { w with log })
    (hv : q.validates l w = true) (h : l.launchValidated (machine 0).toFirmware q.raw context v = .ok r w') :
    q.Ends l w r ∧ ∃ runs, Takes runs w w' ∧ runs.length = if .mapped ∈ q.stages l w then 1 else 0 := by
  obtain ⟨log, rfl⟩ := hlog
  obtain ⟨l', result⟩ := r
  have ht : Takes [] { w with log } w' := (Takes.same (l.same_pages_launchValidated q.raw context)).of_ok h
  refine ⟨?_, [], ht, by rw [if_neg (mapped_not_mem_of_validates hv)]; rfl⟩
  have hc : q.course l w = validating l.config q.raw w := if_pos hv
  have hlog : validating l.config q.raw { w with log } = validating l.config q.raw w := rfl
  have h := Loader.launchValidated_outcome h
  rw [hlog] at h
  cases hf : validating l.config q.raw w with
  | error f =>
    rw [hf] at h hc
    exact ⟨by rw [stages_of_error hc, hv]; exact h.2, by rw [hc]; exact h.1⟩
  | ok u =>
    rw [hf] at h hc
    exact ⟨by rw [stages_of_ok hc, hv]; exact h.2, by rw [hc]; exact h.1⟩

/-- A request that ends before the hand-over has failed, unless it is a validated one; one that hands
    over has taken all of its steps. Pages are taken when the file is mapped. -/
theorem start_outcome {s : Except (Loader × Except LoadError Exit) (Loader × Launching)}
    (h : q.start l w = .ok s w') :
    (∃ runs, Takes runs w w' ∧ runs.length = if .mapped ∈ q.stages l w then 1 else 0) ∧
    match s with
    | .error r => q.Ends l w r
    | .ok (l', _) => q.course l w = .ok () ∧ q.validates l w = false ∧
      l' = l.withStages [.headerParsed, .mapped, .relocated, .launched] := by
  cases q with
  | launchValidated raw context =>
    obtain ⟨r, w₁, hr, h⟩ := bind_eq_ok_iff.mp h
    cases h
    exact (ends_of_validates (q := .launchValidated raw context) ⟨w.log, rfl⟩ rfl hr).symm
  | launch raw context =>
    have h : l.start raw context w = .ok s w' := h
    unfold Loader.start at h
    obtain ⟨log, hm⟩ := l.mustValidate_run (n := 0) w
    rw [bind_of_ok hm] at h
    cases hv : l.validates w with
    | true =>
      rw [hv, if_pos rfl] at h
      obtain ⟨r, w₁, hr, h⟩ := bind_eq_ok_iff.mp h
      cases h
      exact (ends_of_validates (q := .launch raw context) ⟨log, rfl⟩ hv hr).symm
    | false =>
      rw [hv, if_neg Bool.false_ne_true] at h
      have hc : (launch raw context).course l w = (do
        let _ ← loading l.config raw w
        Step.launch.taking (preparing w context.handle)) := if_neg (by rw [validates, hv]; exact Bool.false_ne_true)
      obtain ⟨⟨l₁, loaded⟩, w₁, hload, h⟩ := bind_eq_ok_iff.mp h
      have hsame : SameButMemory w w₁ := by
        have := (SameButMemory.steps.load l raw).of_ok hload
        exact SameButMemory.ordered.trans ⟨_, _, _, _, _, rfl⟩ this
      have hlog : loading l.config raw { w with log } = loading l.config raw w := rfl
      have hout := Loader.load_outcome hload
      rw [hlog] at hout
      cases hl : loading l.config raw w with
      | error f =>
        have hf : (launch raw context).course l w = .error f := by
          rw [hc, hl]
          rfl
        rw [hl] at hout
        obtain ⟨rfl, rfl, runs, ht, hlen⟩ := hout
        cases h
        have hs : (launch raw context).stages l w = stagesUntil false (some f.step) := by
          rw [stages_of_error hf, validates, hv]
        rw [hs]
        exact ⟨⟨runs, ht, hlen⟩, by rw [hs], by rw [hf]⟩
      | ok image =>
        have hf : (launch raw context).course l w = Step.launch.taking (preparing w context.handle) := by
          rw [hc, hl]
          rfl
        have hs : (launch raw context).stages l w = [.headerParsed, .mapped, .relocated, .launched, .unloaded] := by
          unfold stages
          rw [hf, validates, hv]
          cases preparing w context.handle <;> rfl
        rw [hl] at hout
        obtain ⟨hloaded, rfl, ht⟩ := hout
        rcases loaded with e | ⟨header, image⟩
        · cases hloaded
        · cases hloaded
          obtain ⟨ht', hout⟩ := Loader.startLoaded_outcome h
          rw [hsame.preparing_eq] at hout
          rw [hs]
          refine ⟨⟨_, ht.trans ht', rfl⟩, ?_⟩
          cases hp : preparing w context.handle with
          | error e =>
            rw [hp] at hout hf
            subst hout
            exact ⟨by simp [hs], by rw [hf]; rfl⟩
          | ok u =>
            rw [hp] at hout hf
            obtain ⟨launching, rfl⟩ := hout
            exact ⟨hf, hv, by simp⟩

end Request

/-- The stages of a request are one of five sequences, whatever it comes to. -/
theorem stagesUntil_mem (validated : Bool) (failed : Option Step) :
    stagesUntil validated failed ∈ [[.unloaded], [.headerParsed, .unloaded], [.headerParsed, .mapped, .unloaded],
      [.headerParsed, .mapped, .relocated, .launched, .unloaded], [.validatedPassthrough, .unloaded]] := by
  rcases failed with _ | step
  · cases validated <;> decide
  · cases step <;> simp [stagesUntil]

theorem stagesUntil_getLast? (validated : Bool) (failed : Option Step) :
    (stagesUntil validated failed).getLast? = some .unloaded := by
  rcases failed with _ | step
  · cases validated <;> rfl
  · cases step <;> rfl

namespace Request

variable {image : Address → Handle → Sim Status} {q : Request} {l l' : Loader} {result : Except LoadError Exit}

/-- What is left to say of a request once its end and its own pages are known. -/
theorem served_of_ends {es : List Event} (h : q.Ends l w (l', result)) (hes : OwnEvents image q l w w' es)
    (ht : (taken es).length = if .mapped ∈ q.stages l w then 1 else 0) : Served image l w q result l' w' := by
  obtain ⟨hl, hr⟩ := h
  have hl : l' = l.withStages (q.stages l w) := hl
  exact {
    config_eq := by rw [hl]; rfl
    history_eq := by rw [hl]; rfl
    unloaded := by
      rw [hl, Loader.stage, Loader.withStages, List.getLast?_append, stages, stagesUntil_getLast?]
      rfl
    stages_mem := stagesUntil_mem _ _
    result_eq := hr
    of_ok := by
      rintro exit rfl
      cases hc : q.course l w with
      | error f =>
        rw [hc] at hr
        cases hr
      | ok u =>
        rw [stages_of_ok hc]
        cases q.validates l w with
        | true => exact .inr rfl
        | false => exact .inl rfl
    pages := ⟨es, hes, ht⟩ }

/-- Every request that comes to its end is as `Served` says. -/
theorem served_of_perform (h : q.perform image l w = .ok (l', result) w') : Served image l w q result l' w' := by
  rw [perform_eq] at h
  obtain ⟨s, now, hs, h⟩ := bind_eq_ok_iff.mp h
  obtain ⟨⟨runs, ⟨before, hn, rfl⟩, hlen⟩, hout⟩ := start_outcome hs
  cases s with
  | error r =>
    cases h
    exact served_of_ends hout (.alone hs hn) hlen
  | ok claim =>
    obtain ⟨l₁, launching⟩ := claim
    obtain ⟨hc, hv, rfl⟩ := hout
    obtain ⟨status, later, hi, hf⟩ := bind_eq_ok_iff.mp h
    obtain ⟨rfl, ⟨exit, rfl⟩, behind, hn', ht⟩ := Loader.settle_outcome hf
    refine served_of_ends ⟨?_, ?_⟩ (.around hs hi hf hn hn') ?_
    · rw [stages_of_ok hc, hv]
      simp [Loader.withStage_eq, stagesUntil]
    · rw [hc]
      exact ⟨exit, rfl⟩
    · rw [taken_append, ht, List.append_nil, hlen]

theorem client_perform (himage : ∀ entry handle, Client errands SamePages (image entry handle)) (q : Request) (l : Loader) :
    Client errands SamePages (q.perform image l) := by
  cases q with
  | launch raw context => exact .call (.loadAndLaunch l raw context) himage
  | launchValidated raw context => exact .call (.launchValidated l raw context) himage

end Request

/-! ## Requests in a row -/

theorem servedAll_of_serveAll {image : Address → Handle → Sim Status} {qs : List Request} {l l' : Loader}
    {results : List (Except LoadError Exit)} (h : serveAll image qs l w = .ok (l', results) w') :
    ServedAll image l w qs results l' w' := by
  induction qs generalizing l w results with
  | nil =>
    cases h
    exact .none
  | cons q qs ih =>
    obtain ⟨⟨l₁, result⟩, w₁, hr, h⟩ := bind_eq_ok_iff.mp h
    obtain ⟨⟨l₂, results'⟩, w₂, hrs, h⟩ := bind_eq_ok_iff.mp h
    cases h
    exact .next (Request.served_of_perform hr) (ih hrs)

theorem client_serveAll {image : Address → Handle → Sim Status}
    (himage : ∀ entry handle, Client errands SamePages (image entry handle)) (qs : List Request) (l : Loader) :
    Client errands SamePages (serveAll image qs l) := by
  induction qs generalizing l with
  | nil => exact .other (SamePages.pure _)
  | cons q qs ih =>
    refine .bind (q.client_perform himage l) fun r => ?_
    exact .bind (ih r.1) fun _ => .other (SamePages.pure _)

/-- Whatever a loader is asked to run, in however many requests, and whatever its images do: each
    request enters the stages that its first failing step decides, takes pages of its own exactly when
    it maps its file, and leaves the loader at `unloaded`. When the images reach memory through
    loaders only, as those of a simulated machine do, no request is cut off. -/
theorem requests_enter_stages (image : Address → Handle → Sim Status) (l : Loader) (qs : List Request) (w : World) :
    (∀ l' results w', serveAll image qs l w = .ok (l', results) w' → ServedAll image l w qs results l' w') ∧
    (PagesBelow w → (∀ entry handle, Client errands SamePages (image entry handle)) →
      ∃ l' results w', serveAll image qs l w = .ok (l', results) w') := by
  refine ⟨fun _ _ _ h => servedAll_of_serveAll h, fun hw himage => ?_⟩
  obtain ⟨ms, ⟨l', results⟩, w', hrun⟩ := (client_serveAll himage qs l).exists_run (errands_progress hw) .start
  exact ⟨l', results, w', hrun.eq_ok⟩

/-- A platform with a verifier that accepts everything, and an image that launches another. -/
def acceptingSample : World := { nestedSample with verifier := .answering .success }

/-- A launch, a validated launch, and a launch of no file at all. -/
def threeRequests : List Request :=
  [.launch (Sample.build {}) (.onHandle ownHandle), .launchValidated (Sample.build {}) (.onHandle ownHandle),
    .launch #[] (.onHandle ownHandle)]

/-- The first two run their images, and the last one does not find a header. -/
theorem threeRequests_enter_stages :
    PagesBelow acceptingSample ∧
    (∀ entry handle, Client errands SamePages ((machine 1).callEntry entry handle)) ∧
    ∃ l' results w', serveAll (machine 1).callEntry threeRequests {} acceptingSample = .ok (l', results) w' ∧
      ServedAll (machine 1).callEntry {} acceptingSample threeRequests results l' w' ∧
      l'.history = [.unloaded, .headerParsed, .mapped, .relocated, .launched, .unloaded,
        .validatedPassthrough, .unloaded, .unloaded] := by
  have hw : PagesBelow acceptingSample := fun _ _ h => nomatch h
  obtain ⟨hfollow, hruns⟩ := requests_enter_stages (machine 1).callEntry {} threeRequests acceptingSample
  obtain ⟨l', results, w', h⟩ := hruns hw (client_machine 1)
  have hhistory : endsWith (serveAll (machine 1).callEntry threeRequests {}) acceptingSample (fun r _ =>
      decide (r.1.history = [.unloaded, .headerParsed, .mapped, .relocated, .launched, .unloaded,
        .validatedPassthrough, .unloaded, .unloaded])) = true := by decide +kernel
  rw [endsWith, h] at hhistory
  exact ⟨hw, client_machine 1, l', results, w', h, hfollow _ _ _ h, of_decide_eq_true hhistory⟩

end NetBoot.Image
