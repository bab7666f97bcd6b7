/-
  NetBoot.Proofs.Sim.Run — runs of a simulated machine, taken apart.

  A run from a world ends in a value or an abort, and in a world either way (`after`). A sequence
  runs its first part and goes on from where that ended (`bind_of_ok`, `bind_eq_ok_iff`). What every
  step keeps between a world and the next, a whole run keeps: `Keeps R` says so of a computation for
  a relation `R` that is reflexive and transitive. The log is written everywhere and read nowhere,
  so a note changes the world in its log alone (`Silent`). `Noted` and `Emits` say which events a run
  adds, exactly or by their kind.
-/

import NetBoot.Sim.Machine

namespace NetBoot.Sim

variable {α β : Type} {w w' w'' : World}

/-! ## Sequences -/

theorem bind_of_ok {x : Sim α} {a : α} (h : x w = .ok a w') (f : α → Sim β) : (x >>= f) w = f a w' := by
  show EStateM.bind x f w = f a w'
  simp only [EStateM.bind, h]

theorem bind_of_error {x : Sim α} {e : Abort} (h : x w = .error e w') (f : α → Sim β) :
    (x >>= f) w = .error e w' := by
  show EStateM.bind x f w = .error e w'
  simp only [EStateM.bind, h]

theorem bind_eq_ok_iff {x : Sim α} {f : α → Sim β} {b : β} :
    (x >>= f) w = .ok b w'' ↔ ∃ a w', x w = .ok a w' ∧ f a w' = .ok b w'' := by
  constructor
  · intro h
    cases hx : x w with
    | ok a w' => exact ⟨a, w', rfl, by rw [← h, bind_of_ok hx]⟩
    | error e w' =>
      rw [bind_of_error hx] at h
      cases h
  · rintro ⟨a, w', hx, hf⟩
    rw [bind_of_ok hx, hf]

theorem get_bind (f : World → Sim β) : (get >>= f) w = f w w := rfl

theorem set_bind (v : World) (f : PUnit → Sim β) : (set v >>= f) w = f .unit v := rfl

theorem emit_bind (e : Event) (f : Unit → Sim β) :
    (emit e >>= f) w = f () { w with events := w.events.push e } := rfl

/-! ## The services of the machine -/

section Services

variable (n : Nat)

@[simp] theorem machine_toJournal : (machine n).toFirmware.toJournal = ⟨keepLog⟩ := by cases n <;> rfl
@[simp] theorem machine_allocatePages : (machine n).allocatePages = allocatePages := by cases n <;> rfl
@[simp] theorem machine_freePages : (machine n).freePages = freePages := by cases n <;> rfl
@[simp] theorem machine_imageHandle : (machine n).imageHandle = pure ownHandle := by cases n <;> rfl
@[simp] theorem machine_loadedImage : (machine n).loadedImage = loadedImage := by cases n <;> rfl
@[simp] theorem machine_setLoadedImage : (machine n).setLoadedImage = setLoadedImage := by cases n <;> rfl
@[simp] theorem machine_verify : (machine n).verify = verify := by cases n <;> rfl
@[simp] theorem machine_loadImage : (machine n).loadImage = loadImage := by cases n <;> rfl
@[simp] theorem machine_startImage : (machine n).startImage = startImage := by cases n <;> rfl
@[simp] theorem machine_unloadImage : (machine n).unloadImage = unloadImage := by cases n <;> rfl
@[simp] theorem machine_networkJournal : (machine n).toNetwork.toJournal = ⟨keepLog⟩ := by cases n <;> rfl
@[simp] theorem machine_reserve :
    (machine n).toNetwork.reserve = fun len => do return (← get).reserves len := by cases n <;> rfl
@[simp] theorem machine_fileSize : (machine n).toNetwork.fileSize = fileSize := by cases n <;> rfl
@[simp] theorem machine_receiveFile : (machine n).toNetwork.receiveFile = receiveFile := by cases n <;> rfl
@[simp] theorem machine_resolveHost : (machine n).resolveHost = resolveHost := by cases n <;> rfl
@[simp] theorem machine_redirectBoot : (machine n).redirectBoot = redirectBoot := by cases n <;> rfl

theorem readMemory_run (base : Address) (len : Nat) (w : World) :
    (machine n).readMemory base len w = .ok (w.memory.bytesAt base len) w := by cases n <;> rfl

theorem writeMemory_run (base : Address) (bytes : Bytes) (w : World) :
    (machine n).writeMemory base bytes w = .ok () { w with memory := w.memory.write base bytes } := by
  cases n <;> rfl

theorem readVariable_run (name : String) (vendor : Guid) (w : World) :
    (machine n).readVariable name vendor w = .ok (w.nvram.find? name) w := by cases n <;> rfl

theorem devicePath_run (handle : Handle) (w : World) :
    (machine n).devicePath handle w = .ok (w.devicePaths.find? handle) w := by cases n <;> rfl

theorem pxeMode_run (w : World) : (machine n).pxeMode w = .ok w.pxeMode w := by cases n <;> rfl

theorem dhcpServer_run (w : World) : (machine n).dhcpServer w = .ok (demand w.dhcpServer .notFound) w := by
  have h (launch : Handle → Bytes → Sim (Except Image.LoadError Exit)) :
      (machineWith launch).dhcpServer w = .ok (demand w.dhcpServer .notFound) w := by
    unfold machineWith
    dsimp only
    rw [get_bind]
    cases w.dhcpServer <;> rfl
  cases n with
  | zero => exact h _
  | succ n => exact h _

theorem clientMac_run (w : World) : (machine n).clientMac w = .ok w.mac w := by cases n <;> rfl

theorem systemUuid_run (w : World) : (machine n).systemUuid w = .ok w.uuid w := by cases n <;> rfl

theorem setLogLimit_run (limit : Log.Limit) (w : World) :
    (machine n).setLogLimit limit w = .ok () { w with logLimit := limit } := by cases n <;> rfl

theorem syncCaches_run (base : Address) (len : Nat) (w : World) :
    (machine n).syncCaches base len w = .ok () { w with events := w.events.push (.syncCaches base len) } := by
  cases n <;> rfl

end Services

/-! ## Notes -/

/-- The computation answers one value and writes nothing but the log. -/
def Silent (x : Sim α) (a : α) : Prop := ∀ w, ∃ log, x w = .ok a { w with log }

namespace Silent

theorem pure (a : α) : Silent (Pure.pure a) a := fun w => ⟨w.log, rfl⟩

theorem bind_run {x : Sim α} {a : α} (hx : Silent x a) (f : α → Sim β) (w : World) :
    ∃ log, (x >>= f) w = f a { w with log } := by
  obtain ⟨log, h⟩ := hx w
  exact ⟨log, bind_of_ok h f⟩

theorem bind {x : Sim α} {a : α} {f : α → Sim β} {b : β} (hx : Silent x a) (hf : Silent (f a) b) :
    Silent (x >>= f) b := by
  intro w
  obtain ⟨log, h⟩ := hx.bind_run f w
  obtain ⟨log', h'⟩ := hf { w with log }
  exact ⟨log', by rw [h, h']⟩

/-- A run that begins silently goes on from the same world but for its log. -/
theorem bind_eq_ok {x : Sim α} {a : α} {f : α → Sim β} {b : β} (hx : Silent x a) (h : (x >>= f) w = .ok b w') :
    ∃ log, f a { w with log } = .ok b w' := by
  obtain ⟨log, hr⟩ := hx.bind_run f w
  exact ⟨log, by rw [← hr, h]⟩

theorem eq_ok {x : Sim α} {a b : α} (hx : Silent x a) (h : x w = .ok b w') : b = a ∧ ∃ log, w' = { w with log } := by
  obtain ⟨log, hr⟩ := hx w
  rw [h] at hr
  cases hr
  exact ⟨rfl, log, rfl⟩

theorem note (r : Log.Record) : Silent (keepLog r) () := by
  intro w
  show ∃ log, EStateM.Result.ok () (if r.shownAt w.logLimit = true then _ else w) = _
  by_cases h : r.shownAt w.logLimit = true
  · exact ⟨w.log.push r.line, by rw [if_pos h]⟩
  · exact ⟨w.log, by rw [if_neg h]⟩

theorem notes (rs : List Log.Record) : Silent (Journal.logAll ⟨keepLog⟩ rs) () := by
  induction rs with
  | nil => exact pure ()
  | cons r rs ih => exact bind (note r) ih

end Silent

/-! ## What a run keeps -/

/-- The world that a run ends in. -/
def after (x : Sim α) (w : World) : World :=
  match x w with
  | .ok _ w' => w'
  | .error _ w' => w'

theorem after_of_ok {x : Sim α} {a : α} (h : x w = .ok a w') : after x w = w' := by
  rw [after, h]

/-- Does the run end in a value and a world with `p`? -/
def endsWith (x : Sim α) (w : World) (p : α → World → Bool) : Bool :=
  match x w with
  | .ok a w' => p a w'
  | .error .. => false

theorem exists_of_endsWith {x : Sim α} {p : α → World → Bool} (h : endsWith x w p = true) :
    ∃ a w', x w = .ok a w' ∧ p a w' = true := by
  rw [endsWith] at h
  cases hr : x w with
  | ok a w' =>
    rw [hr] at h
    exact ⟨a, w', rfl, h⟩
  | error e w' =>
    rw [hr] at h
    cases h

/-- The value of a run that is not cut off. -/
def value? (x : Sim α) (w : World) : Option α :=
  match x w with
  | .ok a _ => some a
  | .error .. => none

theorem value?_eq_some {x : Sim α} {a : α} (h : value? x w = some a) : ∃ w', x w = .ok a w' := by
  unfold value? at h
  cases hx : x w with
  | ok b w' =>
    rw [hx] at h
    cases h
    exact ⟨w', rfl⟩
  | error e w' =>
    rw [hx] at h
    cases h

/-- A relation between a world and a later one. -/
structure Ordered (R : World → World → Prop) : Prop where
  refl (w : World) : R w w
  trans {w w' w'' : World} : R w w' → R w' w'' → R w w''

/-- Every run of the computation keeps the relation. -/
def Keeps (R : World → World → Prop) (x : Sim α) : Prop := ∀ w, R w (after x w)

/-- Every run of the computation has a value, and keeps the relation. -/
def Total (R : World → World → Prop) (x : Sim α) : Prop := ∀ w, ∃ a w', x w = .ok a w' ∧ R w w'

namespace Keeps

variable {R : World → World → Prop}

theorem pure (hR : Ordered R) (a : α) : Keeps R (Pure.pure a : Sim α) := fun w => hR.refl w

theorem bind (hR : Ordered R) {x : Sim α} {f : α → Sim β} (hx : Keeps R x) (hf : ∀ a, Keeps R (f a)) :
    Keeps R (x >>= f) := by
  intro w
  have h := hx w
  unfold after at h ⊢
  cases hr : x w with
  | error e w' =>
    rw [hr] at h
    rw [bind_of_error hr]
    exact h
  | ok a w' =>
    rw [hr] at h
    rw [bind_of_ok hr]
    exact hR.trans h (hf a w')

theorem of_ok {x : Sim α} (hx : Keeps R x) {a : α} (h : x w = .ok a w') : R w w' := by
  rw [← after_of_ok h]
  exact hx w

theorem of_run {x : Sim α} (h : Total R x) : Keeps R x := by
  intro w
  obtain ⟨a, w', hx, hr⟩ := h w
  rw [after_of_ok hx]
  exact hr

theorem silent (hlog : ∀ w log, R w { w with log }) {x : Sim α} {a : α} (hx : Silent x a) : Keeps R x :=
  of_run fun w => have ⟨log, h⟩ := hx w; ⟨a, _, h, hlog w log⟩

end Keeps

namespace Total

variable {R : World → World → Prop}

theorem pure (hR : Ordered R) (a : α) : Total R (Pure.pure a : Sim α) := fun w => ⟨a, w, rfl, hR.refl w⟩

theorem bind (hR : Ordered R) {x : Sim α} {f : α → Sim β} (hx : Total R x) (hf : ∀ a, Total R (f a)) :
    Total R (x >>= f) := by
  intro w
  obtain ⟨a, w', hr, h⟩ := hx w
  obtain ⟨b, w'', hr', h'⟩ := hf a w'
  exact ⟨b, w'', by rw [bind_of_ok hr, hr'], hR.trans h h'⟩

theorem silent (hlog : ∀ w log, R w { w with log }) {x : Sim α} {a : α} (hx : Silent x a) : Total R x := by
  intro w
  obtain ⟨log, h⟩ := hx w
  exact ⟨a, _, h, hlog w log⟩

end Total

/-! ## Events -/

/-- The events of a run, in their order. -/
def Noted (es : List Event) (w w' : World) : Prop := w'.events.toList = w.events.toList ++ es

namespace Noted

variable {es es' : List Event}

theorem nil (h : w'.events = w.events) : Noted [] w w' := by rw [Noted, h, List.append_nil]

theorem push {e : Event} (h : w'.events = w.events.push e) : Noted [e] w w' := by
  rw [Noted, h, Array.toList_push]

theorem trans (h : Noted es w w') (h' : Noted es' w' w'') : Noted (es ++ es') w w'' := by
  rw [Noted, h', h, List.append_assoc]

end Noted

/-- The events of a run are all of one kind. -/
def Emits (P : Event → Prop) (w w' : World) : Prop := ∃ es, Noted es w w' ∧ ∀ e ∈ es, P e

namespace Emits

variable {P Q : Event → Prop}

theorem of_eq (h : w'.events = w.events) : Emits P w w' := ⟨[], .nil h, fun _ h => (nomatch h)⟩

theorem of_push {e : Event} (h : w'.events = w.events.push e) (he : P e) : Emits P w w' := by
  refine ⟨[e], .push h, fun e' h' => ?_⟩
  rw [List.mem_singleton.mp h']
  exact he

theorem trans (h : Emits P w w') (h' : Emits P w' w'') : Emits P w w'' := by
  obtain ⟨es, h1, h2⟩ := h
  obtain ⟨es', h3, h4⟩ := h'
  refine ⟨es ++ es', h1.trans h3, fun e he => ?_⟩
  rcases List.mem_append.mp he with he | he
  · exact h2 e he
  · exact h4 e he

theorem ordered (P : Event → Prop) : Ordered (Emits P) := ⟨fun _ => of_eq rfl, trans⟩

end Emits

end NetBoot.Sim
