/-
  NetBoot.Proofs.Boot.Exchange — which events the parts of a boot add to what has been seen.

  A part that always comes to a value is told by the events that go with it (`Notes`), and a sequence
  by the events of its parts, one after the other (`Notes.bind`, `Notes.keeps_bind`). Up to its choice a
  client deals with its operator and its servers (`exchange_attends`), and asks them only for what it is
  meant to; saying something is talk, and running a program is talk and what its image does
  (`emits_start`). A file is fetched by the query of its size and one read at most (`Request`).
-/

import NetBoot.Proofs.Boot.Contact
import NetBoot.Proofs.Lifting.Client
import NetBoot.Proofs.Lifting.Machine

namespace NetBoot

namespace Sim

variable {α β : Type} {w w' w'' : World}

/-! ## Where runs end -/

theorem after_bind_of_ok {x : Sim α} {a : α} (h : x w = .ok a w') (f : α → Sim β) :
    after (x >>= f) w = after (f a) w' := by
  unfold after
  rw [bind_of_ok h]

/-- What is done with the value of a run does not move its end. -/
theorem after_map (x : Sim α) (f : α → β) (w : World) : after (x >>= fun a => pure (f a)) w = after x w := by
  cases hx : x w with
  | ok a w' =>
    rw [after_bind_of_ok hx, after_of_ok hx]
    rfl
  | error e w' =>
    unfold after
    rw [bind_of_error hx, hx]

/-- A relation is kept along a sequence, if it is kept from where the first part has a value. -/
theorem after_bind {R : World → World → Prop} (hR : Ordered R) {x : Sim α} {f : α → Sim β} (hx : R w (after x w))
    (hf : ∀ a v, x w = .ok a v → R w v → R v (after (f a) v)) : R w (after (x >>= f) w) := by
  cases hr : x w with
  | ok a v =>
    rw [after_of_ok hr] at hx
    rw [after_bind_of_ok hr]
    exact hR.trans hx (hf a v hr hx)
  | error e v =>
    unfold after at hx ⊢
    rw [hr] at hx
    rw [bind_of_error hr]
    exact hx

/-! ## Events in their order -/

/-- Events of a run, as a list with this property. -/
def Adds (S : List Event → Prop) (w w' : World) : Prop := ∃ es, Noted es w w' ∧ S es

/-- On a machine with memory for these buffers, and it stays one, every run of the computation has a value and
    adds events that go with it. -/
def Notes (reserves : Nat → Bool) (S : α → List Event → Prop) (x : Sim α) : Prop :=
  ∀ w, w.reserves = reserves → ∃ a w', x w = .ok a w' ∧ w'.reserves = reserves ∧ Adds (S a) w w'

namespace Notes

variable {reserves : Nat → Bool} {S S' : α → List Event → Prop} {T : β → List Event → Prop}

theorem pure {a : α} (h : S a []) : Notes reserves S (Pure.pure a : Sim α) :=
  fun w hw => ⟨a, w, rfl, hw, [], .nil rfl, h⟩

theorem mono {x : Sim α} (hx : Notes reserves S x) (h : ∀ a es, S a es → S' a es) : Notes reserves S' x := by
  intro w hw
  obtain ⟨a, w', hr, hw', es, hn, hs⟩ := hx w hw
  exact ⟨a, w', hr, hw', es, hn, h a es hs⟩

/-- The events of a sequence are those of its parts, in their order. -/
theorem bind {x : Sim α} {f : α → Sim β} (hx : Notes reserves S x)
    (hf : ∀ a es, S a es → Notes reserves (fun b es' => T b (es ++ es')) (f a)) : Notes reserves T (x >>= f) := by
  intro w hw
  obtain ⟨a, w', hr, hw', es, hn, hs⟩ := hx w hw
  obtain ⟨b, w'', hr', hw'', es', hn', ht⟩ := hf a es hs w' hw'
  exact ⟨b, w'', by rw [bind_of_ok hr, hr'], hw'', es ++ es', hn.trans hn', ht⟩

/-- The same, where what comes behind may be cut off. -/
theorem adds_bind {Q : List Event → Prop} {x : Sim α} {f : α → Sim β} (hx : Notes reserves S x)
    (hw : w.reserves = reserves)
    (hf : ∀ a v es, x w = .ok a v → v.reserves = reserves → S a es →
      Adds (fun es' => Q (es ++ es')) v (after (f a) v)) :
    Adds Q w (after (x >>= f) w) := by
  obtain ⟨a, v, hr, hv, es, hn, hs⟩ := hx w hw
  obtain ⟨es', hn', hq⟩ := hf a v es hr hv hs
  rw [after_bind_of_ok hr]
  exact ⟨es ++ es', hn.trans hn', hq⟩

theorem keeps {Q : List Event → Prop} {x : Sim α} (hx : ∀ reserves, Notes reserves S x) (h : ∀ a es, S a es → Q es) :
    Keeps (Adds Q) x := by
  refine .of_run fun w => ?_
  obtain ⟨a, w', hr, -, es, hn, hs⟩ := hx _ w rfl
  exact ⟨a, w', hr, es, hn, h a es hs⟩

theorem silent {x : Sim α} {a : α} (hx : Silent x a) : Notes reserves (fun b es => b = a ∧ es = []) x := by
  intro w hw
  obtain ⟨log, h⟩ := hx w
  exact ⟨a, _, h, hw, [], .nil rfl, rfl, rfl⟩

/-- A silent part, and then the rest. -/
theorem quiet_bind {x : Sim α} {a : α} {f : α → Sim β} (hx : Silent x a) (hf : Notes reserves T (f a)) :
    Notes reserves T (x >>= f) := by
  refine (silent hx).bind ?_
  rintro _ _ ⟨rfl, rfl⟩
  exact hf

theorem of_beside {P : Event → Prop} {x : Sim α} (hx : Total (Beside P) x) :
    Notes reserves (fun _ es => ∀ e ∈ es, P e) x := by
  intro w hw
  obtain ⟨a, w', hr, hi, he⟩ := hx w
  exact ⟨a, w', hr, (eq_of_inner_eq (fun _ => rfl) hi).trans hw, he⟩

end Notes

/-! ## Kinds of events -/

/-- Is it text that is shown, or a pause? -/
def Event.isTalk : Event → Bool
  | .print _ | .sleep _ => true
  | _ => false

abbrev AllTalk (es : List Event) : Prop := ∀ e ∈ es, e.isTalk = true

/-- Is it talk, or something that happens to memory or images? -/
def Event.IsRunning (e : Event) : Prop := e.isTalk = true ∨ e.isAside = false

/-- Is it for the operator, a look-up, or a request for such a file? -/
def Event.IsExchange (asks : Net.Ipv4 → String → Prop) : Event → Prop
  | .print _ | .clear | .setCursor .. | .highlight _ | .readKey .. | .sleep _ | .resolve .. => True
  | .fileSize server name _ | .receiveFile server name .. => asks server name
  | _ => False

section Exchange

variable {asks : Net.Ipv4 → String → Prop} {n : Nat} {d : Bool}

/-- Dealing with an operator and with servers: nothing has changed inside the machine, nor what the network
    stack has done. -/
structure Exchange (asks : Net.Ipv4 → String → Prop) (w w' : World) : Prop
    extends Beside (Event.IsExchange asks) w w' where
  pxeMode_eq : w'.pxeMode = w.pxeMode

theorem Exchange.ordered : Ordered (Exchange asks) where
  refl w := ⟨(Beside.ordered _).refl w, rfl⟩
  trans h h' := ⟨(Beside.ordered _).trans h.toBeside h'.toBeside, h'.pxeMode_eq.trans h.pxeMode_eq⟩

/-- An event of its kind is noted, and what belongs to the console and the network may change. -/
theorem Exchange.of_push {e : Event} (hi : w'.inner = w.inner) (hm : w'.pxeMode = w.pxeMode)
    (hn : w'.events = w.events.push e) (he : e.IsExchange asks) : Exchange asks w w' :=
  ⟨⟨hi, .of_push hn he⟩, hm⟩

theorem exchange_query {x : Sim α} (h : ∀ w, ∃ a, x w = .ok a w) : Keeps (Exchange asks) x :=
  .of_run fun w => have ⟨a, hr⟩ := h w; ⟨a, w, hr, Exchange.ordered.refl w⟩

theorem exchange_readKey (timeout : UInt32) : Keeps (Exchange asks) (readKey timeout) := by
  intro w
  have hpush {keys : List (Option Key)} {clock : UInt64} {timeouts : List UInt32} {outcome : Option (Option Key)} :
      Exchange asks w { w with
        keys, clock, keyTimeouts := timeouts, events := w.events.push (.readKey timeout outcome) } :=
    .of_push rfl rfl rfl trivial
  unfold after readKey
  rw [get_bind]
  dsimp only
  rcases w.keys with _ | ⟨_ | key, keys⟩
  · by_cases ht : timeout = 0
    · rw [if_pos ht]
      exact hpush
    · rw [if_neg ht]
      exact hpush
  · exact hpush
  · exact hpush

theorem exchange_ticks : Keeps (Exchange asks) (machine 0).toConsole.ticks := exchange_query fun w => ⟨w.clock, rfl⟩

theorem exchange_waitUntil (key : Key) (deadline reads : Nat) :
    Keeps (Exchange asks) (Boot.waitUntil (machine 0).toConsole key deadline reads) := by
  have ho : Ordered (Exchange asks) := Exchange.ordered
  induction reads with
  | zero => exact .pure ho _
  | succ reads ih =>
    refine .bind ho exchange_ticks fun now => ?_
    dsimp only
    split
    · exact .pure ho _
    · refine .bind ho (exchange_readKey _) fun pressed => ?_
      split
      · exact .pure ho _
      · exact ih

theorem exchange_resolveHost (name : String) : Keeps (Exchange asks) ((machine n).resolveHost name) := by
  rw [machine_resolveHost]
  refine .of_run fun w => ?_
  obtain ⟨lookups, hr⟩ := resolveHost_run name w
  exact ⟨_, _, hr, .of_push rfl rfl rfl trivial⟩

theorem exchange_print (text : String) : Keeps (Exchange asks) ((machine n).toConsole.print text) := by
  rw [machine_toConsole]
  exact .of_run fun w => ⟨(), _, rfl, .of_push rfl rfl rfl trivial⟩

theorem exchange_sleep (ms : UInt32) : Keeps (Exchange asks) ((machine n).toConsole.sleep ms) := by
  rw [machine_toConsole]
  exact .of_run fun w => ⟨(), _, rfl, .of_push rfl rfl rfl trivial⟩

/-- Each service that a client uses up to its choice is for its operator or its servers. -/
theorem exchange_attends (asks : Net.Ipv4 → String → Prop) :
    Attends asks (fun _ x _ => Keeps (Exchange asks) x) (machine n) d d where
  toSpeaks := by
    refine Paired.speaks ⟨fun a => .pure Exchange.ordered a, fun hx hf => .bind Exchange.ordered hx hf, fun _ h => h⟩
      (fun r => ?_) exchange_print exchange_sleep
    rw [machine_toJournal]
    exact .silent (fun w log => ⟨⟨rfl, .of_eq rfl⟩, rfl⟩) (.note r)
  clear := by
    rw [machine_toConsole]
    exact .of_run fun w => ⟨(), _, rfl, .of_push rfl rfl rfl trivial⟩
  cursor := by
    rw [machine_toConsole]
    exact exchange_query fun w => ⟨_, rfl⟩
  setCursor column row := by
    rw [machine_toConsole]
    exact .of_run fun w => ⟨(), _, rfl, .of_push rfl rfl rfl trivial⟩
  setHighlight on := by
    rw [machine_toConsole]
    exact .of_run fun w => ⟨(), _, rfl, .of_push rfl rfl rfl trivial⟩
  readKey timeout := by
    rw [machine_toConsole]
    exact exchange_readKey timeout
  sleep := exchange_sleep
  keysAhead := by
    rw [machine_toConsole]
    exact exchange_query fun w => ⟨_, rfl⟩
  waitForKey key delay := by
    rw [machine_toConsole]
    refine .bind Exchange.ordered exchange_ticks fun _ => ?_
    exact .bind Exchange.ordered (exchange_query fun w => ⟨w.keys.length, rfl⟩) fun _ => exchange_waitUntil _ _ _
  clientMac := exchange_query fun w => ⟨w.mac, clientMac_run n w⟩
  discoverPacket := exchange_query fun w => ⟨if w.discover.isEmpty then .error .notFound else .ok w.discover, by
    cases n <;> rfl⟩
  systemUuid := exchange_query fun w => ⟨w.uuid, systemUuid_run n w⟩
  reserve len := by
    show Keeps _ ((machine n).toNetwork.reserve len)
    rw [machine_reserve]
    exact exchange_query fun w => ⟨w.reserves len, rfl⟩
  fileSize {server name} hs := by
    show Keeps _ ((machine n).toNetwork.fileSize server name)
    rw [machine_fileSize]
    refine .of_run fun w => ?_
    obtain ⟨events, sizeFailures, hr, hn⟩ := fileSize_run server name w
    exact ⟨_, _, hr, ⟨rfl, _, hn, fun e he => List.mem_singleton.mp he ▸ hs⟩, rfl⟩
  receiveFile {server name} len hs := by
    show Keeps _ ((machine n).toNetwork.receiveFile server name len)
    rw [machine_receiveFile]
    refine .of_run fun w => ?_
    obtain ⟨events, reads, hr, hn⟩ := receiveFile_run server name len w
    exact ⟨_, _, hr, ⟨rfl, _, hn, fun e he => List.mem_singleton.mp he ▸ hs⟩, rfl⟩

end Exchange

/-! ## Talk and programs -/

section Running

variable {P : Event → Prop} {n : Nat} {d : Bool}

/-- What is said is talk. -/
theorem talk_speaks : Speaks (fun _ x _ => Total (Beside (·.isTalk = true)) x) (machine n) d d := by
  have ho := Beside.ordered (·.isTalk = true)
  refine Paired.speaks ⟨fun a => .pure ho a, fun hx hf => .bind ho hx hf, fun _ h => h⟩ (fun r => ?_) (fun text => ?_)
    fun ms => ?_
  · rw [machine_toJournal]
    exact .silent (fun _ _ => ⟨rfl, .of_eq rfl⟩) (.note r)
  · rw [machine_toConsole]
    exact fun w => ⟨(), _, rfl, rfl, .of_push rfl rfl⟩
  · rw [machine_toConsole]
    exact fun w => ⟨(), _, rfl, rfl, .of_push rfl rfl⟩

theorem Emits.mono {Q : Event → Prop} (h : Emits P w w') (hPQ : ∀ e, P e → Q e) : Emits Q w w' := by
  obtain ⟨es, hn, he⟩ := h
  exact ⟨es, hn, fun e hm => hPQ e (he e hm)⟩

/-- The services of the machine, and its images to any depth, are seen as something that happens to memory
    or images. -/
theorem emits_hosted (h : ∀ e : Event, e.isAside = false → P e) : Hosted fun x => Keeps (Emits P) x where
  pure a := .pure (Emits.ordered P) a
  bind hx hf := .bind (Emits.ordered P) hx hf
  log r := emits_silent (.note r)
  allocatePages pages := emits_allocatePages fun r => h _ rfl
  freePages base pages := emits_freePages (h _ rfl)
  readMemory base len := .of_run fun w => ⟨_, w, readMemory_run 0 base len w, .of_eq rfl⟩
  writeMemory base bytes := .of_run fun w => ⟨(), _, writeMemory_run 0 base bytes w, .of_eq rfl⟩
  loadedImage handle := .of_run fun w => ⟨_, w, loadedImage_run handle w, .of_eq rfl⟩
  setLoadedImage handle record := emits_setLoadedImage (h _ rfl)
  readVariable name vendor := .of_run fun w => ⟨_, w, readVariable_run 0 name vendor w, .of_eq rfl⟩
  verify image := .of_run fun w => by
    obtain ⟨verifier, hr⟩ := verify_run image w
    exact ⟨_, _, hr, .of_push rfl (h _ rfl)⟩
  devicePath handle := .of_run fun w => ⟨_, w, devicePath_run 0 handle w, .of_eq rfl⟩
  loadImage parent path source := .of_run fun w => by
    obtain ⟨r, w', hr, hn⟩ := loadImage_noted parent path source w
    exact ⟨r, w', hr, _, hn, fun e he => List.mem_singleton.mp he ▸ h _ rfl⟩
  startImage handle := .of_run fun w => by
    obtain ⟨exit, w', hr, hn⟩ := startImage_noted handle w
    exact ⟨exit, w', hr, _, hn, fun e he => List.mem_singleton.mp he ▸ h _ rfl⟩
  unloadImage handle := .of_run fun w => by
    obtain ⟨status, w', hr, hn⟩ := unloadImage_noted handle w
    exact ⟨status, w', hr, _, hn, fun e he => List.mem_singleton.mp he ▸ h _ rfl⟩
  syncCaches base len := .of_run fun w => ⟨(), _, syncCaches_run 0 base len w, .of_push rfl (h _ rfl)⟩
  trapsGet := .of_run fun w => ⟨w.traps, w, rfl, .of_eq rfl⟩
  trapsSet t := .of_run fun w => ⟨(), { w with traps := t }, rfl, .of_eq rfl⟩
  announce entry handle := .of_run fun w => ⟨(), _, rfl, .of_push rfl (h _ rfl)⟩
  takeScript := .of_run fun w => by
    unfold Image.takeScript
    rw [get_bind]
    cases w.entries with
    | nil => exact ⟨none, w, rfl, .of_eq rfl⟩
    | cons script entries => exact ⟨some script, { w with entries }, rfl, .of_eq rfl⟩
  act reply := .of_run fun w => ⟨(), _, rfl, .of_push rfl (h _ rfl)⟩
  setStatus status := .of_run fun w => ⟨(), { w with entryStatus := status }, rfl, .of_eq rfl⟩
  comeBack entry handle := .of_run fun w => ⟨_, _, rfl, .of_eq rfl⟩

/-- What is said while a program is run is seen as that. -/
theorem running_speaks : Speaks (fun _ x _ => Keeps (Emits Event.IsRunning) x) (machine n) d d := by
  have hkeep {α : Type} {x : Sim α} (hx : Total (Beside (·.isTalk = true)) x) : Keeps (Emits Event.IsRunning) x := by
    refine .of_run fun w => ?_
    obtain ⟨a, w', hr, h⟩ := hx w
    exact ⟨a, w', hr, h.events.mono fun _ => .inl⟩
  have htalk := talk_speaks (n := n) (d := d)
  exact {
    pure := fun a => .pure (Emits.ordered _) a
    bind := fun hx hf => .bind (Emits.ordered _) hx hf
    mono := fun _ h => h
    log := fun r => hkeep (htalk.log r)
    print := fun text => hkeep (htalk.print text)
    sayDebug := fun pieces => hkeep (htalk.sayDebug pieces)
    debugDelay := fun seconds => hkeep (htalk.debugDelay seconds) }

end Running

end Sim

namespace Boot

open Sim

variable {n : Nat} {d : Bool} {reserves : Nat → Bool}

/-! ## Requests -/

/-- The events of a request for a file of a server, on a machine with memory for these buffers: the query of its
    size, and one read at most, with a buffer of that size; and whether the file came. -/
inductive Request (reserves : Nat → Bool) (server : Net.Ipv4) (name : String) : Bool → List Event → Prop
  | noSize (e : ServiceError) : Request reserves server name false [.fileSize server name (.error e)]
  | tooLarge (size : UInt64) (h : reserves size.toNat = false) :
      Request reserves server name false [.fileSize server name (.ok size)]
  | failed (size : UInt64) (e : ServiceError) (h : reserves size.toNat = true) :
      Request reserves server name false
        [.fileSize server name (.ok size), .receiveFile server name size.toNat (.error e)]
  | received (size : UInt64) (count : Nat) (h : reserves size.toNat = true) :
      Request reserves server name true
        [.fileSize server name (.ok size), .receiveFile server name size.toNat (.ok count)]

theorem Transfer.notes_fetch (server : Net.Ipv4) (name : String) :
    Notes reserves (fun r => Request reserves server name r.isOk) (fetch (machine n).toNetwork server name) := by
  unfold fetch Transfer.read Journal.debug Journal.error
  rw [machine_networkJournal, machine_fileSize, machine_reserve, machine_receiveFile]
  have hsize : Notes reserves (fun r es => es = [.fileSize server name r]) (fileSize server name) := by
    intro w hw
    obtain ⟨events, sizeFailures, hr, hn⟩ := fileSize_run server name w
    exact ⟨_, _, hr, hw, _, hn, rfl⟩
  refine hsize.bind ?_
  rintro (e | size) _ rfl
  · exact .quiet_bind (.note _) (.pure (.noSize e))
  · have hreserved : Notes reserves (fun r es => r = reserves size.toNat ∧ es = [])
        (do return (← get).reserves size.toNat) := fun w hw => ⟨_, w, rfl, hw, [], .nil rfl, by rw [hw], rfl⟩
    refine hreserved.bind ?_
    rintro _ _ ⟨rfl, rfl⟩
    split
    case isTrue h =>
      have hread : Notes reserves (fun r es => es = [.receiveFile server name size.toNat r.1])
          (receiveFile server name size.toNat) := by
        intro w hw
        obtain ⟨events, reads, hr, hn⟩ := receiveFile_run server name size.toNat w
        exact ⟨_, _, hr, hw, _, hn, rfl⟩
      refine hread.bind ?_
      rintro ⟨e | count, buffer⟩ _ rfl
      · exact .quiet_bind (.note _) (.pure (.failed size e h))
      · exact .quiet_bind (.note _) (.pure (.received size count h))
    case isFalse h => exact .pure (.tooLarge size (Bool.of_not_eq_true h))

/-! ## What is said -/

namespace Session

theorem notes_say (pieces : List String) : Notes reserves (fun _ => AllTalk) (say ⟨machine n, d⟩ pieces) :=
  .of_beside (talk_speaks.say pieces)

theorem notes_sayDebug (pieces : List String) : Notes reserves (fun _ => AllTalk) (sayDebug ⟨machine n, d⟩ pieces) :=
  .of_beside (talk_speaks.sayDebug pieces)

theorem notes_debugDelay (seconds : Nat) : Notes reserves (fun _ => AllTalk) (debugDelay ⟨machine n, d⟩ seconds) :=
  .of_beside (talk_speaks.debugDelay seconds)

end Session

/-- Running a fetched program is talk, and what happens to memory and images. -/
theorem Chainloader.emits_startFetched (c : Chainloader) (path : String) (raw : Bytes) :
    Keeps (Emits Event.IsRunning) (c.startFetched ⟨machine n, d⟩ trapsCell path raw) :=
  running_speaks.startFetched ((emits_hosted fun _ => .inr).machine n) c path raw

end Boot

end NetBoot
