/-
  NetBoot.Proofs.Boot.Transfer — what this client says to its operator and fetches from a server.

  Talk leaves everything alone but the console, and none of it is cut off (`Talk`). A fetch answers
  by the files of the servers and the faults that are scripted for them (`World.fetched`); what it
  gives is the whole file (`fetched_eq_ok`).
-/

import NetBoot.Boot.Session
import NetBoot.Boot.Transfer
import NetBoot.Proofs.Sim.Services

namespace NetBoot

namespace Sim

/-- Does an event leave memory and images alone? -/
def Event.isAside : Event → Bool
  | .allocatePages .. | .freePages .. | .setLoadedImage .. | .verify .. | .loadImage .. | .startImage ..
  | .unloadImage .. | .syncCaches .. | .callEntry .. | .act .. => false
  | _ => true

/-- Nothing has changed but the console, the log, and where the boot server is said to be. -/
def Talk (w w' : World) : Prop :=
  (∃ events log sleeps clock redirects pxeMode,
    w' = { w with events, log, sleeps, clock, redirects, pxeMode }) ∧ Emits (·.isAside = true) w w'

namespace Talk

theorem ordered : Ordered Talk where
  refl _ := ⟨⟨_, _, _, _, _, _, rfl⟩, .of_eq rfl⟩
  trans := by
    rintro w _ _ ⟨⟨_, _, _, _, _, _, rfl⟩, h⟩ ⟨⟨_, _, _, _, _, _, rfl⟩, h'⟩
    exact ⟨⟨_, _, _, _, _, _, rfl⟩, h.trans h'⟩

theorem log (w : World) (log : Array String) : Talk w { w with log } := ⟨⟨_, _, _, _, _, _, rfl⟩, .of_eq rfl⟩

end Talk

end Sim

open Sim

variable {n : Nat} {d : Bool} {w : World}

/-! ## Talk -/

namespace Boot.Session

theorem talk_say (pieces : List String) : Total Talk (say ⟨machine n, d⟩ pieces) := by
  unfold say
  induction pieces with
  | nil => exact .pure Talk.ordered _
  | cons piece r ih =>
    refine .bind Talk.ordered (fun w => ⟨(), { w with events := w.events.push (.print piece) }, ?_, ?_⟩) fun _ => ih
    · cases n <;> rfl
    · exact ⟨⟨_, _, _, _, _, _, rfl⟩, .of_push rfl rfl⟩

theorem talk_sayDebug (pieces : List String) : Total Talk (sayDebug ⟨machine n, d⟩ pieces) := by
  unfold sayDebug
  split
  · exact talk_say pieces
  · exact .pure Talk.ordered _

theorem talk_debugDelay (seconds : Nat) : Total Talk (debugDelay ⟨machine n, d⟩ seconds) := by
  unfold debugDelay
  split
  · refine .bind Talk.ordered (talk_say _) fun _ w => ?_
    refine ⟨(), { w with
      events := w.events.push (.sleep (UInt32.ofNat (seconds * 1000)))
      sleeps := w.sleeps ++ [UInt32.ofNat (seconds * 1000)]
      clock := w.clock + (UInt32.ofNat (seconds * 1000)).toUInt64 }, ?_, ?_⟩
    · cases n <;> rfl
    · exact ⟨⟨_, _, _, _, _, _, rfl⟩, .of_push rfl rfl⟩
  · exact .pure Talk.ordered _

end Boot.Session

/-! ## Fetching -/

/-- What a fetch of a file answers. -/
def Sim.World.fetched (w : World) (server : Net.Ipv4) (name : String) : Except BootError Bytes :=
  match w.sizeOf server name with
  | .error e => .error (.network e)
  | .ok size =>
    if w.reserves size.toNat then
      match w.fileIn server name size.toNat with
      | (.error e, _) => .error (.network e)
      | (.ok count, buffer) => .ok (buffer.resize (min count size.toNat))
    else .error (.network .outOfMemory)

namespace Boot.Transfer

/-- What is fetched is the whole file. -/
theorem fetched_eq_ok {server : Net.Ipv4} {name : String} {raw : Bytes} (h : w.fetched server name = .ok raw) :
    w.files.lookup (server, name) = some raw := by
  unfold World.fetched at h
  cases hs : w.sizeOf server name with
  | error e =>
    rw [hs] at h
    cases h
  | ok size =>
    rw [hs] at h
    dsimp only [World.fileIn] at h
    split at h
    · cases hf : w.readFaults.find? name with
      | some e =>
        rw [hf] at h
        cases h
      | none =>
        rw [hf] at h
        cases hd : w.files.lookup (server, name) with
        | none =>
          rw [hd] at h
          cases h
        | some data =>
          rw [hd] at h
          dsimp only at h
          by_cases hlt : size.toNat < data.size
          · rw [if_pos hlt] at h
            cases h
          · rw [if_neg hlt] at h
            cases h
            rw [Nat.min_eq_left (by omega), Bytes.resize_self]
    · cases h

/-- A fetch changes nothing but the network and the log. -/
theorem fetch_run (server : Net.Ipv4) (name : String) (w : World) :
    ∃ w', fetch (machine n).toNetwork server name w = .ok (w.fetched server name) w' ∧
      (∃ events log sizeFailures reads, w' = { w with events, log, sizeFailures, reads }) ∧
      Emits (·.isAside = true) w w' := by
  unfold fetch Transfer.read Journal.debug Journal.error
  rw [machine_networkJournal, machine_fileSize, machine_reserve, machine_receiveFile]
  obtain ⟨events, sizeFailures, hs, hn⟩ := fileSize_run server name w
  have hsize : Emits (·.isAside = true) w { w with events, sizeFailures } :=
    ⟨_, hn, fun e he => List.mem_singleton.mp he ▸ rfl⟩
  rw [bind_of_ok hs]
  unfold World.fetched
  cases w.sizeOf server name with
  | error e =>
    obtain ⟨log, h⟩ := Silent.bind_run (Silent.note _) _ _
    exact ⟨_, h, ⟨_, _, _, _, rfl⟩, hsize⟩
  | ok size =>
    dsimp only
    rw [bind_assoc, get_bind]
    show ∃ w', (if w.reserves size.toNat then _ else _ : Sim _) _ = _ ∧ _
    by_cases hroom : w.reserves size.toNat = true
    · rw [if_pos hroom, if_pos hroom]
      obtain ⟨events', reads, hr, hn'⟩ := receiveFile_run server name size.toNat { w with events, sizeFailures }
      have hread : Emits (·.isAside = true) w { w with events := events', sizeFailures, reads } :=
        hsize.trans ⟨_, hn', fun e he => List.mem_singleton.mp he ▸ rfl⟩
      have hfile : ({ w with events, sizeFailures } : World).fileIn server name size.toNat =
        w.fileIn server name size.toNat := rfl
      rw [hfile] at hr
      rw [bind_of_ok hr]
      rcases w.fileIn server name size.toNat with ⟨e | count, buffer⟩
      · obtain ⟨log, h⟩ := Silent.bind_run (Silent.note _) _ _
        exact ⟨_, h, ⟨_, _, _, _, rfl⟩, hread⟩
      · obtain ⟨log, h⟩ := Silent.bind_run (Silent.note _) _ _
        exact ⟨_, h, ⟨_, _, _, _, rfl⟩, hread⟩
    · rw [if_neg hroom, if_neg hroom]
      exact ⟨_, rfl, ⟨_, _, _, _, rfl⟩, hsize⟩

end Boot.Transfer

end NetBoot
