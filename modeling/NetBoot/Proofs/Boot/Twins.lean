/-
  NetBoot.Proofs.Boot.Twins — two runs that differ in what is said and how long that takes.

  Two worlds are twins if they agree on everything but the text that has been shown, the time, the log, and
  files that are not asked for (`Twin`). A pair of computations is alike if it takes twins to twins, with the
  same answer or the same early end (`Alike`). Every service is alike to itself, since the clock is read in
  waits only, and a wait counts from where it began (`alike_waitForKey`); and so are two sessions of which
  one shows diagnostics and the other does not (`alike_attends`). A run may not reach the end of the clock,
  which is what the price of a computation is for.
-/

import NetBoot.Proofs.Boot.Exchange

namespace NetBoot

namespace Sim

variable {α β : Type} {w w' v v' : World}

/-! ## Twins -/

/-- The machine, with files, texts, time and the log left out. -/
def World.silenced (w : World) : World :=
  { w with files := [], reads := [], clock := 0, sleeps := [], events := #[], logLimit := none, log := #[] }

/-- What has been seen, without text and pauses. -/
def World.seen (w : World) : List Event := w.events.toList.filter fun e => !e.isTalk

/-- What two runs are compared by: the files that are the same in both, and what had been seen when the
    comparison began. -/
structure Terms where
  asks : Net.Ipv4 → String → Prop
  front : List Event
  front' : List Event

/-- Two worlds agree on everything that a boot goes by, and there are so many milliseconds left in both. -/
structure Akin (asks : Net.Ipv4 → String → Prop) (t : Nat) (w v : World) : Prop where
  silenced_eq : v.silenced = w.silenced
  lookup_eq {server : Net.Ipv4} {name : String} :
    asks server name → v.files.lookup (server, name) = w.files.lookup (server, name)
  time : w.clock.toNat + t < UInt64.size
  time' : v.clock.toNat + t < UInt64.size

/-- And the same has been seen in both since the comparison began. -/
structure Twin (k : Terms) (t : Nat) (w v : World) : Prop extends Akin k.asks t w v where
  seen : ∃ es, w.seen = k.front ++ es ∧ v.seen = k.front' ++ es

/-- What does not go by what is left out is the same in both. -/
theorem eq_of_silenced_eq {a : World → α} (ha : ∀ w, a w.silenced = a w) (h : v.silenced = w.silenced) : a v = a w := by
  rw [← ha v, h, ha]

namespace Akin

variable {asks : Net.Ipv4 → String → Prop} {s t : Nat}

theorem mono (h : Akin asks t w v) (hle : s ≤ t) : Akin asks s w v where
  silenced_eq := h.silenced_eq
  lookup_eq := h.lookup_eq
  time := Nat.lt_of_le_of_lt (Nat.add_le_add_left hle _) h.time
  time' := Nat.lt_of_le_of_lt (Nat.add_le_add_left hle _) h.time'

theorem same {a : World → α} (h : Akin asks t w v) (ha : ∀ w, a w.silenced = a w) : a v = a w :=
  eq_of_silenced_eq ha h.silenced_eq

/-- One world is the other, but for what they need not agree on. -/
theorem exists_eq (h : Akin asks t w v) : ∃ files reads clock sleeps events logLimit log,
    v = { w with files, reads, clock, sleeps, events, logLimit, log } := by
  refine ⟨v.files, v.reads, v.clock, v.sleeps, v.events, v.logLimit, v.log, ?_⟩
  have hs := h.silenced_eq
  obtain ⟨⟩ := w
  obtain ⟨⟩ := v
  simp only [World.silenced, World.mk.injEq, true_and, and_true] at hs
  simp only [World.mk.injEq, true_and, and_true]
  simp only [hs, and_self]

end Akin

namespace Twin

variable {k : Terms} {s t : Nat}

theorem mono (h : Twin k t w v) (hle : s ≤ t) : Twin k s w v := ⟨h.toAkin.mono hle, h.seen⟩

/-- Nothing has been seen in either, and no time has gone by. -/
theorem still (h : Twin k t w v) (hs : v'.silenced = w'.silenced)
    (hw : w'.files = w.files ∧ w'.clock = w.clock ∧ w'.events = w.events)
    (hv : v'.files = v.files ∧ v'.clock = v.clock ∧ v'.events = v.events) : Twin k t w' v' := by
  obtain ⟨hfiles, hclock, hevents⟩ := hw
  obtain ⟨hfiles', hclock', hevents'⟩ := hv
  refine ⟨⟨hs, fun ha => ?_, hclock ▸ h.time, hclock' ▸ h.time'⟩, ?_⟩
  · rw [hfiles, hfiles', h.lookup_eq ha]
  · rw [World.seen, World.seen, hevents, hevents']
    exact h.seen

theorem seen_push {e : Event} (hn : w'.events = w.events.push e) :
    w'.seen = w.seen ++ [e].filter fun e => !e.isTalk := by
  rw [World.seen, hn, Array.toList_push, List.filter_append, World.seen]

/-- The same has been seen in both, and in both so much time may have gone by. -/
theorem pass (h : Twin k (s + t) w v) (e : Event) (hs : v'.silenced = w'.silenced)
    (hw : w'.files = w.files ∧ w'.clock.toNat ≤ w.clock.toNat + t ∧ w'.events = w.events.push e)
    (hv : v'.files = v.files ∧ v'.clock.toNat ≤ v.clock.toNat + t ∧ v'.events = v.events.push e) : Twin k s w' v' := by
  obtain ⟨hfiles, hclock, hevents⟩ := hw
  obtain ⟨hfiles', hclock', hevents'⟩ := hv
  obtain ⟨es, hseen, hseen'⟩ := h.seen
  have htime := h.time
  have htime' := h.time'
  refine ⟨⟨hs, fun ha => ?_, by omega, by omega⟩, es ++ [e].filter fun e => !e.isTalk, ?_, ?_⟩
  · rw [hfiles, hfiles', h.lookup_eq ha]
  · rw [seen_push hevents, hseen, List.append_assoc]
  · rw [seen_push hevents', hseen', List.append_assoc]

/-- The same has been seen in both, and no time has gone by. -/
theorem step (h : Twin k t w v) (e : Event) (hs : v'.silenced = w'.silenced)
    (hw : w'.files = w.files ∧ w'.clock = w.clock ∧ w'.events = w.events.push e)
    (hv : v'.files = v.files ∧ v'.clock = v.clock ∧ v'.events = v.events.push e) : Twin k t w' v' := by
  obtain ⟨hfiles, hclock, hevents⟩ := hw
  obtain ⟨hfiles', hclock', hevents'⟩ := hv
  have h : Twin k (t + 0) w v := h
  exact h.pass e hs ⟨hfiles, by rw [hclock]; exact Nat.le_refl _, hevents⟩
    ⟨hfiles', by rw [hclock']; exact Nat.le_refl _, hevents'⟩

end Twin

/-! ## Runs of twins -/

/-- Two runs end alike: with the same answer, or cut off for the same reason, and in twins. -/
inductive Agree (k : Terms) (t : Nat) : EStateM.Result Abort World α → EStateM.Result Abort World α → Prop
  | ok (a : α) {w v : World} (h : Twin k t w v) : Agree k t (.ok a w) (.ok a v)
  | error (e : Abort) {w v : World} (h : Twin k t w v) : Agree k t (.error e w) (.error e v)

/-- Twins in which so much time is left are taken to twins, with less time left by what it takes. -/
def Alike (k : Terms) (t : Nat) (x y : Sim α) : Prop := ∀ s w v, Twin k (s + t) w v → Agree k s (x w) (y v)

variable {k : Terms} {s t : Nat} {x y : Sim α} {f g : α → Sim β}

/-- What comes behind a run of twins may go by how it ended. -/
theorem Agree.bind (hx : Agree k (s + t) (x w) (y v)) (hf : ∀ a w' v', x w = .ok a w' → y v = .ok a v' →
    Twin k (s + t) w' v' → Agree k s (f a w') (g a v')) : Agree k s ((x >>= f) w) ((y >>= g) v) := by
  generalize hr : x w = r at hx
  generalize hr' : y v = r' at hx
  cases hx with
  | ok a h =>
    rw [bind_of_ok hr, bind_of_ok hr']
    exact hf a _ _ hr hr' h
  | error e h =>
    rw [bind_of_error hr, bind_of_error hr']
    exact .error e (h.mono (Nat.le_add_right s t))

/-- The answer of a run, or what it was cut off by. -/
def answer (x : Sim α) (w : World) : Except Abort α :=
  match x w with
  | .ok a _ => .ok a
  | .error e _ => .error e

/-- Two runs come to the same, and texts and pauses aside the same is seen in them, behind `reads` in the one
    and `reads'` in the other. -/
structure SameRuns (reads reads' : List Event) (x y : Sim α) (w v : World) : Prop where
  answer_eq : answer x w = answer y v
  seen : ∃ rest, (after x w).seen = w.seen ++ (reads ++ rest) ∧ (after y v).seen = v.seen ++ (reads' ++ rest)

theorem Agree.sameRuns {reads reads' : List Event} (asks : Net.Ipv4 → String → Prop) {w₁ v₁ : World}
    {x₁ y₁ : Sim α} (hx : x w = x₁ w₁) (hy : y v = y₁ v₁)
    (h : Agree ⟨asks, w.seen ++ reads, v.seen ++ reads'⟩ t (x₁ w₁) (y₁ v₁)) : SameRuns reads reads' x y w v := by
  have hseen {w' v' : World} (h' : Twin ⟨asks, w.seen ++ reads, v.seen ++ reads'⟩ t w' v') :
      ∃ rest, w'.seen = w.seen ++ (reads ++ rest) ∧ v'.seen = v.seen ++ (reads' ++ rest) := by
    obtain ⟨rest, hw, hv⟩ := h'.seen
    exact ⟨rest, hw.trans (List.append_assoc ..), hv.trans (List.append_assoc ..)⟩
  rw [← hx, ← hy] at h
  constructor
  · unfold answer
    generalize x w = r, y v = r' at h
    cases h <;> rfl
  · unfold after
    generalize x w = r, y v = r' at h
    cases h with
    | ok a h' => exact hseen h'
    | error e h' => exact hseen h'

namespace Alike

theorem paired (k : Terms) : Paired (m := Sim) fun t x y => Alike k t x y where
  pure a _ _ _ h := .ok a h
  bind := by
    intro α β p q x y f g hx hf s w v h
    rw [Nat.add_comm p, ← Nat.add_assoc] at h
    exact (hx _ w v h).bind fun a w' v' _ _ h' => hf a s w' v' h'
  mono := by
    intro α p q x y hle hx s w v h
    have hsum : s + q = (s + (q - p)) + p := by omega
    rw [hsum] at h
    have hx := hx _ w v h
    generalize x w = r at hx ⊢
    generalize y v = r' at hx ⊢
    cases hx with
    | ok a h' => exact .ok a (h'.mono (Nat.le_add_right _ _))
    | error e h' => exact .error e (h'.mono (Nat.le_add_right _ _))

/-- A question that does not go by what twins may differ in. -/
theorem query {x : Sim α} {a : World → α} (hx : ∀ w, x w = .ok (a w) w) (ha : ∀ w, a w.silenced = a w) :
    Alike k 0 x x := by
  intro s w v h
  rw [hx, hx, h.same ha]
  exact .ok _ h

theorem silent {x : Sim α} {a : α} (hx : Silent x a) : Alike k 0 x x := by
  intro s w v h
  obtain ⟨log, hw⟩ := hx w
  obtain ⟨log', hv⟩ := hx v
  rw [hw, hv]
  exact .ok a (h.still h.silenced_eq ⟨rfl, rfl, rfl⟩ ⟨rfl, rfl, rfl⟩)

end Alike

/-! ## Talk -/

/-- Nothing has been done but to talk for a while. -/
structure Talked (t : Nat) (w w' : World) : Prop where
  silenced_eq : w'.silenced = w.silenced
  files_eq : w'.files = w.files
  seen_eq : w'.seen = w.seen
  clock_le : w'.clock.toNat ≤ w.clock.toNat + t

theorem Talked.refl (w : World) : Talked 0 w w := ⟨rfl, rfl, rfl, Nat.le_refl _⟩

theorem Talked.trans {w'' : World} (h : Talked s w w') (h' : Talked t w' w'') : Talked (s + t) w w'' where
  silenced_eq := h'.silenced_eq.trans h.silenced_eq
  files_eq := h'.files_eq.trans h.files_eq
  seen_eq := h'.seen_eq.trans h.seen_eq
  clock_le := by
    have hclock := h.clock_le
    have hclock' := h'.clock_le
    omega

theorem Talked.push {e : Event} (he : e.isTalk = true) (hs : w'.silenced = w.silenced) (hf : w'.files = w.files)
    (hn : w'.events = w.events.push e) (hc : w'.clock.toNat ≤ w.clock.toNat + t) : Talked t w w' := by
  refine ⟨hs, hf, ?_, hc⟩
  rw [Twin.seen_push hn]
  simp [he]

/-- Whatever is said on the two sides. -/
theorem Alike.of_talk {x y : Sim Unit} (hx : Total (Talked t) x) (hy : Total (Talked t) y) : Alike k t x y := by
  intro s w v h
  obtain ⟨_, w', hw, htalk⟩ := hx w
  obtain ⟨_, v', hv, htalk'⟩ := hy v
  rw [hw, hv]
  obtain ⟨es, hseen, hseen'⟩ := h.seen
  have htime := h.time
  have htime' := h.time'
  have hclock := htalk.clock_le
  have hclock' := htalk'.clock_le
  refine .ok () ⟨⟨?_, fun ha => ?_, by omega, by omega⟩, es, ?_, ?_⟩
  · rw [htalk'.silenced_eq, h.silenced_eq, htalk.silenced_eq]
  · rw [htalk'.files_eq, h.lookup_eq ha, htalk.files_eq]
  · rw [htalk.seen_eq, hseen]
  · rw [htalk'.seen_eq, hseen']

theorem clock_add_le (clock : UInt64) (ms : UInt32) : (clock + ms.toUInt64).toNat ≤ clock.toNat + ms.toNat := by
  rw [UInt64.toNat_add, UInt32.toNat_toUInt64]
  exact Nat.mod_le _ _

section Talk

variable {n : Nat} {d : Bool}

theorem talked_sleep (ms : UInt32) : Total (Talked ms.toNat) ((machine n).toConsole.sleep ms) := by
  rw [machine_toConsole]
  exact fun w => ⟨(), _, rfl, .push rfl rfl rfl rfl (clock_add_le w.clock ms)⟩

theorem talked_speaks : Speaks (fun t x _ => Total (Talked t) x) (machine n) d d := by
  refine Paired.speaks ⟨fun a w => ⟨a, w, rfl, .refl w⟩, fun hx hf w => ?_, fun hle hx w => ?_⟩ (fun r => ?_)
    (fun text => ?_) fun ms => ?_
  · obtain ⟨a, w', hr, htalk⟩ := hx w
    obtain ⟨b, w'', hr', htalk'⟩ := hf a w'
    exact ⟨b, w'', by rw [bind_of_ok hr, hr'], htalk.trans htalk'⟩
  · obtain ⟨a, w', hr, htalk⟩ := hx w
    exact ⟨a, w', hr, htalk.silenced_eq, htalk.files_eq, htalk.seen_eq,
      Nat.le_trans htalk.clock_le (Nat.add_le_add_left hle _)⟩
  · rw [machine_toJournal]
    exact .silent (fun w _ => ⟨rfl, rfl, rfl, Nat.le_refl _⟩) (.note r)
  · rw [machine_toConsole]
    exact fun w => ⟨(), _, rfl, .push rfl rfl rfl rfl (Nat.le_refl _)⟩
  · exact talked_sleep ms

end Talk

/-! ## The console and the network -/

section Services

/-- A change of what does not tell twins apart. -/
theorem Alike.of_still {x : Sim α} {a : World → α} {w₁ : World → World} (hx : ∀ w, x w = .ok (a w) (w₁ w))
    (ha : ∀ w, a w.silenced = a w) (hs : ∀ w, (w₁ w).silenced = (w₁ w.silenced).silenced)
    (hw : ∀ w, (w₁ w).files = w.files ∧ (w₁ w).clock = w.clock ∧ (w₁ w).events = w.events) : Alike k 0 x x := by
  intro s w v h
  rw [hx, hx, h.same ha]
  refine .ok _ (h.still ?_ (hw w) (hw v))
  rw [hs v, h.silenced_eq, ← hs]

/-- A service that notes one event, and otherwise does what does not go by what twins may differ in. -/
theorem Alike.of_step {x : Sim α} {a : World → α} {e : World → Event} {w₁ : World → World}
    (hx : ∀ w, x w = .ok (a w) (w₁ w)) (ha : ∀ w, a w.silenced = a w) (he : ∀ w, e w.silenced = e w)
    (hs : ∀ w, (w₁ w).silenced = (w₁ w.silenced).silenced)
    (hw : ∀ w, (w₁ w).files = w.files ∧ (w₁ w).clock = w.clock ∧ (w₁ w).events = w.events.push (e w)) :
    Alike k 0 x x := by
  intro s w v h
  have hv := hw v
  rw [h.same he] at hv
  rw [hx, hx, h.same ha]
  refine .ok _ (h.step (e w) ?_ (hw w) hv)
  rw [hs v, h.silenced_eq, ← hs]

/-- A read of a key ends with the key that comes, at once; without one, after its time; or never. -/
theorem readKey_twins {ms : UInt32} (h : Twin k (s + ms.toNat) w v) :
    (∃ key w' v', readKey ms w = .ok (some key) w' ∧ readKey ms v = .ok (some key) v' ∧ w'.clock = w.clock ∧
      v'.clock = v.clock ∧ Twin k (s + ms.toNat) w' v') ∨
    (∃ w' v', readKey ms w = .ok none w' ∧ readKey ms v = .ok none v' ∧
      w'.clock.toNat = w.clock.toNat + ms.toNat ∧ v'.clock.toNat = v.clock.toNat + ms.toNat ∧ Twin k s w' v') ∨
    ∃ w' v', readKey ms w = .error .noKeyLeft w' ∧ readKey ms v = .error .noKeyLeft v' ∧ Twin k s w' v' := by
  have hlater {clock : UInt64} (ht : clock.toNat + (s + ms.toNat) < UInt64.size) :
      (clock + ms.toUInt64).toNat = clock.toNat + ms.toNat := by
    rw [UInt64.toNat_add, UInt32.toNat_toUInt64]
    exact Nat.mod_eq_of_lt (Nat.lt_of_le_of_lt (Nat.add_le_add_left (Nat.le_add_left _ _) _) ht)
  have hw := hlater h.time
  have hv := hlater h.time'
  obtain ⟨files, reads, clock, sleeps, events, logLimit, log, rfl⟩ := h.exists_eq
  unfold readKey
  rw [get_bind, get_bind]
  dsimp only
  rcases w.keys with _ | ⟨_ | key, keys⟩
  · dsimp only
    split
    · have hnow := h.mono (Nat.le_add_right s ms.toNat)
      exact .inr (.inr ⟨_, _, rfl, rfl, hnow.step (.readKey ms none) rfl ⟨rfl, rfl, rfl⟩ ⟨rfl, rfl, rfl⟩⟩)
    · exact .inr (.inl ⟨_, _, rfl, rfl, hw, hv,
        h.pass (.readKey ms (some none)) rfl ⟨rfl, Nat.le_of_eq hw, rfl⟩ ⟨rfl, Nat.le_of_eq hv, rfl⟩⟩)
  · exact .inr (.inl ⟨_, _, rfl, rfl, hw, hv,
      h.pass (.readKey ms (some none)) rfl ⟨rfl, Nat.le_of_eq hw, rfl⟩ ⟨rfl, Nat.le_of_eq hv, rfl⟩⟩)
  · exact .inl ⟨key, _, _, rfl, rfl, rfl, rfl,
      h.step (.readKey ms (some (some key))) rfl ⟨rfl, rfl, rfl⟩ ⟨rfl, rfl, rfl⟩⟩

theorem alike_readKey (ms : UInt32) : Alike k ms.toNat (readKey ms) (readKey ms) := by
  intro s w v h
  rcases readKey_twins h with ⟨key, w', v', hw, hv, -, -, h'⟩ | ⟨w', v', hw, hv, -, -, h'⟩ | ⟨w', v', hw, hv, h'⟩
  · rw [hw, hv]
    exact .ok _ (h'.mono (Nat.le_add_right _ _))
  · rw [hw, hv]
    exact .ok _ h'
  · rw [hw, hv]
    exact .error _ h'

/-- One turn of a wait. -/
theorem waitUntil_succ (key : Key) (deadline reads : Nat) (w : World) :
    Boot.waitUntil (machine 0).toConsole key deadline (reads + 1) w =
      if deadline ≤ w.clock.toNat then .ok false w
      else (readKey (UInt32.ofNat (min (deadline - w.clock.toNat) (UInt32.size - 1))) >>= fun pressed => do
        if pressed = some key then return true
        else Boot.waitUntil (machine 0).toConsole key deadline reads) w := by
  by_cases h : deadline ≤ w.clock.toNat
  · rw [if_pos h]
    exact congrFun (if_pos h) w
  · rw [if_neg h]
    exact congrFun (if_neg h) w

/-- A wait goes by the time that is left of it, and not by the time that it is. -/
theorem agree_waitUntil (key : Key) (reads left : Nat) (h : Twin k (s + left) w v) :
    Agree k s (Boot.waitUntil (machine 0).toConsole key (w.clock.toNat + left) reads w)
      (Boot.waitUntil (machine 0).toConsole key (v.clock.toNat + left) reads v) := by
  induction reads generalizing left w v with
  | zero => exact .ok false (h.mono (Nat.le_add_right _ _))
  | succ reads ih =>
    rw [waitUntil_succ, waitUntil_succ]
    by_cases hleft : left = 0
    · rw [if_pos (by omega), if_pos (by omega)]
      exact .ok false (h.mono (Nat.le_add_right _ _))
    rw [if_neg (by omega), if_neg (by omega), Nat.add_sub_cancel_left, Nat.add_sub_cancel_left]
    have hms : (UInt32.ofNat (min left (UInt32.size - 1))).toNat ≤ left := by
      rw [UInt32.toNat_ofNat']
      exact Nat.le_trans (Nat.mod_le _ _) (Nat.min_le_left _ _)
    generalize UInt32.ofNat (min left (UInt32.size - 1)) = ms at hms ⊢
    have hsum : s + left = (s + (left - ms.toNat)) + ms.toNat := by omega
    rw [hsum] at h
    rcases readKey_twins h with
      ⟨pressed, w', v', hw, hv, hcw, hcv, h'⟩ | ⟨w', v', hw, hv, hcw, hcv, h'⟩ | ⟨w', v', hw, hv, h'⟩
    · -- another key takes no time, so as much is left as before
      rw [bind_of_ok hw, bind_of_ok hv, ← hcw, ← hcv]
      rw [← hsum] at h'
      by_cases hkey : some pressed = some key
      · simp only [hkey, if_true]
        exact .ok true (h'.mono (Nat.le_add_right _ _))
      · simp only [hkey, if_false]
        exact ih left h'
    · have hdw : w.clock.toNat + left = w'.clock.toNat + (left - ms.toNat) := by omega
      have hdv : v.clock.toNat + left = v'.clock.toNat + (left - ms.toNat) := by omega
      rw [bind_of_ok hw, bind_of_ok hv, hdw, hdv]
      exact ih _ h'
    · rw [bind_of_error hw, bind_of_error hv]
      exact .error _ (h'.mono (Nat.le_add_right _ _))

theorem alike_waitForKey (key : Key) (delay : UInt32) :
    Alike k delay.toNat (Boot.waitForKey (machine 0).toConsole key delay)
      (Boot.waitForKey (machine 0).toConsole key delay) := by
  intro s w v h
  have hkeys : v.keys = w.keys := by
    obtain ⟨_, _, _, _, _, _, _, rfl⟩ := h.exists_eq
    rfl
  have hwait (w : World) : Boot.waitForKey (machine 0).toConsole key delay w =
      Boot.waitUntil (machine 0).toConsole key (w.clock.toNat + delay.toNat) (w.keys.length + 2) w := rfl
  rw [hwait, hwait, hkeys]
  exact agree_waitUntil key _ _ h

theorem alike_takeFailure (name : String) : Alike k 0 (takeFailure name) (takeFailure name) := by
  intro s w v h
  obtain ⟨files, reads, clock, sleeps, events, logLimit, log, rfl⟩ := h.exists_eq
  unfold takeFailure
  rw [get_bind, get_bind]
  dsimp only
  rcases w.sizeFailures.find? name with _ | _ | failures
  · exact .ok false h
  · exact .ok false h
  · exact .ok true (h.still rfl ⟨rfl, rfl, rfl⟩ ⟨rfl, rfl, rfl⟩)

theorem alike_emit (e : Event) : Alike k 0 (emit e) (emit e) :=
  .of_step (e := fun _ => e) (fun _ => rfl) (fun _ => rfl) (fun _ => rfl) (fun _ => rfl) fun _ => ⟨rfl, rfl, rfl⟩

theorem alike_fileSize {server : Net.Ipv4} {name : String} (hs : k.asks server name) :
    Alike k 0 (fileSize server name) (fileSize server name) := by
  have hp := Alike.paired k
  refine hp.seq ?_ fun r => hp.seq (alike_emit _) fun _ => hp.pure r
  refine hp.seq (alike_takeFailure name) fun failed => ?_
  cases failed with
  | true => exact hp.pure _
  | false =>
    intro s w v h
    obtain ⟨files, reads, clock, sleeps, events, logLimit, log, rfl⟩ := h.exists_eq
    rw [if_neg Bool.false_ne_true, get_bind, get_bind]
    dsimp only
    rw [h.lookup_eq hs]
    cases w.files.lookup (server, name) with
    | none => exact .ok _ h
    | some data => exact .ok _ h

theorem alike_receiveFile {server : Net.Ipv4} {name : String} (hs : k.asks server name) (len : Nat) :
    Alike k 0 (receiveFile server name len) (receiveFile server name len) := by
  have hp := Alike.paired k
  have hcopy : Alike k 0 (copyFile server name len) (copyFile server name len) := by
    intro s w v h
    obtain ⟨files, reads, clock, sleeps, events, logLimit, log, rfl⟩ := h.exists_eq
    unfold copyFile
    rw [get_bind, get_bind]
    dsimp only
    cases w.readFaults.find? name with
    | some e => exact .ok _ h
    | none =>
      dsimp only
      rw [set_bind, set_bind, h.lookup_eq hs]
      cases w.files.lookup (server, name) with
      | none => exact .ok _ (h.still rfl ⟨rfl, rfl, rfl⟩ ⟨rfl, rfl, rfl⟩)
      | some data =>
        dsimp only
        split
        · exact .ok _ (h.still rfl ⟨rfl, rfl, rfl⟩ ⟨rfl, rfl, rfl⟩)
        · exact .ok _ (h.still rfl ⟨rfl, rfl, rfl⟩ ⟨rfl, rfl, rfl⟩)
  exact hp.seq hcopy fun (result, buffer) => hp.seq (alike_emit _) fun _ => hp.pure (result, buffer)

theorem alike_resolveHost {n : Nat} (name : String) :
    Alike k 0 ((machine n).resolveHost name) ((machine n).resolveHost name) := by
  have hp := Alike.paired k
  have hlookUp : Alike k 0 (lookUp name) (lookUp name) := by
    intro s w v h
    obtain ⟨files, reads, clock, sleeps, events, logLimit, log, rfl⟩ := h.exists_eq
    unfold lookUp
    rw [get_bind, get_bind]
    dsimp only
    cases w.lookupsNotReady with
    | succ failures => exact .ok _ (h.still rfl ⟨rfl, rfl, rfl⟩ ⟨rfl, rfl, rfl⟩)
    | zero =>
      dsimp only
      rw [set_bind, set_bind]
      cases w.hosts.find? name with
      | some address => exact .ok _ (h.still rfl ⟨rfl, rfl, rfl⟩ ⟨rfl, rfl, rfl⟩)
      | none => exact .ok _ (h.still rfl ⟨rfl, rfl, rfl⟩ ⟨rfl, rfl, rfl⟩)
  rw [machine_resolveHost]
  exact hp.seq hlookUp fun r => hp.seq (alike_emit _) fun _ => hp.pure r

theorem alike_redirectBoot (file : String) (server : Net.Ipv4) :
    Alike k 0 (redirectBoot file server) (redirectBoot file server) := by
  intro s w v h
  obtain ⟨files, reads, clock, sleeps, events, logLimit, log, rfl⟩ := h.exists_eq
  unfold redirectBoot
  rw [get_bind, get_bind]
  dsimp only
  split
  · exact .ok _ (h.step _ rfl ⟨rfl, rfl, rfl⟩ ⟨rfl, rfl, rfl⟩)
  · exact .ok _ (h.step _ rfl ⟨rfl, rfl, rfl⟩ ⟨rfl, rfl, rfl⟩)

/-- Each service that a client uses is alike to itself, and so is what is said in a session with diagnostics to
    what is said in one without. -/
theorem alike_attends (d d' : Bool) {n : Nat} :
    Attends k.asks (fun t x y => Alike k t x y) (machine n) d d' where
  toPaired := Alike.paired k
  log r := by
    rw [machine_toJournal]
    exact .silent (.note r)
  print text := .of_talk ((talked_speaks (d := d)).print text) ((talked_speaks (d := d)).print text)
  sayDebug pieces := .of_talk (talked_speaks.sayDebug pieces) (talked_speaks.sayDebug pieces)
  debugDelay seconds := .of_talk (talked_speaks.debugDelay seconds) (talked_speaks.debugDelay seconds)
  clear := by
    rw [machine_toConsole]
    exact .of_step (e := fun _ => .clear) (fun _ => rfl) (fun _ => rfl) (fun _ => rfl) (fun _ => rfl) fun _ =>
      ⟨rfl, rfl, rfl⟩
  cursor := by
    rw [machine_toConsole]
    exact .query (a := fun w => w.fixedCursor.getD w.cursor) (fun _ => rfl) fun _ => rfl
  setCursor column row := by
    rw [machine_toConsole]
    exact .of_step (e := fun _ => .setCursor column row) (fun _ => rfl) (fun _ => rfl) (fun _ => rfl) (fun _ => rfl)
      fun _ => ⟨rfl, rfl, rfl⟩
  setHighlight on := by
    rw [machine_toConsole]
    exact .of_step (e := fun _ => .highlight on) (fun _ => rfl) (fun _ => rfl) (fun _ => rfl) (fun _ => rfl) fun _ =>
      ⟨rfl, rfl, rfl⟩
  readKey timeout := by
    rw [machine_toConsole]
    exact alike_readKey timeout
  sleep ms := .of_talk (talked_sleep ms) (talked_sleep ms)
  keysAhead := by
    rw [machine_toConsole]
    exact .query (a := fun w => w.keys.length) (fun _ => rfl) fun _ => rfl
  waitForKey key delay := by
    rw [machine_toConsole]
    exact alike_waitForKey key delay
  clientMac := .query (clientMac_run n) fun _ => rfl
  discoverPacket := .query (a := fun w => if w.discover.isEmpty then .error .notFound else .ok w.discover)
    (fun w => by cases n <;> rfl) fun _ => rfl
  systemUuid := .query (systemUuid_run n) fun _ => rfl
  reserve len := by
    show Alike k 0 ((machine n).toNetwork.reserve len) ((machine n).toNetwork.reserve len)
    rw [machine_reserve]
    exact .query (a := fun w => w.reserves len) (fun _ => rfl) fun _ => rfl
  fileSize {server name} hs := by
    show Alike k 0 ((machine n).toNetwork.fileSize server name) ((machine n).toNetwork.fileSize server name)
    rw [machine_fileSize]
    exact alike_fileSize hs
  receiveFile {server name} len hs := by
    show Alike k 0 ((machine n).toNetwork.receiveFile server name len)
      ((machine n).toNetwork.receiveFile server name len)
    rw [machine_receiveFile]
    exact alike_receiveFile hs len

end Services

/-! ## The machine -/

section Machine

theorem alike_allocatePages (pages : Nat) : Alike k 0 (allocatePages pages) (allocatePages pages) := by
  intro s w v h
  obtain ⟨files, reads, clock, sleeps, events, logLimit, log, rfl⟩ := h.exists_eq
  unfold allocatePages
  rw [get_bind, get_bind]
  have hsame : takePages { w with files, reads, clock, sleeps, events, logLimit, log } pages = takePages w pages := rfl
  rw [hsame]
  cases takePages w pages with
  | error e => exact .ok _ (h.step _ rfl ⟨rfl, rfl, rfl⟩ ⟨rfl, rfl, rfl⟩)
  | ok taken =>
    obtain ⟨base, memory⟩ := taken
    dsimp only
    rw [set_bind, set_bind]
    have hp := Alike.paired k
    refine (hp.seq (.silent (.note _)) fun _ => hp.seq (alike_emit _) fun _ => hp.pure _) s _ _ ?_
    exact h.still rfl ⟨rfl, rfl, rfl⟩ ⟨rfl, rfl, rfl⟩

theorem alike_freePages (base : Address) (pages : Nat) : Alike k 0 (freePages base pages) (freePages base pages) := by
  intro s w v h
  obtain ⟨files, reads, clock, sleeps, events, logLimit, log, rfl⟩ := h.exists_eq
  have hfreed : Twin k s { w with events := w.events.push (.freePages base pages) }
      { w with files, reads, clock, sleeps, logLimit, log, events := events.push (.freePages base pages) } :=
    h.step _ rfl ⟨rfl, rfl, rfl⟩ ⟨rfl, rfl, rfl⟩
  unfold freePages
  rw [emit_bind, emit_bind, get_bind, get_bind]
  dsimp only
  cases w.allocations.find? base with
  | none => exact .error _ hfreed
  | some live =>
    dsimp only
    rw [set_bind, set_bind]
    split
    · exact .error _ (hfreed.still rfl ⟨rfl, rfl, rfl⟩ ⟨rfl, rfl, rfl⟩)
    · exact .ok _ (hfreed.still rfl ⟨rfl, rfl, rfl⟩ ⟨rfl, rfl, rfl⟩)

theorem alike_setLoadedImage (handle : Handle) (record : LoadedImage) :
    Alike k 0 (setLoadedImage handle record) (setLoadedImage handle record) := by
  intro s w v h
  obtain ⟨files, reads, clock, sleeps, events, logLimit, log, rfl⟩ := h.exists_eq
  unfold setLoadedImage
  rw [emit_bind, emit_bind, get_bind, get_bind]
  dsimp only
  cases w.updateFaults.find? (w.updates + 1) with
  | some e => exact .ok _ (h.step _ rfl ⟨rfl, rfl, rfl⟩ ⟨rfl, rfl, rfl⟩)
  | none =>
    dsimp only
    split
    · exact .ok _ (h.step _ rfl ⟨rfl, rfl, rfl⟩ ⟨rfl, rfl, rfl⟩)
    · exact .ok _ (h.step _ rfl ⟨rfl, rfl, rfl⟩ ⟨rfl, rfl, rfl⟩)

theorem alike_verify (image : Bytes) : Alike k 0 (verify image) (verify image) := by
  have hp := Alike.paired k
  have hjudge : Alike k 0 (judge image) (judge image) := by
    intro s w v h
    obtain ⟨files, reads, clock, sleeps, events, logLimit, log, rfl⟩ := h.exists_eq
    unfold judge
    rw [get_bind, get_bind]
    dsimp only
    cases hv : w.verifier with
    | absent =>
      rw [hv] at h
      exact .ok _ h
    | answering status =>
      rw [hv] at h
      exact .ok _ h
    | recording accept sizes => exact .ok _ (h.still rfl ⟨rfl, rfl, rfl⟩ ⟨rfl, rfl, rfl⟩)
  exact hp.seq hjudge fun answer => hp.seq (alike_emit _) fun _ => hp.pure answer

theorem alike_loadImage (parent : Handle) (path : Option DevicePath) (source : Bytes) :
    Alike k 0 (loadImage parent path source) (loadImage parent path source) := by
  intro s w v h
  have herror : v.loadImageError = w.loadImageError := h.same (a := fun w => w.loadImageError) fun _ => rfl
  have hnext : v.nextHandle = w.nextHandle := h.same (a := fun w => w.nextHandle) fun _ => rfl
  rcases loadImage_run parent path source w with ⟨status, he, hw⟩ | ⟨he, hw⟩ <;>
    rcases loadImage_run parent path source v with ⟨status', he', hv⟩ | ⟨he', hv⟩
  · obtain rfl : status' = status := Option.some.inj (he'.symm.trans (herror.trans he))
    rw [hw, hv]
    exact .ok _ (h.step _ h.silenced_eq ⟨rfl, rfl, rfl⟩ ⟨rfl, rfl, rfl⟩)
  · exact nomatch he'.symm.trans (herror.trans he)
  · exact nomatch he'.symm.trans (herror.trans he)
  · rw [hw, hv, hnext]
    have hloaded := congrArg (fun u : World => { u with
      nextHandle := w.nextHandle + 1
      records := u.records.insert ⟨w.nextHandle + 1⟩ { parent, size := UInt64.ofNat source.size } }) h.silenced_eq
    exact .ok _ (h.step _ hloaded ⟨rfl, rfl, rfl⟩ ⟨rfl, rfl, rfl⟩)

theorem alike_unloadImage (handle : Handle) : Alike k 0 (unloadImage handle) (unloadImage handle) := by
  intro s w v h
  obtain ⟨files, reads, clock, sleeps, events, logLimit, log, rfl⟩ := h.exists_eq
  unfold unloadImage
  rw [emit_bind, emit_bind, get_bind, get_bind]
  dsimp only
  cases w.unloadStatus with
  | some status => exact .ok _ (h.step _ rfl ⟨rfl, rfl, rfl⟩ ⟨rfl, rfl, rfl⟩)
  | none => exact .ok _ (h.step _ rfl ⟨rfl, rfl, rfl⟩ ⟨rfl, rfl, rfl⟩)

theorem alike_takeScript : Alike k 0 Image.takeScript Image.takeScript := by
  intro s w v h
  obtain ⟨files, reads, clock, sleeps, events, logLimit, log, rfl⟩ := h.exists_eq
  unfold Image.takeScript
  rw [get_bind, get_bind]
  dsimp only
  cases he : w.entries with
  | nil =>
    rw [he] at h
    exact .ok _ h
  | cons script entries => exact .ok _ (h.still rfl ⟨rfl, rfl, rfl⟩ ⟨rfl, rfl, rfl⟩)

/-- So is each service of the machine, and each step of an image that runs. -/
theorem alike_hosted (k : Terms) : Hosted fun x => Alike k 0 x x where
  toComposed := (Alike.paired k).composed
  log r := .silent (.note r)
  allocatePages := alike_allocatePages
  freePages := alike_freePages
  readMemory _ _ := .query (readMemory_run 0 _ _) fun _ => rfl
  writeMemory base bytes := .of_still (writeMemory_run 0 base bytes) (fun _ => rfl) (fun _ => rfl) fun _ =>
    ⟨rfl, rfl, rfl⟩
  loadedImage handle := .query (loadedImage_run handle) fun _ => rfl
  setLoadedImage := alike_setLoadedImage
  readVariable name vendor := .query (readVariable_run 0 name vendor) fun _ => rfl
  verify := alike_verify
  devicePath handle := .query (devicePath_run 0 handle) fun _ => rfl
  loadImage := alike_loadImage
  startImage handle := .of_step (e := fun _ => .startImage handle) (fun _ => rfl) (fun _ => rfl) (fun _ => rfl)
    (fun _ => rfl) fun _ => ⟨rfl, rfl, rfl⟩
  unloadImage := alike_unloadImage
  syncCaches _ _ := alike_emit _
  trapsGet := .query (a := fun w => w.traps) (fun _ => rfl) fun _ => rfl
  trapsSet _ := .of_still (fun _ => rfl) (fun _ => rfl) (fun _ => rfl) fun _ => ⟨rfl, rfl, rfl⟩
  announce entry handle := .of_step
    (e := fun w =>
      .callEntry entry handle (w.records.find? handle) (w.imageMemory? handle) (w.traps.isInstalled handle))
    (fun _ => rfl) (fun _ => rfl) (fun _ => rfl) (fun _ => rfl) fun _ => ⟨rfl, rfl, rfl⟩
  takeScript := alike_takeScript
  act _ := alike_emit _
  setStatus _ := .of_still (fun _ => rfl) (fun _ => rfl) (fun _ => rfl) fun _ => ⟨rfl, rfl, rfl⟩
  comeBack _ _ := .of_still (fun _ => rfl) (fun _ => rfl) (fun _ => rfl) fun _ => ⟨rfl, rfl, rfl⟩

end Machine

end Sim

end NetBoot
