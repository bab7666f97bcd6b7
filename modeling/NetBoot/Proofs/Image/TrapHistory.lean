/-
  NetBoot.Proofs.Image.TrapHistory — what the exit traps answer, from the history of their use.

  A history is a list of uses on any handles, the latest in front; `after` is the registry that it
  leads to, with the tokens that were handed out. A token is named by its handle and by which trap of
  that handle it is for, counted from 0, and is taken at most once (`Proper`). The registry says no
  more than the history does (`Follows`): a trap stands on a handle when its latest one has not been
  taken (`Standing`), and it keeps the first exit since it was set (`firstExitSince`). Generations
  tell the traps of one handle apart; they are counted over all handles, but no answer shows them, so
  the answers for one handle are those of the uses on that handle alone (`answers_filter`).
-/

import NetBoot.Proofs.Image.Trapping

namespace NetBoot.Image

/-- One use of the registry. -/
inductive TrapUse where
  | install (handle : Handle)
  | exit (handle : Handle) (exit : Exit)
  | unload (handle : Handle)
  | query (handle : Handle)
  /-- Takes the trap of the `index`-th token of the handle. -/
  | take (handle : Handle) (index : Nat)
  deriving DecidableEq, Repr

/-- The answer to a use. A new token shows nothing but its handle. -/
inductive TrapAnswer where
  | token (handle : Handle)
  | disposition (disposition : Disposition)
  | refusal (status : Option Status)
  | installed (b : Bool)
  | kept (exit : Option Exit)
  /-- There is no such token. -/
  | missing
  deriving DecidableEq, Repr

/-- The registry and the tokens of each handle, the oldest first. -/
structure TrapUser where
  traps : Traps := {}
  tokens : Handle → List TrapToken := fun _ => []

namespace TrapUse

def handle : TrapUse → Handle
  | install h | exit h _ | unload h | query h | take h _ => h

def perform (s : TrapUser) : TrapUse → TrapAnswer × TrapUser
  | install h =>
    let (token, traps) := s.traps.install h
    (.token token.handle, ⟨traps, fun h' => if h' = h then s.tokens h ++ [token] else s.tokens h'⟩)
  | exit h e =>
    let (disposition, traps) := s.traps.onExit h e
    (.disposition disposition, { s with traps })
  | unload h => (.refusal (s.traps.onUnload h), s)
  | query h => (.installed (s.traps.isInstalled h), s)
  | take h k =>
    match (s.tokens h)[k]? with
    | none => (.missing, s)
    | some token =>
      let (kept, traps) := s.traps.take token
      (.kept kept, { s with traps })

end TrapUse

namespace TrapHistory

variable {us : List TrapUse} {u : TrapUse} {h : Handle} {s : TrapUser}

/-- The registry that a history leads to. -/
def after : List TrapUse → TrapUser
  | [] => {}
  | u :: us => (u.perform (after us)).2

/-- The uses of a history with their answers. -/
def answers : List TrapUse → List (TrapUse × TrapAnswer)
  | [] => []
  | u :: us => (u, (u.perform (after us)).1) :: answers us

/-- How many traps have been set on a handle. -/
def installs (h : Handle) (us : List TrapUse) : Nat := us.count (.install h)

/-- How many traps have been set on all handles. -/
def allInstalls (us : List TrapUse) : Nat := us.countP fun u => u matches .install _

/-- A trap is taken with a token that there is, and that has not been taken before. -/
def Allowed (us : List TrapUse) : TrapUse → Prop
  | .take h k => k < installs h us ∧ .take h k ∉ us
  | _ => True

def Proper : List TrapUse → Prop
  | [] => True
  | u :: us => Allowed us u ∧ Proper us

/-- The latest trap of the handle has not been taken. -/
def Standing (h : Handle) (us : List TrapUse) : Prop := 0 < installs h us ∧ .take h (installs h us - 1) ∉ us

instance (h : Handle) (us : List TrapUse) : Decidable (Standing h us) := inferInstanceAs (Decidable (_ ∧ _))

/-- The first exit on the handle since its latest trap was set. -/
def firstExitSince (h : Handle) : List TrapUse → Option Exit
  | [] => none
  | .install h' :: us => if h' = h then none else firstExitSince h us
  | .exit h' e :: us => if h' = h then (firstExitSince h us).or (some e) else firstExitSince h us
  | _ :: us => firstExitSince h us

/-! ## One use and the history -/

@[simp] theorem installs_install (h h' : Handle) (us : List TrapUse) :
    installs h (.install h' :: us) = if h' = h then installs h us + 1 else installs h us := by
  by_cases hh : h' = h
  · subst hh
    simp [installs]
  · simp [installs, hh]

theorem installs_of_ne (hu : ∀ h, u ≠ .install h) (h : Handle) : installs h (u :: us) = installs h us :=
  List.count_cons_of_ne (hu h)

/-- A use that neither sets a trap nor takes one leaves the same traps standing. -/
theorem standing_cons (hi : ∀ h, u ≠ .install h) (ht : ∀ h k, u ≠ .take h k) (h : Handle) :
    Standing h (u :: us) ↔ Standing h us := by
  rw [Standing, Standing, installs_of_ne hi]
  simp [(ht h _).symm]

/-- Tokens are taken only after they were handed out. -/
theorem lt_of_taken (hp : Proper us) {k : Nat} (ht : TrapUse.take h k ∈ us) : k < installs h us := by
  induction us with
  | nil => cases ht
  | cons u us ih =>
    have hle : installs h us ≤ installs h (u :: us) := List.count_le_count_cons ..
    rcases List.mem_cons.mp ht with rfl | ht
    · exact Nat.lt_of_lt_of_le hp.1.1 hle
    · exact Nat.lt_of_lt_of_le (ih hp.2 ht) hle

theorem standing_install_self (hp : Proper us) : Standing h (.install h :: us) := by
  have hnew : TrapUse.take h (installs h us) ∉ us := fun ht => Nat.lt_irrefl _ (lt_of_taken hp ht)
  simp [Standing, hnew]

theorem standing_install_of_ne {h' : Handle} (hh : h' ≠ h) : Standing h (.install h' :: us) ↔ Standing h us := by
  simp [Standing, hh]

theorem standing_take {h' : Handle} {k : Nat} (hlt : k < installs h' us) :
    Standing h (.take h' k :: us) ↔ Standing h us ∧ ¬(h' = h ∧ k + 1 = installs h us) := by
  have hi : installs h (.take h' k :: us) = installs h us := installs_of_ne (by simp) h
  rw [Standing, Standing, hi, List.mem_cons, not_or, and_assoc, and_congr_right_iff]
  intro hpos
  rw [and_comm, and_congr_right_iff]
  intro _
  constructor
  · rintro hne ⟨rfl, hk⟩
    exact hne (by rw [← hk, Nat.add_sub_cancel])
  · rintro hne heq
    obtain ⟨rfl, rfl⟩ := TrapUse.take.inj heq
    exact hne ⟨rfl, by omega⟩

/-! ## The registry and the history -/

/-- The trap that a history leaves on a handle that has these tokens. -/
def slotOf (h : Handle) (us : List TrapUse) (tokens : List TrapToken) : Option Trap :=
  if Standing h us then tokens[installs h us - 1]?.map fun token => ⟨token.generation, firstExitSince h us⟩ else none

/-- The registry is what the history makes it. -/
structure Follows (us : List TrapUse) (s : TrapUser) : Prop where
  length_tokens (h : Handle) : (s.tokens h).length = installs h us
  handle_eq (h : Handle) : ∀ token ∈ s.tokens h, token.handle = h
  increasing (h : Handle) : (s.tokens h).Pairwise fun a b => a.generation < b.generation
  generation_le (h : Handle) : ∀ token ∈ s.tokens h, token.generation ≤ s.traps.generation
  generation_eq : s.traps.generation = allInstalls us
  slot (h : Handle) : s.traps.slots.find? h = slotOf h us (s.tokens h)

namespace Follows

theorem slot_of_standing (hf : Follows us s) (hs : Standing h us) :
    ∃ token, (s.tokens h)[installs h us - 1]? = some token ∧
      s.traps.slots.find? h = some ⟨token.generation, firstExitSince h us⟩ := by
  have hpos := hs.1
  have hlt : installs h us - 1 < (s.tokens h).length := by
    rw [hf.length_tokens]
    omega
  have htoken := List.getElem?_eq_getElem hlt
  refine ⟨_, htoken, ?_⟩
  rw [hf.slot, slotOf, if_pos hs, htoken]
  rfl

theorem slot_of_not_standing (hf : Follows us s) (hs : ¬Standing h us) : s.traps.slots.find? h = none := by
  rw [hf.slot, slotOf, if_neg hs]

/-- A token that is not the latest of its handle is for no trap. -/
theorem superseded (hf : Follows us s) {k : Nat} {token : TrapToken} (ht : (s.tokens h)[k]? = some token)
    (hk : k + 1 < installs h us) : s.traps.take token = (none, s.traps) := by
  have hh := hf.handle_eq h token (List.mem_of_getElem? ht)
  refine Traps.take_of_find?_ne fun trap htrap hgen => ?_
  rw [hh] at htrap
  by_cases hs : Standing h us
  · obtain ⟨latest, hlatest, hslot⟩ := hf.slot_of_standing hs
    rw [hslot] at htrap
    cases htrap
    obtain ⟨hlt, rfl⟩ := List.getElem?_eq_some_iff.mp ht
    obtain ⟨hlt', rfl⟩ := List.getElem?_eq_some_iff.mp hlatest
    have := List.pairwise_iff_getElem.mp (hf.increasing h) k (installs h us - 1) hlt hlt' (by omega)
    exact Nat.ne_of_gt this hgen
  · rw [hf.slot_of_not_standing hs] at htrap
    cases htrap

/-- The latest token of a handle, before it is taken, is for the trap that stands there. -/
theorem latest (hf : Follows us s) {k : Nat} {token : TrapToken} (ht : (s.tokens h)[k]? = some token)
    (hk : k + 1 = installs h us) (hn : .take h k ∉ us) :
    Standing h us ∧ s.traps.slots.find? token.handle = some ⟨token.generation, firstExitSince h us⟩ := by
  have hkeq : k = installs h us - 1 := by omega
  have hs : Standing h us := ⟨by omega, hkeq ▸ hn⟩
  obtain ⟨latest, hlatest, hslot⟩ := hf.slot_of_standing hs
  rw [← hkeq, ht] at hlatest
  cases hlatest
  rw [hf.handle_eq h token (List.mem_of_getElem? ht)]
  exact ⟨hs, hslot⟩

/-- Where nothing but the traps of one handle has changed, and no token has come. -/
theorem keep (hf : Follows us s) (hi : ∀ h, u ≠ .install h) {traps : Traps}
    (hgen : traps.generation = s.traps.generation)
    (hslot : ∀ h, traps.slots.find? h = slotOf h (u :: us) (s.tokens h)) : Follows (u :: us) { s with traps } where
  length_tokens h := by rw [installs_of_ne hi, hf.length_tokens]
  handle_eq := hf.handle_eq
  increasing := hf.increasing
  generation_le h token ht := hgen ▸ hf.generation_le h token ht
  generation_eq := by
    rw [hgen, hf.generation_eq, allInstalls, allInstalls, List.countP_cons_of_neg]
    cases u with
    | install h => exact absurd rfl (hi h)
    | _ => simp
  slot := hslot

theorem install (hf : Follows us s) (hp : Proper us) (h : Handle) :
    Follows (.install h :: us) (TrapUse.perform s (.install h)).2 := by
  have htokens (h' : Handle) : (TrapUse.perform s (.install h)).2.tokens h' =
      if h' = h then s.tokens h ++ [⟨h, s.traps.generation + 1⟩] else s.tokens h' := rfl
  have hgen : (TrapUse.perform s (.install h)).2.traps.generation = s.traps.generation + 1 := rfl
  constructor
  · intro h'
    rw [htokens, installs_install]
    by_cases hh : h' = h
    · subst hh
      simp [hf.length_tokens]
    · simp [hh, Ne.symm hh, hf.length_tokens]
  · intro h' token ht
    rw [htokens] at ht
    by_cases hh : h' = h
    · subst hh
      rw [if_pos rfl, List.mem_append, List.mem_singleton] at ht
      rcases ht with ht | rfl
      · exact hf.handle_eq h' token ht
      · rfl
    · rw [if_neg hh] at ht
      exact hf.handle_eq h' token ht
  · intro h'
    rw [htokens]
    by_cases hh : h' = h
    · subst hh
      rw [if_pos rfl, List.pairwise_append]
      refine ⟨hf.increasing h', List.pairwise_singleton .., fun a ha b hb => ?_⟩
      have := hf.generation_le h' a ha
      rw [List.mem_singleton.mp hb]
      show a.generation < s.traps.generation + 1
      omega
    · rw [if_neg hh]
      exact hf.increasing h'
  · intro h' token ht
    rw [htokens] at ht
    rw [hgen]
    by_cases hh : h' = h
    · subst hh
      rw [if_pos rfl, List.mem_append, List.mem_singleton] at ht
      rcases ht with ht | rfl
      · exact Nat.le_succ_of_le (hf.generation_le h' token ht)
      · exact Nat.le_refl _
    · rw [if_neg hh] at ht
      exact Nat.le_succ_of_le (hf.generation_le h' token ht)
  · rw [hgen, hf.generation_eq, allInstalls, allInstalls, List.countP_cons_of_pos rfl]
  · intro h'
    rw [htokens, slotOf]
    by_cases hh : h' = h
    · subst hh
      rw [if_pos (standing_install_self hp), if_pos rfl, installs_install, if_pos rfl, Nat.add_sub_cancel,
        ← hf.length_tokens h', List.getElem?_concat_length]
      show (s.traps.install h').2.slots.find? h' = _
      rw [Traps.find?_install_self]
      simp [firstExitSince, Traps.install]
    · have hslot : (s.traps.install h).2.slots.find? h' = s.traps.slots.find? h' := Traps.find?_install_of_ne hh
      rw [if_neg hh, installs_install, if_neg (Ne.symm hh), firstExitSince, if_neg (Ne.symm hh)]
      simp only [standing_install_of_ne (Ne.symm hh)]
      exact hslot.trans (hf.slot h')

theorem exit (hf : Follows us s) (h : Handle) (e : Exit) :
    Follows (.exit h e :: us) (TrapUse.perform s (.exit h e)).2 := by
  show Follows _ { s with traps := (s.traps.onExit h e).2 }
  refine hf.keep (by simp) ?_ fun h' => ?_
  · unfold Traps.onExit
    split
    · rfl
    · split
      · rfl
      · rfl
  · rw [slotOf, installs_of_ne (by simp)]
    simp only [standing_cons (u := .exit h e) (by simp) (by simp)]
    by_cases hh : h' = h
    · subst hh
      rw [Traps.find?_onExit_self, hf.slot, slotOf, firstExitSince, if_pos rfl]
      split
      · rw [Option.map_map]
        rfl
      · rfl
    · rw [Traps.find?_onExit_of_ne hh, hf.slot, slotOf, firstExitSince, if_neg (Ne.symm hh)]

/-- A question changes neither the registry nor what the history says of it. -/
theorem ask (hf : Follows us s) (hi : ∀ h, u ≠ .install h) (ht : ∀ h k, u ≠ .take h k) (he : ∀ h e, u ≠ .exit h e) :
    Follows (u :: us) s := by
  refine hf.keep hi rfl fun h => ?_
  have hexit : firstExitSince h (u :: us) = firstExitSince h us := by
    cases u with
    | install h' => exact absurd rfl (hi h')
    | exit h' e => exact absurd rfl (he h' e)
    | _ => rfl
  rw [hf.slot, slotOf, slotOf, installs_of_ne hi, hexit]
  simp only [standing_cons hi ht]

theorem take (hf : Follows us s) (h : Handle) (k : Nat) (hlt : k < installs h us) (hn : .take h k ∉ us) :
    Follows (.take h k :: us) (TrapUse.perform s (.take h k)).2 := by
  obtain ⟨token, ht⟩ : ∃ token, (s.tokens h)[k]? = some token :=
    ⟨_, List.getElem?_eq_getElem (by rw [hf.length_tokens]; exact hlt)⟩
  have hh := hf.handle_eq h token (List.mem_of_getElem? ht)
  have hperform : (TrapUse.perform s (.take h k)).2 = { s with traps := (s.traps.take token).2 } := by
    simp only [TrapUse.perform, ht]
  rw [hperform]
  by_cases hk : k + 1 = installs h us
  · -- the latest token: its trap stands, and is gone
    obtain ⟨hs, hslot⟩ := hf.latest ht hk hn
    refine hf.keep (by simp) ?_ fun h' => ?_
    · simp only [Traps.take, hslot, if_true]
    · rw [slotOf]
      by_cases hh' : h' = h
      · subst hh'
        rw [if_neg (by simp [standing_take hlt, hk]), ← hh]
        exact Traps.find?_take_self hslot
      · rw [Traps.find?_take_of_ne (by rw [hh]; exact hh'), hf.slot, slotOf, installs_of_ne (by simp)]
        simp only [standing_take hlt, Ne.symm hh', false_and, not_false_eq_true, and_true]
        rfl
  · have hstays := hf.superseded ht (by omega)
    rw [hstays]
    refine hf.keep (by simp) rfl fun h' => ?_
    rw [hf.slot, slotOf, slotOf, installs_of_ne (by simp)]
    have hiff : Standing h' (.take h k :: us) ↔ Standing h' us := by
      rw [standing_take hlt, and_iff_left_iff_imp]
      rintro - ⟨rfl, hk'⟩
      exact hk hk'
    simp only [hiff]
    rfl

end Follows

theorem follows_after (hp : Proper us) : Follows us (after us) := by
  induction us with
  | nil =>
    exact {
      length_tokens := fun _ => rfl
      handle_eq := fun _ _ ht => nomatch ht
      increasing := fun _ => List.Pairwise.nil
      generation_le := fun _ _ ht => nomatch ht
      generation_eq := rfl
      slot := fun _ => rfl }
  | cons u us ih =>
    have hf := ih hp.2
    cases u with
    | install h => exact hf.install hp.2 h
    | exit h e => exact hf.exit h e
    | unload h => exact hf.ask (by simp) (by simp) (by simp)
    | query h => exact hf.ask (by simp) (by simp) (by simp)
    | take h k => exact hf.take h k hp.1.1 hp.1.2

/-! ## Answers -/

theorem isInstalled_iff (hp : Proper us) (h : Handle) : (after us).traps.isInstalled h = true ↔ Standing h us := by
  have hf := follows_after hp
  rw [Traps.isInstalled, Table.contains_iff]
  by_cases hs : Standing h us
  · obtain ⟨token, -, hslot⟩ := hf.slot_of_standing hs
    exact iff_of_true ⟨_, hslot⟩ hs
  · refine iff_of_false ?_ hs
    rintro ⟨trap, htrap⟩
    rw [hf.slot_of_not_standing hs] at htrap
    cases htrap

theorem onExit_eq (hp : Proper us) (h : Handle) (e : Exit) :
    ((after us).traps.onExit h e).1 = if Standing h us then .trapped else .delegate := by
  have hf := follows_after hp
  by_cases hs : Standing h us
  · obtain ⟨token, -, hslot⟩ := hf.slot_of_standing hs
    rw [if_pos hs, Traps.onExit_of_some hslot]
  · rw [if_neg hs, Traps.onExit_of_none (hf.slot_of_not_standing hs)]

theorem onUnload_eq (hp : Proper us) (h : Handle) :
    (after us).traps.onUnload h = if Standing h us then some .unsupported else none := by
  rw [Traps.onUnload]
  simp only [isInstalled_iff hp]

/-- What a token collects, before it is taken. -/
theorem take_eq (hp : Proper us) {k : Nat} {token : TrapToken} (ht : ((after us).tokens h)[k]? = some token)
    (hn : .take h k ∉ us) :
    ((after us).traps.take token).1 = if k + 1 = installs h us then firstExitSince h us else none := by
  have hf := follows_after hp
  by_cases hk : k + 1 = installs h us
  · rw [if_pos hk, Traps.take_of_some (hf.latest ht hk hn).2]
  · have hlt := (List.getElem?_eq_some_iff.mp ht).1
    rw [hf.length_tokens] at hlt
    rw [if_neg hk, hf.superseded ht (by omega)]

/-- The answer that a history calls for. -/
def answer (us : List TrapUse) : TrapUse → TrapAnswer
  | .install h => .token h
  | .exit h _ => .disposition (if Standing h us then .trapped else .delegate)
  | .unload h => .refusal (if Standing h us then some .unsupported else none)
  | .query h => .installed (decide (Standing h us))
  | .take h k => .kept (if k + 1 = installs h us then firstExitSince h us else none)

theorem perform_after (hp : Proper us) (ha : Allowed us u) : (u.perform (after us)).1 = answer us u := by
  cases u with
  | install h => rfl
  | exit h e =>
    show TrapAnswer.disposition ((after us).traps.onExit h e).1 = _
    rw [onExit_eq hp, answer]
  | unload h =>
    show TrapAnswer.refusal ((after us).traps.onUnload h) = _
    rw [onUnload_eq hp, answer]
  | query h =>
    show TrapAnswer.installed ((after us).traps.isInstalled h) = _
    rw [answer, TrapAnswer.installed.injEq, Bool.eq_iff_iff, decide_eq_true_iff]
    exact isInstalled_iff hp h
  | take h k =>
    obtain ⟨token, ht⟩ : ∃ token, ((after us).tokens h)[k]? = some token :=
      ⟨_, List.getElem?_eq_getElem (by rw [(follows_after hp).length_tokens]; exact ha.1)⟩
    simp only [TrapUse.perform, ht]
    rw [take_eq hp ht ha.2, answer]

/-! ## One handle and the others -/

/-- The uses on one handle. -/
def onHandle (h : Handle) (us : List TrapUse) : List TrapUse := us.filter fun u => u.handle = h

theorem mem_onHandle : u ∈ onHandle h us ↔ u ∈ us ∧ u.handle = h := by
  simp [onHandle]

theorem installs_onHandle (h : Handle) (us : List TrapUse) : installs h (onHandle h us) = installs h us :=
  List.count_filter (by simp [TrapUse.handle])

theorem standing_onHandle : Standing h (onHandle h us) ↔ Standing h us := by
  rw [Standing, Standing, installs_onHandle, mem_onHandle]
  simp [TrapUse.handle]

theorem firstExitSince_onHandle (h : Handle) (us : List TrapUse) :
    firstExitSince h (onHandle h us) = firstExitSince h us := by
  induction us with
  | nil => rfl
  | cons u us ih =>
    rw [onHandle, List.filter_cons]
    by_cases hu : u.handle = h
    · rw [if_pos (by simpa using hu)]
      cases u <;> simp [firstExitSince, ← ih, onHandle]
    · rw [if_neg (by simpa using hu)]
      refine ih.trans ?_
      cases u with
      | install h' => exact (if_neg hu).symm
      | exit h' e => exact (if_neg hu).symm
      | _ => rfl

theorem answer_onHandle (us : List TrapUse) (u : TrapUse) : answer (onHandle u.handle us) u = answer us u := by
  cases u <;> simp only [answer, TrapUse.handle, standing_onHandle, installs_onHandle, firstExitSince_onHandle]

theorem allowed_onHandle (ha : Allowed us u) : Allowed (onHandle u.handle us) u := by
  cases u with
  | take h k =>
    refine ⟨?_, fun hm => ha.2 (mem_onHandle.mp hm).1⟩
    rw [TrapUse.handle, installs_onHandle]
    exact ha.1
  | _ => trivial

theorem proper_onHandle (hp : Proper us) (h : Handle) : Proper (onHandle h us) := by
  induction us with
  | nil => trivial
  | cons u us ih =>
    rw [onHandle, List.filter_cons]
    by_cases hu : u.handle = h
    · rw [if_pos (by simpa using hu)]
      exact ⟨hu ▸ allowed_onHandle hp.1, ih hp.2⟩
    · rw [if_neg (by simpa using hu)]
      exact ih hp.2

/-- The answers for one handle are those to the uses on that handle alone. -/
theorem answers_onHandle (hp : Proper us) (h : Handle) :
    (answers us).filter (fun a => a.1.handle = h) = answers (onHandle h us) := by
  induction us with
  | nil => rfl
  | cons u us ih =>
    have ih := ih hp.2
    rw [answers, onHandle, List.filter_cons, List.filter_cons]
    by_cases hu : u.handle = h
    · subst hu
      rw [if_pos (by simp), if_pos (by simp), answers, ih, perform_after hp.2 hp.1]
      have ha := perform_after (proper_onHandle hp.2 u.handle) (allowed_onHandle hp.1)
      rw [answer_onHandle] at ha
      exact congrArg (fun a => (u, a) :: _) ha.symm
    · rw [if_neg (by simpa using hu), if_neg (by simpa using hu)]
      exact ih

/-- After every history in which each token is taken at most once: a trap stands on a handle, exits
    there are trapped and unloads refused, exactly when the latest trap of the handle has not been
    taken. A token collects an exit exactly when it is for the latest trap of its handle and there was
    an exit since that was set, the first of them; one for an earlier trap collects nothing and changes
    nothing. The answers for a handle are those to the uses on that handle alone. Generations count the
    traps that were set, so 64 bits hold them until there are 2^64 of them. -/
theorem traps_follow_history (hp : Proper us) :
    (∀ h, (after us).traps.isInstalled h = true ↔ Standing h us) ∧
    (∀ h e, ((after us).traps.onExit h e).1 = if Standing h us then .trapped else .delegate) ∧
    (∀ h, (after us).traps.onUnload h = if Standing h us then some .unsupported else none) ∧
    (∀ h k, k < installs h us → ∃ token, ((after us).tokens h)[k]? = some token ∧ token.handle = h ∧
      (.take h k ∉ us → ∀ e, ((after us).traps.take token).1 = some e ↔
        k + 1 = installs h us ∧ firstExitSince h us = some e) ∧
      (k + 1 < installs h us → (after us).traps.take token = (none, (after us).traps))) ∧
    (∀ h, (answers us).filter (fun a => a.1.handle = h) = answers (onHandle h us)) ∧
    (after us).traps.generation = allInstalls us := by
  have hf := follows_after hp
  refine ⟨isInstalled_iff hp, onExit_eq hp, onUnload_eq hp, fun h k hk => ?_, answers_onHandle hp, hf.generation_eq⟩
  obtain ⟨token, ht⟩ : ∃ token, ((after us).tokens h)[k]? = some token :=
    ⟨_, List.getElem?_eq_getElem (by rw [hf.length_tokens]; exact hk)⟩
  refine ⟨token, ht, hf.handle_eq h token (List.mem_of_getElem? ht), fun hn e => ?_, hf.superseded ht⟩
  rw [take_eq hp ht hn]
  split <;> simp [*]

/-- Two traps on one handle, the first taken when the second stands there, and one on another. -/
def twoHandles : List TrapUse :=
  [.exit ⟨1⟩ ⟨.aborted, none⟩, .exit ⟨1⟩ ⟨.loadError, none⟩, .take ⟨1⟩ 0, .install ⟨1⟩, .exit ⟨2⟩ .success, .install ⟨2⟩,
    .exit ⟨1⟩ .success, .install ⟨1⟩]

/-- The second trap of the handle keeps the first exit since it was set, and the first token is worth
    nothing. -/
theorem twoHandles_followed : Proper twoHandles ∧ (after twoHandles).traps.isInstalled ⟨1⟩ = true ∧
    (∃ token, ((after twoHandles).tokens ⟨1⟩)[1]? = some token ∧
      ((after twoHandles).traps.take token).1 = some ⟨.loadError, none⟩) ∧
    (∃ token, ((after twoHandles).tokens ⟨1⟩)[0]? = some token ∧
      (after twoHandles).traps.take token = (none, (after twoHandles).traps)) ∧
    (answers twoHandles).filter (fun a => a.1.handle = ⟨2⟩) = answers [.exit ⟨2⟩ .success, .install ⟨2⟩] := by
  have hp : Proper twoHandles := by simp [twoHandles, Proper, Allowed, installs]
  obtain ⟨hinstalled, -, -, htokens, hanswers, -⟩ := traps_follow_history hp
  refine ⟨hp, (hinstalled _).mpr (by decide), ?_, ?_, hanswers _⟩
  · obtain ⟨token, ht, -, htake, -⟩ := htokens ⟨1⟩ 1 (by decide)
    exact ⟨token, ht, (htake (by decide) _).mpr (by decide)⟩
  · obtain ⟨token, ht, -, -, hsuperseded⟩ := htokens ⟨1⟩ 0 (by decide)
    exact ⟨token, ht, hsuperseded (by decide)⟩

end TrapHistory

end NetBoot.Image
