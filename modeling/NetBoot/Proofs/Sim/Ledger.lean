/-
  NetBoot.Proofs.Sim.Ledger — which pages are live, and who has to give them back.

  Pages are handed out upwards and never again, so each run of pages is known by its base. The events
  of a machine tell which runs were taken and which were given. `Ledger w held now` balances them
  from `w` to `now`: what was taken is what was given and what is still held, no base was taken twice,
  and the live allocations are those of `w` and those held. Taking pages enters a run, and giving back
  one that is held succeeds and strikes it out (`Books.allocate`, `Books.free`); so a computation whose
  books are kept ends as it should without being cut off.
-/

import NetBoot.Proofs.Sim.Services

namespace NetBoot.Sim

open scoped List

/-- A run of pages: where it starts, and how many there are. -/
abbrev PageRun := Address × Nat

namespace Event

/-- The run of pages that is taken. -/
def taken? : Event → Option PageRun
  | .allocatePages pages (.ok base) => some (base, pages)
  | _ => none

/-- The run of pages that is given back. -/
def given? : Event → Option PageRun
  | .freePages base pages => some (base, pages)
  | _ => none

/-- Does it tell nothing of pages? -/
def IsQuiet (e : Event) : Prop := e.taken? = none ∧ e.given? = none

end Event

def taken (es : List Event) : List PageRun := es.filterMap Event.taken?

def given (es : List Event) : List PageRun := es.filterMap Event.given?

theorem taken_append (es es' : List Event) : taken (es ++ es') = taken es ++ taken es' := List.filterMap_append

theorem given_append (es es' : List Event) : given (es ++ es') = given es ++ given es' := List.filterMap_append

theorem taken_of_quiet {es : List Event} (h : ∀ e ∈ es, e.IsQuiet) : taken es = [] :=
  List.filterMap_eq_nil_iff.mpr fun e he => (h e he).1

theorem given_of_quiet {es : List Event} (h : ∀ e ∈ es, e.IsQuiet) : given es = [] :=
  List.filterMap_eq_nil_iff.mpr fun e he => (h e he).2

variable {α β : Type} {w w' now later : World} {held : List PageRun}

/-- Live pages lie below those that are handed out next. -/
def PagesBelow (w : World) : Prop :=
  ∀ base pages, w.allocations.find? base = some pages → base.toNat < w.memory.next.toNat

structure Ledger (w : World) (held : List PageRun) (now : World) : Prop where
  below : PagesBelow w
  le : w.memory.next.toNat ≤ now.memory.next.toNat
  live (base : Address) : now.allocations.find? base = (held.lookup base).or (w.allocations.find? base)
  events : ∃ es, Noted es w now ∧ (given es ++ held).Perm (taken es) ∧ ((taken es).map Prod.fst).Nodup ∧
    ∀ run ∈ taken es, w.memory.next.toNat ≤ run.1.toNat ∧ run.1.toNat < now.memory.next.toNat

/-- Behind a request the next pages are those behind what it got. -/
theorem takePages_next {pages : Nat} {base : Address} {memory : Memory}
    (h : takePages w pages = .ok (base, memory)) : base = w.memory.next ∧ base.toNat < memory.next.toNat := by
  refine ⟨(takePages_eq_ok h).1, ?_⟩
  simp only [takePages, need_bind_eq_ok_iff] at h
  obtain ⟨⟨-, hpages⟩, -, h⟩ := h
  unfold Memory.take? at h
  dsimp only at h
  split at h
  · cases h
  · rename_i hend
    cases h
    have hlt : memoryEnd.toNat < UInt64.size := memoryEnd.toNat_lt
    have hpos : 0 < pages * pageSize := Nat.mul_pos (Nat.pos_of_ne_zero hpages) (by decide)
    rw [UInt64.toNat_ofNat_of_lt' (by omega)]
    omega

/-! ## What leaves pages alone -/

/-- Nothing has happened to pages. -/
structure SamePages (w w' : World) : Prop where
  allocations : w'.allocations = w.allocations
  next : w'.memory.next = w.memory.next
  events : Emits Event.IsQuiet w w'

theorem SamePages.ordered : Ordered SamePages where
  refl _ := ⟨rfl, rfl, .of_eq rfl⟩
  trans h h' := ⟨h'.allocations.trans h.allocations, h'.next.trans h.next, h.events.trans h'.events⟩

/-- Of runs with different bases, a base finds its own. -/
theorem lookup_of_mem {run : PageRun} (hn : (held.map Prod.fst).Nodup) (h : run ∈ held) :
    held.lookup run.1 = some run.2 := by
  induction held with
  | nil => exact nomatch h
  | cons first held ih =>
    obtain ⟨hfirst, hn⟩ := List.nodup_cons.mp hn
    rcases List.mem_cons.mp h with rfl | h
    · exact List.lookup_cons_self
    · have hne : run.1 ≠ first.1 := fun he => hfirst (he ▸ List.mem_map_of_mem h)
      rw [List.lookup_cons, beq_false_of_ne hne]
      exact ih hn h

namespace Ledger

theorem start (h : PagesBelow w) : Ledger w [] w where
  below := h
  le := Nat.le_refl _
  live _ := rfl
  events := ⟨[], .nil rfl, .nil, .nil, fun _ h => nomatch h⟩

theorem quiet (h : Ledger w held now) (hs : SamePages now later) : Ledger w held later := by
  obtain ⟨es, hn, hperm, hnodup, hbounds⟩ := h.events
  obtain ⟨es', hn', hquiet⟩ := hs.events
  have htaken : taken (es ++ es') = taken es := by rw [taken_append, taken_of_quiet hquiet, List.append_nil]
  have hgiven : given (es ++ es') = given es := by rw [given_append, given_of_quiet hquiet, List.append_nil]
  exact {
    below := h.below
    le := by rw [hs.next]; exact h.le
    live := fun base => by rw [hs.allocations]; exact h.live base
    events := ⟨es ++ es', hn.trans hn', by rw [htaken, hgiven]; exact hperm, by rw [htaken]; exact hnodup,
      by rw [htaken, hs.next]; exact hbounds⟩ }

/-- What is held was taken from fresh pages, each run once, and has not been given back. -/
theorem held_fresh (h : Ledger w held now) :
    (∀ run ∈ held, w.memory.next.toNat ≤ run.1.toNat) ∧ (held.map Prod.fst).Nodup ∧
      ∃ es, Noted es w now ∧ ∀ run ∈ held, run ∉ given es := by
  obtain ⟨es, hn, hperm, hnodup, hbounds⟩ := h.events
  have hnodup := (hperm.map Prod.fst).nodup_iff.mpr hnodup
  rw [List.map_append, List.nodup_append] at hnodup
  refine ⟨fun run hrun => (hbounds run (hperm.subset (List.mem_append_right _ hrun))).1, hnodup.2.1, es, hn, ?_⟩
  exact fun run hrun hgiven => hnodup.2.2 _ (List.mem_map_of_mem hgiven) _ (List.mem_map_of_mem hrun) rfl

/-- Every run of pages that is held is live. -/
theorem find?_held {run : PageRun} (h : Ledger w held now) (hrun : run ∈ held) :
    now.allocations.find? run.1 = some run.2 := by
  rw [h.live, lookup_of_mem h.held_fresh.2.1 hrun]
  rfl

/-- With nothing held, everything that was taken has been given back. -/
theorem settled (h : Ledger w [] now) :
    (∀ base, now.allocations.find? base = w.allocations.find? base) ∧ PagesBelow now ∧
      ∃ es, Noted es w now ∧ (given es).Perm (taken es) ∧ ((taken es).map Prod.fst).Nodup := by
  obtain ⟨es, hn, hperm, hnodup, -⟩ := h.events
  rw [List.append_nil] at hperm
  refine ⟨h.live, fun base pages hf => ?_, es, hn, hperm, hnodup⟩
  rw [h.live] at hf
  exact Nat.lt_of_lt_of_le (h.below base pages hf) h.le

end Ledger

/-! ## Books -/

/-- The computation has a value whenever these runs of pages are held, and then those. -/
def Books (w : World) (held : List PageRun) (x : Sim α) (held' : α → List PageRun) : Prop :=
  ∀ now, Ledger w held now → ∃ a later, x now = .ok a later ∧ Ledger w (held' a) later

namespace Books

theorem quiet {x : Sim α} (hx : Total SamePages x) : Books w held x fun _ => held := by
  intro now h
  obtain ⟨a, later, hr, hs⟩ := hx now
  exact ⟨a, later, hr, h.quiet hs⟩

theorem pure (a : α) {held' : α → List PageRun} (h : held' a = held) : Books w held (Pure.pure a) held' := by
  intro now hl
  exact ⟨a, now, rfl, h ▸ hl⟩

theorem bind {x : Sim α} {f : α → Sim β} {mid : α → List PageRun} {held' : β → List PageRun}
    (hx : Books w held x mid) (hf : ∀ a, Books w (mid a) (f a) held') : Books w held (x >>= f) held' := by
  intro now h
  obtain ⟨a, w₁, hr, h₁⟩ := hx now h
  obtain ⟨b, w₂, hr', h₂⟩ := hf a w₁ h₁
  exact ⟨b, w₂, by rw [bind_of_ok hr, hr'], h₂⟩

/-- The run of pages that a request got. -/
def got (pages : Nat) : Except ServiceError Address → List PageRun
  | .ok base => [(base, pages)]
  | .error _ => []

theorem allocate (pages : Nat) : Books w held (allocatePages pages) fun r => got pages r ++ held := by
  intro now h
  rcases allocatePages_run pages now with ⟨e, -, hr⟩ | ⟨base, memory, ht, log, hr⟩
  · exact ⟨_, _, hr, h.quiet ⟨rfl, rfl, .of_push rfl ⟨rfl, rfl⟩⟩⟩
  · obtain ⟨rfl, hlt⟩ := takePages_next ht
    obtain ⟨es, hn, hperm, hnodup, hbounds⟩ := h.events
    have htaken : taken (es ++ [.allocatePages pages (.ok now.memory.next)]) = taken es ++ [(now.memory.next, pages)] :=
      taken_append ..
    have hgiven : given (es ++ [.allocatePages pages (.ok now.memory.next)]) = given es :=
      (given_append ..).trans (List.append_nil _)
    refine ⟨_, _, hr, ?_⟩
    exact {
      below := h.below
      le := Nat.le_trans h.le (Nat.le_of_lt hlt)
      live := fun b => by
        show _ = (List.lookup b ((now.memory.next, pages) :: held)).or _
        by_cases hb : b = now.memory.next
        · rw [hb, Table.find?_insert_self, List.lookup_cons_self]
          rfl
        · rw [Table.find?_insert_of_ne _ _ hb, h.live b, List.lookup_cons, beq_false_of_ne hb]
      events := by
        refine ⟨_, hn.trans (.push rfl), ?_, ?_, ?_⟩
        · rw [htaken, hgiven]
          calc given es ++ ([(now.memory.next, pages)] ++ held)
            _ ~ (now.memory.next, pages) :: (given es ++ held) := List.perm_middle
            _ ~ (now.memory.next, pages) :: taken es := hperm.cons _
            _ ~ taken es ++ [(now.memory.next, pages)] := (List.perm_append_singleton _ _).symm
        · rw [htaken, List.map_append, List.nodup_append]
          refine ⟨hnodup, List.nodup_cons.mpr ⟨List.not_mem_nil, List.nodup_nil⟩, ?_⟩
          intro b hb c hc
          obtain ⟨run, hrun, rfl⟩ := List.mem_map.mp hb
          rw [List.map_singleton, List.mem_singleton] at hc
          rintro rfl
          have := (hbounds run hrun).2
          rw [hc] at this
          exact Nat.lt_irrefl _ this
        · rw [htaken]
          intro run hrun
          rcases List.mem_append.mp hrun with hrun | hrun
          · exact ⟨(hbounds run hrun).1, Nat.lt_trans (hbounds run hrun).2 hlt⟩
          · rw [List.mem_singleton.mp hrun]
            exact ⟨h.le, hlt⟩ }

theorem free (run : PageRun) : Books w (run :: held) (freePages run.1 run.2) fun _ => held := by
  intro now h
  obtain ⟨hge, hheld, -⟩ := h.held_fresh
  have hge := hge run (List.mem_cons_self ..)
  have hnotin := (List.nodup_cons.mp hheld).1
  refine ⟨(), _, freePages_of_live (h.find?_held (List.mem_cons_self ..)), ?_⟩
  obtain ⟨es, hn, hperm, hnodup, hbounds⟩ := h.events
  have htaken : taken (es ++ [.freePages run.1 run.2]) = taken es := (taken_append ..).trans (List.append_nil _)
  have hgiven : given (es ++ [.freePages run.1 run.2]) = given es ++ [run] := given_append ..
  exact {
    below := h.below
    le := h.le
    live := fun b => by
      by_cases hb : b = run.1
      · have hheld : held.lookup b = none := by
          rw [List.lookup_eq_none_iff]
          intro p hp
          rw [hb, bne_iff_ne]
          exact fun he => hnotin (he ▸ List.mem_map_of_mem hp)
        have hold : w.allocations.find? b = none := by
          refine Option.eq_none_iff_forall_ne_some.mpr fun pages hf => ?_
          have := h.below b pages hf
          rw [hb] at this
          omega
        rw [hheld, hold, hb, Table.find?_erase_self]
        rfl
      · rw [Table.find?_erase_of_ne _ hb, h.live b, List.lookup_cons, beq_false_of_ne hb]
    events := by
      refine ⟨_, hn.trans (.push rfl), ?_, by rw [htaken]; exact hnodup, by rw [htaken]; exact hbounds⟩
      rw [htaken, hgiven, List.append_assoc]
      exact hperm }

end Books

end NetBoot.Sim
