/-
  NetBoot.Proofs.Grouping — a list put into groups by a key.

  A table takes the elements of a list one by one, each behind those of its key (`Table.group`). Then its
  keys ascend, and each of them has the elements of the list that go with it, in their order
  (`Table.pairs_group`). So the groups one behind the other are the list sorted by the key, where elements
  of one key keep their order (`Table.flatMap_keys_group`).
-/

import Mathlib.Data.List.Induction
import NetBoot.Table

namespace NetBoot

/-! ## Sorting by a key -/

section Sorting

variable {α : Type} {key : α → UInt32}

theorem filter_key_eq_nil {l : List α} {k : UInt32} (h : ¬∃ a ∈ l, key a = k) : l.filter (key · = k) = [] := by
  rw [List.filter_eq_nil_iff]
  intro a ha heq
  exact h ⟨a, ha, of_decide_eq_true heq⟩

/-- The elements of one key among those of another. -/
theorem filter_filter_key (l : List α) (k k' : UInt32) :
    (l.filter (key · = k')).filter (key · = k) = if k' = k then l.filter (key · = k) else [] := by
  rw [List.filter_filter]
  split
  · rename_i heq
    simp [heq]
  · rename_i hne
    rw [List.filter_eq_nil_iff]
    intro a _ hboth
    simp only [Bool.and_eq_true, decide_eq_true_eq] at hboth
    exact hne (hboth.2.symm.trans hboth.1)

/-- Two lists sorted by a key are equal if they hold the same elements of each key, in the same order. -/
theorem eq_of_sorted_of_filter {l l' : List α} (hl : l.Pairwise (key · ≤ key ·)) (hl' : l'.Pairwise (key · ≤ key ·))
    (h : ∀ k, l.filter (key · = k) = l'.filter (key · = k)) : l = l' := by
  induction l generalizing l' with
  | nil =>
    cases l' with
    | nil => rfl
    | cons b l' => simpa using h (key b)
  | cons a l ih =>
    cases l' with
    | nil => simpa using h (key a)
    | cons b l' =>
      obtain ⟨ha, hrest⟩ := List.pairwise_cons.mp hl
      obtain ⟨hb, hrest'⟩ := List.pairwise_cons.mp hl'
      have hmem (x : α) : x ∈ a :: l ↔ x ∈ b :: l' := by
        have hx := congrArg (x ∈ ·) (h (key x))
        simpa using hx
      -- Each head is among the elements of the other list, so neither key is below the other one.
      have hab : key a ≤ key b := by
        rcases List.mem_cons.mp ((hmem b).mpr List.mem_cons_self) with heq | hin
        · exact heq ▸ UInt32.le_refl _
        · exact ha b hin
      have hba : key b ≤ key a := by
        rcases List.mem_cons.mp ((hmem a).mp List.mem_cons_self) with heq | hin
        · exact heq ▸ UInt32.le_refl _
        · exact hb a hin
      have hkey : key a = key b := UInt32.le_antisymm hab hba
      have hhead := h (key b)
      rw [List.filter_cons_of_pos (by simpa using hkey), List.filter_cons_of_pos (by simp), List.cons.injEq] at hhead
      obtain ⟨rfl, htail⟩ := hhead
      congr 1
      refine ih hrest hrest' fun k => ?_
      by_cases hk : key a = k
      · rw [← hk]
        exact htail
      · have hboth := h k
        rwa [List.filter_cons_of_neg (by simpa using hk), List.filter_cons_of_neg (by simpa using hk)] at hboth

theorem key_le_trans (a b c : α) (hab : decide (key a ≤ key b) = true) (hbc : decide (key b ≤ key c) = true) :
    decide (key a ≤ key c) = true :=
  decide_eq_true (UInt32.le_trans (of_decide_eq_true hab) (of_decide_eq_true hbc))

theorem key_le_total (a b : α) : (decide (key a ≤ key b) || decide (key b ≤ key a)) = true := by
  simpa using UInt32.le_total (key a) (key b)

/-- The elements of one key are sorted by it. -/
theorem pairwise_filter_key (l : List α) (k : UInt32) : (l.filter (key · = k)).Pairwise (key · ≤ key ·) := by
  refine List.pairwise_of_forall_mem_list ?_
  intro a ha b hb
  simp only [List.mem_filter, decide_eq_true_eq] at ha hb
  rw [ha.2, hb.2]
  exact UInt32.le_refl k

theorem pairwise_mergeSort_key (l : List α) : (l.mergeSort (key · ≤ key ·)).Pairwise (key · ≤ key ·) :=
  (List.pairwise_mergeSort key_le_trans key_le_total l).imp fun h => of_decide_eq_true h

/-- Sorting by a key keeps the order of the elements of one key. -/
theorem filter_mergeSort (l : List α) (k : UInt32) :
    (l.mergeSort (key · ≤ key ·)).filter (key · = k) = l.filter (key · = k) := by
  have hsame : (l.filter (key · = k)).Pairwise fun a b => decide (key a ≤ key b) = true :=
    (pairwise_filter_key l k).imp fun h => decide_eq_true h
  have hsub := (List.sublist_mergeSort key_le_trans key_le_total hsame List.filter_sublist).filter (key · = k)
  simp only [List.filter_filter, Bool.and_self] at hsub
  exact (hsub.eq_of_length ((List.mergeSort_perm l _).filter _).length_eq.symm).symm

end Sorting

namespace Table

/-! ## Ascending keys -/

section Ascending

variable {ν : Type} {t : Table UInt32 ν}

/-- The keys ascend, each below those behind it. -/
def Ascending (t : Table UInt32 ν) : Prop := t.pairs.Pairwise (·.1 < ·.1)

theorem ascending_insert (h : t.Ascending) (k : UInt32) (v : ν) : (t.insert k v).Ascending := by
  obtain ⟨ps⟩ := t
  change ps.Pairwise (·.1 < ·.1) at h
  change (insert.go k v ps).Pairwise (·.1 < ·.1)
  induction ps with
  | nil => exact List.pairwise_singleton _ _
  | cons q ps ih =>
    obtain ⟨hq, hps⟩ := List.pairwise_cons.mp h
    rw [insert.go]
    split
    · rename_i hlt
      have hlt := Std.compare_eq_lt.mp hlt
      refine List.pairwise_cons.mpr ⟨?_, h⟩
      intro p hp
      rcases List.mem_cons.mp hp with rfl | hp
      · exact hlt
      · exact UInt32.lt_trans hlt (hq p hp)
    · rename_i heq
      rw [Std.LawfulEqOrd.eq_of_compare heq]
      exact List.pairwise_cons.mpr ⟨hq, hps⟩
    · rename_i hgt
      refine List.pairwise_cons.mpr ⟨?_, ih hps⟩
      intro p hp
      rcases mem_insert hp with rfl | hp
      · exact Std.compare_eq_gt.mp hgt
      · exact hq p hp

/-- Where the keys ascend, a pair of the table is what a look-up finds. -/
theorem find?_of_mem (h : t.Ascending) {k : UInt32} {v : ν} (hmem : (k, v) ∈ t.pairs) : t.find? k = some v := by
  obtain ⟨l, l', hpairs⟩ := List.append_of_mem hmem
  rw [Ascending, hpairs] at h
  refine List.lookup_eq_some_iff.mpr ⟨l, l', hpairs, ?_⟩
  intro p hp
  have hlt : p.1 < k := (List.pairwise_append.mp h).2.2 p hp (k, v) List.mem_cons_self
  exact bne_iff_ne.mpr (UInt32.ne_of_lt hlt).symm

theorem mem_keys_iff {k : UInt32} : k ∈ t.keys ↔ (t.find? k).isSome := by
  rw [keys, find?, List.mem_map]
  cases hfind : t.pairs.lookup k with
  | none =>
    have hnone := List.lookup_eq_none_iff.mp hfind
    simp only [Option.isSome_none, Bool.false_eq_true, iff_false]
    rintro ⟨p, hp, rfl⟩
    simpa using hnone p hp
  | some v =>
    obtain ⟨l, l', hpairs, -⟩ := List.lookup_eq_some_iff.mp hfind
    exact ⟨fun _ => rfl, fun _ => ⟨(k, v), by simp [hpairs], rfl⟩⟩

end Ascending

/-! ## Groups -/

section Group

variable {α β : Type} {key : α → UInt32} {f : α → β}

/-- The elements of a list under their keys. -/
def group (key : α → UInt32) (f : α → β) (l : List α) : Table UInt32 (List β) :=
  l.foldl (fun t a => t.insert (key a) ((t.find? (key a)).getD [] ++ [f a])) empty

theorem group_concat (l : List α) (a : α) :
    group key f (l ++ [a]) = (group key f l).insert (key a) (((group key f l).find? (key a)).getD [] ++ [f a]) := by
  rw [group, List.foldl_append]
  rfl

theorem ascending_group (l : List α) : (group key f l).Ascending := by
  induction l using List.reverseRecOn with
  | nil => exact List.Pairwise.nil
  | append_singleton l a ih =>
    rw [group_concat]
    exact ascending_insert ih _ _

theorem find?_group (l : List α) (k : UInt32) :
    (group key f l).find? k = if ∃ a ∈ l, key a = k then some ((l.filter (key · = k)).map f) else none := by
  induction l using List.reverseRecOn with
  | nil => simp [group]
  | append_singleton l a ih =>
    rw [group_concat]
    by_cases hk : key a = k
    · have hbefore : ((group key f l).find? k).getD [] = (l.filter (key · = k)).map f := by
        rw [ih]
        split
        · rfl
        · rename_i hnone
          rw [filter_key_eq_nil hnone]
          rfl
      rw [hk, find?_insert_self, hbefore, if_pos ⟨a, by simp, hk⟩]
      simp [hk]
    · rw [find?_insert_of_ne _ _ (Ne.symm hk), ih]
      simp [hk]

theorem mem_keys_group {l : List α} {k : UInt32} : k ∈ (group key f l).keys ↔ ∃ a ∈ l, key a = k := by
  rw [mem_keys_iff, find?_group]
  split <;> simp [*]

/-- Under each key stand the elements that have it, in their order. -/
theorem pairs_group (l : List α) :
    (group key f l).pairs = (group key f l).keys.map fun k => (k, (l.filter (key · = k)).map f) := by
  rw [keys, List.map_map]
  refine (List.map_id _).symm.trans (List.map_congr_left ?_)
  intro p hp
  have hfind := find?_of_mem (ascending_group l) hp
  rw [find?_group] at hfind
  split at hfind
  · exact Prod.ext rfl (Option.some_inj.mp hfind).symm
  · cases hfind

/-- The elements of one key are those of its own group. -/
theorem flatMap_single {c : List α} {ks : List UInt32} {k : UInt32} (hks : ks.Pairwise (· < ·)) (h : k ∈ ks ∨ c = []) :
    (ks.flatMap fun k' => if k' = k then c else []) = c := by
  induction ks with
  | nil =>
    rcases h with hmem | hnil
    · cases hmem
    · exact hnil.symm
  | cons k' ks ih =>
    obtain ⟨hk', hks⟩ := List.pairwise_cons.mp hks
    rw [List.flatMap_cons]
    by_cases heq : k' = k
    · have hrest : (ks.flatMap fun k'' => if k'' = k then c else []) = [] := by
        rw [List.flatMap_eq_nil_iff]
        intro k'' hmem
        rw [if_neg]
        rw [← heq]
        exact (UInt32.ne_of_lt (hk' k'' hmem)).symm
      rw [if_pos heq, hrest, List.append_nil]
    · rw [if_neg heq, List.nil_append]
      exact ih hks (h.imp (fun hmem => (List.mem_cons.mp hmem).resolve_left (Ne.symm heq)) id)

/-- The groups one behind the other are the list sorted by the key. -/
theorem flatMap_keys_group (l : List α) :
    ((group key f l).keys.flatMap fun k => l.filter (key · = k)) = l.mergeSort (key · ≤ key ·) := by
  have hkeys : (group key f l).keys.Pairwise (· < ·) := List.pairwise_map.mpr (ascending_group l)
  have hsorted : ((group key f l).keys.flatMap fun k => l.filter (key · = k)).Pairwise (key · ≤ key ·) := by
    refine List.pairwise_flatMap.mpr ⟨fun k _ => pairwise_filter_key l k, hkeys.imp ?_⟩
    intro k k' hlt a ha b hb
    simp only [List.mem_filter, decide_eq_true_eq] at ha hb
    rw [ha.2, hb.2]
    exact UInt32.le_of_lt hlt
  refine eq_of_sorted_of_filter hsorted (pairwise_mergeSort_key l) fun k => ?_
  rw [filter_mergeSort, List.filter_flatMap]
  simp only [filter_filter_key]
  refine flatMap_single hkeys ?_
  by_cases hex : ∃ a ∈ l, key a = k
  · exact Or.inl (mem_keys_group.mpr hex)
  · exact Or.inr (filter_key_eq_nil hex)

end Group

end Table

end NetBoot
