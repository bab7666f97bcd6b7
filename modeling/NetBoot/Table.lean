/-
  NetBoot.Table — finite maps as lists of pairs with ascending keys.

  `find?` looks a key up, `insert` puts or replaces, `erase` takes out; the order of the list is
  the order of the keys, whatever the order of the insertions. A look-up sees the last insertion
  of its key (`find?_insert_self`) and none of another one (`find?_insert_of_ne`).
-/

namespace NetBoot

structure Table (κ : Type) (ν : Type) where
  pairs : List (κ × ν) := []
  deriving Repr

namespace Table

variable {κ ν : Type}

def empty : Table κ ν := {}

instance : Inhabited (Table κ ν) := ⟨empty⟩

def size (t : Table κ ν) : Nat := t.pairs.length

def keys (t : Table κ ν) : List κ := t.pairs.map Prod.fst

def find? [BEq κ] (t : Table κ ν) (k : κ) : Option ν := t.pairs.lookup k

def contains [BEq κ] (t : Table κ ν) (k : κ) : Bool := (t.find? k).isSome

def insert [Ord κ] (t : Table κ ν) (k : κ) (v : ν) : Table κ ν := ⟨go t.pairs⟩
where
  go : List (κ × ν) → List (κ × ν)
    | [] => [(k, v)]
    | (k', v') :: r =>
      match compare k k' with
      | .lt => (k, v) :: (k', v') :: r
      | .eq => (k, v) :: r
      | .gt => (k', v') :: go r

def erase [BEq κ] (t : Table κ ν) (k : κ) : Table κ ν := ⟨t.pairs.filter fun p => !(p.1 == k)⟩

def ofList [Ord κ] (ps : List (κ × ν)) : Table κ ν := ps.foldl (fun t p => t.insert p.1 p.2) empty

@[simp] theorem find?_empty [BEq κ] (k : κ) : (empty : Table κ ν).find? k = none := rfl

theorem find?_erase_self [BEq κ] [LawfulBEq κ] (t : Table κ ν) (k : κ) : (t.erase k).find? k = none := by
  obtain ⟨ps⟩ := t
  simp only [erase, find?]
  induction ps with
  | nil => rfl
  | cons p ps ih =>
    obtain ⟨k', v'⟩ := p
    by_cases h : k' = k
    · subst h; simp [ih]
    · have h' : (k == k') = false := by simp [Ne.symm h]
      simp [h, List.lookup_cons, h', ih]

theorem find?_erase_of_ne [BEq κ] [LawfulBEq κ] (t : Table κ ν) {k k' : κ} (h : k' ≠ k) :
    (t.erase k).find? k' = t.find? k' := by
  obtain ⟨ps⟩ := t
  simp only [erase, find?]
  induction ps with
  | nil => rfl
  | cons p ps ih =>
    obtain ⟨q, v⟩ := p
    by_cases hq : q = k
    · subst hq
      have h' : (k' == q) = false := by simp [h]
      simp [List.lookup_cons, h', ih]
    · simp only [List.filter_cons, List.lookup_cons]
      have hq' : (q == k) = false := by simp [hq]
      simp only [hq', Bool.not_false, if_true, List.lookup_cons, ih]

section Insert

variable [Ord κ] [Std.LawfulEqOrd κ] [BEq κ] [LawfulBEq κ]

theorem find?_insert_self (t : Table κ ν) (k : κ) (v : ν) : (t.insert k v).find? k = some v := by
  obtain ⟨ps⟩ := t
  simp only [insert, find?]
  induction ps with
  | nil => simp [insert.go]
  | cons p ps ih =>
    obtain ⟨k', v'⟩ := p
    simp only [insert.go]
    cases h : compare k k' with
    | lt => simp
    | eq => simp
    | gt =>
      have hne : k ≠ k' := by
        rintro rfl
        rw [Std.ReflOrd.compare_self] at h
        cases h
      have h' : (k == k') = false := by simp [hne]
      simp only [List.lookup_cons, h', ih]

theorem find?_insert_of_ne (t : Table κ ν) {k k' : κ} (v : ν) (hne : k' ≠ k) :
    (t.insert k v).find? k' = t.find? k' := by
  have hk : (k' == k) = false := by simp [hne]
  obtain ⟨ps⟩ := t
  simp only [insert, find?]
  induction ps with
  | nil => simp [insert.go, hne]
  | cons p ps ih =>
    obtain ⟨q, u⟩ := p
    simp only [insert.go]
    cases h : compare k q with
    | lt => simp only [List.lookup_cons, hk]
    | eq =>
      obtain rfl := Std.LawfulEqOrd.eq_of_compare h
      simp only [List.lookup_cons, hk]
    | gt => simp only [List.lookup_cons, ih]

end Insert

/-- What an insertion leaves is the pair that was put in, and pairs that were there. -/
theorem mem_insert [Ord κ] {t : Table κ ν} {k : κ} {v : ν} {p : κ × ν} (h : p ∈ (t.insert k v).pairs) :
    p = (k, v) ∨ p ∈ t.pairs := by
  obtain ⟨ps⟩ := t
  change p ∈ insert.go k v ps at h
  induction ps with
  | nil => exact Or.inl (List.mem_singleton.mp h)
  | cons q ps ih =>
    rw [insert.go] at h
    split at h
    · exact List.mem_cons.mp h
    · exact (List.mem_cons.mp h).imp id (List.mem_cons_of_mem q)
    · rcases List.mem_cons.mp h with rfl | h
      · exact Or.inr List.mem_cons_self
      · exact (ih h).imp id (List.mem_cons_of_mem q)

theorem mem_of_find? [BEq κ] [LawfulBEq κ] {t : Table κ ν} {k : κ} {v : ν} (h : t.find? k = some v) :
    (k, v) ∈ t.pairs := by
  obtain ⟨before, behind, hpairs, -⟩ := List.lookup_eq_some_iff.mp h
  rw [hpairs]
  simp

theorem contains_iff [BEq κ] {t : Table κ ν} {k : κ} : t.contains k = true ↔ ∃ v, t.find? k = some v := by
  rw [contains, Option.isSome_iff_exists]

end Table

end NetBoot
