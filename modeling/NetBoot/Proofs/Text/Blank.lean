/-
  NetBoot.Proofs.Text.Blank — what is left of a text without its outer blanks, and names up to case.

  A text is a blank front, a trimmed middle and a blank end in one way only, and trimming gives the
  middle (`trim_eq_iff`). Two texts have the same letters when they agree place by place, up to the
  case of ASCII letters (`sameLetters_iff`).
-/

import NetBoot.Text.Blank
import Mathlib.Data.List.Forall2

namespace NetBoot.Text

variable {cs front back t : List Char}

/-! ## Trimming -/

/-- Blank from end to end. -/
def Blank (cs : List Char) : Prop := ∀ c ∈ cs, isBlank c = true

/-- Neither begins nor ends with a blank. -/
structure Trimmed (t : List Char) : Prop where
  head : ∀ c ∈ t.head?, isBlank c = false
  last : ∀ c ∈ t.getLast?, isBlank c = false

theorem Blank.nil : Blank [] := fun _ hc => absurd hc List.not_mem_nil

theorem Trimmed.nil : Trimmed [] := ⟨fun _ hc => (nomatch hc), fun _ hc => (nomatch hc)⟩

theorem Blank.not_mem {c : Char} (h : Blank cs) (hc : isBlank c = false) : c ∉ cs := fun hmem => by
  rw [h c hmem] at hc
  cases hc

theorem Blank.reverse (h : Blank cs) : Blank cs.reverse := fun c hc => h c (List.mem_reverse.1 hc)

theorem blank_takeWhile (cs : List Char) : Blank (cs.takeWhile isBlank) := by
  induction cs with
  | nil => exact Blank.nil
  | cons a cs ih =>
    rw [List.takeWhile_cons]
    split
    · next ha =>
      intro c hc
      rcases List.mem_cons.1 hc with rfl | hc
      · exact ha
      · exact ih c hc
    · exact Blank.nil

theorem dropBlank_append (h : Blank front) : dropBlank (front ++ cs) = dropBlank cs :=
  List.dropWhile_append_of_pos h

theorem dropBlank_eq_self (h : ∀ c ∈ cs.head?, isBlank c = false) : dropBlank cs = cs := by
  cases cs with
  | nil => rfl
  | cons c cs => exact List.dropWhile_cons_of_neg (by simp [h c rfl])

theorem dropBlank_head (cs : List Char) : ∀ c ∈ (dropBlank cs).head?, isBlank c = false := by
  intro c hc
  have h := List.head?_dropWhile_not isBlank cs
  rw [dropBlank, Option.mem_def] at hc
  rwa [hc] at h

/-- The end of a text is the front of the text read backwards. -/
theorem dropEndBlank_eq (cs : List Char) : dropEndBlank cs = (dropBlank cs.reverse).reverse := rfl

theorem dropEndBlank_append (h : Blank back) : dropEndBlank (cs ++ back) = dropEndBlank cs := by
  rw [dropEndBlank_eq, dropEndBlank_eq, List.reverse_append, dropBlank_append h.reverse]

theorem dropEndBlank_eq_self (h : ∀ c ∈ cs.getLast?, isBlank c = false) : dropEndBlank cs = cs := by
  rw [dropEndBlank_eq, dropBlank_eq_self (by rwa [List.head?_reverse]), List.reverse_reverse]

theorem exists_dropBlank (cs : List Char) : ∃ front, Blank front ∧ cs = front ++ dropBlank cs :=
  ⟨cs.takeWhile isBlank, blank_takeWhile cs, List.takeWhile_append_dropWhile.symm⟩

theorem exists_dropEndBlank (cs : List Char) : ∃ back, Blank back ∧ cs = dropEndBlank cs ++ back := by
  obtain ⟨front, hfront, heq⟩ := exists_dropBlank cs.reverse
  refine ⟨front.reverse, hfront.reverse, ?_⟩
  rw [dropEndBlank_eq, ← List.reverse_append, ← heq, List.reverse_reverse]

/-- A text that does not begin with a blank does not either once the blanks behind it are gone. -/
theorem trimmed_dropEndBlank (h : ∀ c ∈ cs.head?, isBlank c = false) : Trimmed (dropEndBlank cs) := by
  obtain ⟨back, -, heq⟩ := exists_dropEndBlank cs
  constructor
  · intro c hc
    refine h c ?_
    rw [heq, List.head?_append, Option.mem_def.1 hc]
    rfl
  · intro c hc
    rw [dropEndBlank_eq, List.getLast?_reverse] at hc
    exact dropBlank_head _ c hc

/-- A trimmed text comes back whole from between blanks. -/
theorem trim_surround (hfront : Blank front) (ht : Trimmed t) (hback : Blank back) :
    trim (front ++ t ++ back) = t := by
  rw [trim, List.append_assoc, dropBlank_append hfront]
  cases t with
  | nil => rw [List.nil_append, ← List.append_nil back, dropBlank_append hback]; rfl
  | cons c t =>
    have hhead : dropBlank (c :: t ++ back) = c :: t ++ back := dropBlank_eq_self ht.head
    rw [hhead, dropEndBlank_append hback, dropEndBlank_eq_self ht.last]

/-- Trimming gives the one trimmed text that the text is but for blanks at its ends. -/
theorem trim_eq_iff :
    trim cs = t ↔ Trimmed t ∧ ∃ front back, Blank front ∧ Blank back ∧ cs = front ++ t ++ back := by
  constructor
  · rintro rfl
    obtain ⟨front, hfront, heq⟩ := exists_dropBlank cs
    obtain ⟨back, hback, heq'⟩ := exists_dropEndBlank (dropBlank cs)
    refine ⟨trimmed_dropEndBlank (dropBlank_head cs), front, back, hfront, hback, ?_⟩
    rw [List.append_assoc, trim, ← heq', ← heq]
  · rintro ⟨ht, front, back, hfront, hback, rfl⟩
    exact trim_surround hfront ht hback

theorem trimmed_trim (cs : List Char) : Trimmed (trim cs) := (trim_eq_iff.1 rfl).1

theorem mem_of_mem_trim {c : Char} (h : c ∈ trim cs) : c ∈ cs := by
  obtain ⟨-, front, back, -, -, heq⟩ := trim_eq_iff.1 (Eq.refl (trim cs))
  rw [heq]
  exact List.mem_append_left _ (List.mem_append_right _ h)

theorem trim_eq_nil_iff : trim cs = [] ↔ Blank cs := by
  rw [trim_eq_iff]
  constructor
  · rintro ⟨-, front, back, hfront, hback, rfl⟩ c hc
    rw [List.append_nil] at hc
    exact (List.mem_append.1 hc).elim (hfront c) (hback c)
  · intro h
    exact ⟨Trimmed.nil, cs, [], h, Blank.nil, by rw [List.append_nil, List.append_nil]⟩

theorem trim_append_blank (h : Blank back) : trim (cs ++ back) = trim cs := by
  obtain ⟨ht, front, back', hfront, hback', heq⟩ := trim_eq_iff.1 (Eq.refl (trim cs))
  refine trim_eq_iff.2 ⟨ht, front, back' ++ back, hfront, ?_, by rw [← List.append_assoc, ← heq]⟩
  exact fun c hc => (List.mem_append.1 hc).elim (hback' c) (h c)

theorem trim_dropEndBlank (cs : List Char) : trim (dropEndBlank cs) = trim cs := by
  obtain ⟨back, hback, heq⟩ := exists_dropEndBlank cs
  rw [← trim_append_blank hback, ← heq]

theorem trim_dropBlank (cs : List Char) : trim (dropBlank cs) = trim cs := by
  rw [trim, trim, dropBlank_eq_self (dropBlank_head cs)]

/-! ### Around a character that is not blank -/

section

variable {c : Char}

theorem dropBlank_append_cons (hc : isBlank c = false) (before behind : List Char) :
    dropBlank (before ++ c :: behind) = dropBlank before ++ c :: behind := by
  rw [dropBlank, List.dropWhile_append, List.dropWhile_cons_of_neg (by simp [hc])]
  split
  · next h => rw [dropBlank, List.isEmpty_iff.1 h, List.nil_append]
  · rfl

theorem dropEndBlank_append_cons (hc : isBlank c = false) (before behind : List Char) :
    dropEndBlank (before ++ c :: behind) = before ++ c :: dropEndBlank behind := by
  rw [dropEndBlank_eq, dropEndBlank_eq, List.reverse_append, List.reverse_cons, List.append_assoc,
    List.singleton_append, dropBlank_append_cons hc]
  simp only [List.reverse_append, List.reverse_cons, List.reverse_reverse, List.append_assoc, List.singleton_append]

theorem trim_append_cons (hc : isBlank c = false) (before behind : List Char) :
    trim (before ++ c :: behind) = dropBlank before ++ c :: dropEndBlank behind := by
  rw [trim, dropBlank_append_cons hc, dropEndBlank_append_cons hc]

/-- The blanks at the end do not decide how a trimmed text begins. -/
theorem head?_trim (cs : List Char) : (trim cs).head? = (dropBlank cs).head? := by
  rw [trim]
  cases h : dropBlank cs with
  | nil => rfl
  | cons d ds =>
    have hd : isBlank d = false := dropBlank_head cs d (by rw [h]; rfl)
    rw [← List.nil_append (d :: ds), dropEndBlank_append_cons hd]
    rfl

theorem head?_trim_eq_some_iff (hc : isBlank c = false) :
    (trim cs).head? = some c ↔ ∃ front rest, Blank front ∧ cs = front ++ c :: rest := by
  rw [head?_trim]
  constructor
  · intro h
    obtain ⟨front, hfront, heq⟩ := exists_dropBlank cs
    obtain ⟨rest, hrest⟩ := List.head?_eq_some_iff.1 h
    exact ⟨front, rest, hfront, by rw [heq, hrest]⟩
  · rintro ⟨front, rest, hfront, rfl⟩
    rw [dropBlank_append hfront, ← List.nil_append (c :: rest), dropBlank_append_cons hc]
    rfl

end

/-! ## Lines -/

/-- What is made of each line on its own, and not of an empty line or of the end of a line, comes from the pieces
    between the line feeds. -/
theorem filterMap_lines {α : Type} {f : List Char → Option α} (hnil : f [] = none)
    (hreturn : ∀ l, f (lines.dropReturn l) = f l) (cs : List Char) :
    (lines cs).filterMap f = (cs.splitOn '\n').filterMap f := by
  have hcomp : f ∘ lines.dropReturn = f := funext hreturn
  rw [lines]
  cases h : (cs.splitOn '\n').reverse with
  | nil =>
    rw [List.reverse_eq_nil_iff.1 h]
  | cons last before =>
    rw [List.reverse_eq_cons_iff.1 h, List.filterMap_append]
    dsimp only
    split
    · next hlast =>
      rw [List.isEmpty_iff.1 hlast, List.filterMap_map, hcomp, List.filterMap_cons_none hnil, List.filterMap_nil,
        List.append_nil]
    · rw [List.filterMap_append, List.filterMap_map, hcomp]

theorem trim_dropReturn (l : List Char) : trim (lines.dropReturn l) = trim l := by
  rw [lines.dropReturn]
  split
  · next h =>
    obtain ⟨l', rfl⟩ := List.getLast?_eq_some_iff.1 h
    rw [List.dropLast_concat, trim_append_blank fun c hc => List.mem_singleton.1 hc ▸ rfl]
  · rfl

/-! ## Letters up to case -/

/-- The same character, or a letter of the ASCII alphabet once capital and once small. -/
def SameLetter (c d : Char) : Prop :=
  c = d ∨ (c.isUpper ∧ d.toNat = c.toNat + 32) ∨ (d.isUpper ∧ c.toNat = d.toNat + 32)

theorem isUpper_iff {c : Char} : c.isUpper = true ↔ 65 ≤ c.toNat ∧ c.toNat ≤ 90 := decide_eq_true_iff

theorem toNat_toLower (c : Char) : c.toLower.toNat = if c.isUpper then c.toNat + 32 else c.toNat := by
  by_cases hc : c.isUpper = true
  · obtain ⟨hlow, hhigh⟩ := isUpper_iff.1 hc
    have hlower : c.toLower.val = c.val + 32 := congrArg Char.val (dif_pos (of_decide_eq_true hc))
    rw [Char.toNat] at hhigh
    rw [if_pos hc, Char.toNat, Char.toNat, hlower, UInt32.toNat_add, show (32 : UInt32).toNat = 32 from rfl,
      Nat.mod_eq_of_lt (by omega)]
  · have hlower : c.toLower = c := dif_neg fun h => hc (decide_eq_true h)
    rw [if_neg hc, hlower]

theorem toLower_eq_iff {c d : Char} : c.toLower = d.toLower ↔ SameLetter c d := by
  rw [← Char.toNat_inj, toNat_toLower, toNat_toLower, SameLetter, ← Char.toNat_inj]
  simp only [isUpper_iff]
  split <;> split <;> omega

theorem sameLetters_iff {a b : List Char} : sameLetters a b = true ↔ List.Forall₂ SameLetter a b := by
  rw [sameLetters, beq_iff_eq, ← List.forall₂_eq_eq_eq, List.forall₂_map_left_iff, List.forall₂_map_right_iff]
  simp only [toLower_eq_iff]

end NetBoot.Text
