/-
  NetBoot.Proofs.Image.Truncation — parsing the front of a file.

  The front of a file holds the bytes of the whole at the same places, as far as it goes, so a parser
  that reads by position finds in it what it finds in the whole, or runs into its end. Each step of
  `Header.parse` asks whether the file goes far enough before it looks at what stands there, so
  parsing the front has the outcome of parsing the whole, error or header, unless it is truncated
  (`parse_front`). A file that can be parsed is therefore never taken for another one when some of it
  is missing or when something stands behind it.
-/

import NetBoot.Image.Sample
import NetBoot.Proofs.Image.Strict.Header

namespace NetBoot.Image

variable {α β : Type}

/-- The outcome for the front of a file is that for the whole, unless the front ends too early. -/
def CutShort (front whole : Except LoadError α) : Prop := front = .error .truncatedImage ∨ front = whole

namespace CutShort

variable {front whole : α → Except LoadError β}

/-- A step that both take alike. -/
theorem bind {x : Except LoadError α} (h : ∀ a, x = .ok a → CutShort (front a) (whole a)) :
    CutShort (x >>= front) (x >>= whole) := by
  cases x with
  | error e => exact .inr rfl
  | ok a => exact h a rfl

/-- The front has to go as far as the step says. If it does, so does the whole. -/
theorem room {p q : Prop} [Decidable p] [Decidable q] {front whole : Unit → Except LoadError β} (hpq : p → q)
    (h : p → CutShort (front ()) (whole ())) :
    CutShort (need p .truncatedImage >>= front) (need q .truncatedImage >>= whole) := by
  by_cases hp : p
  · simp only [need, hp, hpq hp, if_true]
    exact h hp
  · simp only [need, hp, if_false]
    exact .inl rfl

/-- What the front holds, the whole holds too. -/
theorem read {o o' : Option α} (ho : ∀ a, o = some a → o' = some a)
    (h : ∀ a, o = some a → CutShort (front a) (whole a)) :
    CutShort (demand o .truncatedImage >>= front) (demand o' .truncatedImage >>= whole) := by
  cases hv : o with
  | none => exact .inl rfl
  | some a =>
    rw [ho a hv]
    exact h a hv

end CutShort

/-! ## Reading in the front of a file -/

section Front

variable {raw : Bytes} {len pos : Nat}

theorem u16At?_front (h : pos + 2 ≤ len) (hlen : len ≤ raw.size) :
    Bytes.u16At? (raw.extract 0 len) pos = raw.u16At? pos := by
  rw [Bytes.u16At?_extract (by omega) hlen, Nat.zero_add]

theorem u32At?_front (h : pos + 4 ≤ len) (hlen : len ≤ raw.size) :
    Bytes.u32At? (raw.extract 0 len) pos = raw.u32At? pos := by
  rw [Bytes.u32At?_extract (by omega) hlen, Nat.zero_add]

theorem coffHeader_front (h : pos + CoffHeader.size ≤ len) (hlen : len ≤ raw.size) :
    CoffHeader.at? (raw.extract 0 len) pos = CoffHeader.at? raw pos := by
  rw [CoffHeader.size] at h
  unfold CoffHeader.at?
  rw [u16At?_front (by omega) hlen, u16At?_front (by omega) hlen, u32At?_front (by omega) hlen,
    u32At?_front (by omega) hlen, u32At?_front (by omega) hlen, u16At?_front (by omega) hlen,
    u16At?_front (by omega) hlen]

/-- A section table that the front holds is that of the whole. -/
theorem sectionTable?_front {count : Nat} (hpos : pos ≤ len) (hlen : len ≤ raw.size) {sections : List ImageSection}
    (h : Header.sectionTable? (raw.extract 0 len) pos count = some sections) :
    Header.sectionTable? raw pos count = some sections := by
  have hsize : (raw.extract 0 len).size = len := by simp only [Array.size_extract]; omega
  by_cases hheld : pos + SectionHeader.size * count ≤ len
  · rw [← h]
    refine Strict.mapM_congr fun i hi => ?_
    have hlt := List.mem_range.mp hi
    rw [SectionHeader.size] at hheld
    rw [Strict.sectionHeader_extract (by rw [SectionHeader.size]; omega) hlen, Nat.zero_add]
  · rw [Strict.sectionTable?_of_lt (by omega) (by omega)] at h
    cases h

end Front

/-! ## Parsing -/

namespace Header

/-- The front of a file is parsed as the whole is, or is truncated. -/
theorem parse_front (config : LoaderConfig) {raw : Bytes} {len : Nat} (hlen : len ≤ raw.size) :
    CutShort (parse (raw.extract 0 len) config) (parse raw config) := by
  have hsize : (raw.extract 0 len).size = len := by simp only [Array.size_extract]; omega
  unfold parse
  dsimp only
  rw [hsize]
  refine .room (fun h => by omega) fun hstub => ?_
  rw [dosStubSize] at hstub
  rw [u16At?_front (by omega) hlen, u32At?_front (by rw [signatureOffsetField]; omega) hlen]
  refine .bind fun _ _ => ?_
  refine .bind fun signature _ => ?_
  refine .room (fun h => by omega) fun hoptional => ?_
  rw [u32At?_front (by omega) hlen, coffHeader_front hoptional hlen]
  refine .bind fun _ _ => ?_
  refine .bind fun coff _ => ?_
  refine .room (fun h => by omega) fun htable => ?_
  refine .bind fun _ _ => ?_
  -- From here on the optional header is read from its own bytes, and the front has them all.
  rw [Array.extract_extract, Nat.zero_add, Nat.zero_add, Nat.min_eq_left htable]
  refine .bind fun optional _ => ?_
  refine .bind fun _ _ => ?_
  refine .bind fun reloc _ => ?_
  refine .room (fun h => by omega) fun _ => ?_
  refine .bind fun _ _ => ?_
  refine .bind fun _ _ => ?_
  exact .read (fun _ h => sectionTable?_front htable hlen h) fun _ _ => .inr rfl

theorem parse_append (front rest : Bytes) (config : LoaderConfig) :
    CutShort (parse front config) (parse (front ++ rest) config) := by
  have hlen : front.size ≤ (front ++ rest).size := by simp
  have h := parse_front config hlen
  rwa [Array.extract_append_left, Array.extract_size] at h

/-- A file that can be parsed is never taken for another: its front gives the same header or is
    truncated, and with anything behind it the file gives the same header still. -/
theorem parse_cut_or_padded {raw : Bytes} {config : LoaderConfig} {header : Header}
    (h : parse raw config = .ok header) :
    (∀ front rest, raw = front ++ rest →
      parse front config = .ok header ∨ parse front config = .error .truncatedImage) ∧
    ∀ rest, parse (raw ++ rest) config = .ok header := by
  constructor
  · rintro front rest rfl
    rcases parse_append front rest config with hcut | hsame
    · exact .inr hcut
    · exact .inl (hsame.trans h)
  · intro rest
    rcases parse_append raw rest config with hcut | hsame
    · rw [h] at hcut
      cases hcut
    · rw [← hsame, h]

/-- A file of headers alone: cut in the middle it is truncated, and with a byte behind it it is parsed. -/
theorem headersOnly_cut_or_padded :
    ∃ header, parse (Sample.build {}) {} = .ok header ∧
      parse ((Sample.build {}).extract 0 64) {} = .error .truncatedImage ∧
      parse (Sample.build {} ++ #[0xff]) {} = .ok header := by
  have hok : (parse (Sample.build {}) {}).isOk = true := by decide +kernel
  have hcut : (parse ((Sample.build {}).extract 0 64) {}).isOk = false := by decide +kernel
  cases h : parse (Sample.build {}) {} with
  | error e =>
    rw [h] at hok
    cases hok
  | ok header =>
    obtain ⟨hfront, hrest⟩ := parse_cut_or_padded h
    have hsplit (raw : Bytes) : raw = raw.extract 0 64 ++ raw.extract 64 := by
      rw [Array.extract_append_extract]
      exact (Array.extract_eq_self_of_le (Nat.le_max_right _ _)).symm
    refine ⟨header, rfl, (hfront _ _ (hsplit _)).resolve_left fun hp => ?_, hrest _⟩
    rw [hp] at hcut
    cases hcut

end Header

end NetBoot.Image
