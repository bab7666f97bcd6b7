/-
  NetBoot.Proofs.Menu.Grammar — the menu file as a format, and that the parser reads it.

  The format is stated by what its parts look like, with no word about reading: `Digit`,
  `Numeral`, `Field`, `Record` and `Records` relate a value to the bytes that spell it. Each
  reader of the parser takes such bytes off the front and leaves the rest, and takes nothing else
  (`take?_eq_some_iff` up to `read?_eq_some_iff`). A file is then complete, overfull or malformed
  by the records at its front (`records_complete_iff`, `records_tooMany_iff`).

  The other way round, an entry whose strings keep to their limits is spelled by the record that
  is written for it (`record_encode`).
-/

import Mathlib.Algebra.Group.Nat.Defs
import Mathlib.Data.List.GetD
import Mathlib.Data.List.Induction
import Mathlib.Data.List.TakeWhile
import NetBoot.Menu.File
import NetBoot.Proofs.Text.Utf8

namespace NetBoot.Menu.Grammar

open Text (digit? ofDigits? decodeLossy)
open Menu.Record (take? number? string? read?)

/-! ## The format -/

/-- A hexadecimal digit and its value. -/
inductive Digit : UInt8 → Nat → Prop
  | decimal {b : UInt8} {d : Nat} : d < 10 → b.toNat = '0'.toNat + d → Digit b d
  | lower {b : UInt8} {d : Nat} : d < 6 → b.toNat = 'a'.toNat + d → Digit b (10 + d)
  | upper {b : UInt8} {d : Nat} : d < 6 → b.toNat = 'A'.toNat + d → Digit b (10 + d)

/-- The number that digits spell, the most significant one first. -/
inductive Spells : Nat → List UInt8 → Prop
  | nil : Spells 0 []
  | snoc {n d : Nat} {bs : List UInt8} {b : UInt8} : Spells n bs → Digit b d → Spells (16 * n + d) (bs ++ [b])

/-- A number in a given count of digits. -/
def Numeral (digits n : Nat) (bs : List UInt8) : Prop := Spells n bs ∧ bs.length = digits

/-- The kinds have the numbers from 0 to 9; any other number says that the entry is invalid. -/
def Numbered (k : Kind) (n : Nat) : Prop := k.code = n ∨ 9 < n ∧ k = .invalid

/-- A length in four digits and that many bytes, of which the first `max` are the text. -/
def Field (max : Nat) (s : String) (bs : List UInt8) : Prop :=
  ∃ len digits text, bs = digits ++ text ∧ Numeral 4 len digits ∧ text.length = len ∧
    s = String.ofList (decodeLossy (text.take (min len max)))

/-- Two digits of kind, eight of flags, four strings, and one more byte. -/
inductive Record : Entry → List UInt8 → Prop
  | mk {e : Entry} {n : Nat} {kind flags text command guid path : List UInt8} {last : UInt8} :
    Numbered e.kind n → Numeral 2 n kind → Numeral 8 e.flags.toNat flags →
    Field 80 e.text text → Field 512 e.command command → Field 40 e.bootEnvGuid guid →
    Field 80 e.pathPrefix path →
    Record e (kind ++ flags ++ text ++ command ++ guid ++ path ++ [last])

/-- Records one behind the other. -/
inductive Records : List Entry → List UInt8 → Prop
  | nil : Records [] []
  | cons {e : Entry} {es : List Entry} {record rest : List UInt8} :
    Record e record → Records es rest → Records (e :: es) (record ++ rest)

/-- At most 20 records, and behind them at most one byte. -/
def Accepted (d : List UInt8) (es : List Entry) : Prop :=
  es.length ≤ 20 ∧ ∃ records rest, d = records ++ rest ∧ Records es records ∧ rest.length ≤ 1

/-- Twenty records, and behind them two more bytes or longer. -/
def Overfull (d : List UInt8) : Prop :=
  ∃ es records rest, d = records ++ rest ∧ Records es records ∧ es.length = 20 ∧ 2 ≤ rest.length

/-! ## Numbers -/

theorem toNat_ofNat_lt : ∀ n < 256, (Char.ofNat n).toNat = n := by decide +kernel

theorem digit?_eq_some_iff (b : UInt8) (d : Nat) : digit? (Char.ofNat b.toNat) = some d ↔ Digit b d := by
  have hc : (Char.ofNat b.toNat).toNat = b.toNat := toNat_ofNat_lt _ b.toNat_lt
  have h0 : '0'.toNat = 48 := rfl
  have ha : 'a'.toNat = 97 := rfl
  have hA : 'A'.toNat = 65 := rfl
  have h9 : '9'.toNat = 57 := rfl
  have hf : 'f'.toNat = 102 := rfl
  have hF : 'F'.toNat = 70 := rfl
  have hle (c : Char) (x : Char) : c ≤ x ↔ c.toNat ≤ x.toNat := Iff.rfl
  simp only [digit?, hle, hc, h0, ha, hA, h9, hf, hF]
  constructor
  · intro h
    split at h
    · injection h with h
      exact .decimal (by omega) (by omega)
    split at h
    · injection h with h
      rw [← h, Nat.add_comm]
      exact .lower (by omega) (by omega)
    split at h
    · injection h with h
      rw [← h, Nat.add_comm]
      exact .upper (by omega) (by omega)
    · cases h
  · rintro (⟨hd, hb⟩ | ⟨hd, hb⟩ | ⟨hd, hb⟩)
    · rw [if_pos (by omega)]
      exact congrArg some (by omega)
    · rw [if_neg (by omega), if_pos (by omega)]
      exact congrArg some (by omega)
    · rw [if_neg (by omega), if_neg (by omega), if_pos (by omega)]
      exact congrArg some (by omega)

theorem ofDigits?_append (cs : List Char) (c : Char) :
    ofDigits? (cs ++ [c]) = (ofDigits? cs).bind fun n => (digit? c).map (16 * n + ·) := by
  simp only [ofDigits?, List.foldlM_append, List.foldlM_cons, List.foldlM_nil, bind_pure]
  rfl

theorem ofDigits?_eq_some_iff (bs : List UInt8) (n : Nat) :
    ofDigits? (bs.map fun b => Char.ofNat b.toNat) = some n ↔ Spells n bs := by
  induction bs using List.reverseRecOn generalizing n with
  | nil =>
    constructor
    · intro h
      injection h with h
      exact h ▸ .nil
    · intro h
      generalize hbs : ([] : List UInt8) = bs at h
      cases h with
      | nil => rfl
      | snoc h hd => simp at hbs
  | append_singleton bs b ih =>
    simp only [List.map_append, List.map_cons, List.map_nil, ofDigits?_append, Option.bind_eq_some_iff,
      Option.map_eq_some_iff, ih, digit?_eq_some_iff]
    constructor
    · rintro ⟨m, hm, d, hd, rfl⟩
      exact .snoc hm hd
    · intro h
      generalize hbs : bs ++ [b] = all at h
      cases h with
      | nil => simp at hbs
      | snoc hm hd =>
        obtain ⟨rfl, hb⟩ := List.append_inj' hbs rfl
        injection hb with hb
        subst hb
        exact ⟨_, hm, _, hd, rfl⟩

theorem take?_eq_some_iff {n : Nat} {bs front rest : List UInt8} :
    take? n bs = some (front, rest) ↔ bs = front ++ rest ∧ front.length = n := by
  unfold take?
  constructor
  · intro h
    split at h
    · next hn =>
      injection h with h
      injection h with h1 h2
      subst h1 h2
      exact ⟨(List.take_append_drop n bs).symm, List.length_take_of_le hn⟩
    · cases h
  · rintro ⟨rfl, rfl⟩
    rw [if_pos (by simp), List.take_left, List.drop_left]

theorem number?_eq_some_iff {digits n : Nat} {bs rest : List UInt8} :
    number? digits bs = some (n, rest) ↔ ∃ front, bs = front ++ rest ∧ Numeral digits n front := by
  simp only [number?, Option.bind_eq_bind, Option.bind_eq_some_iff, Prod.exists, take?_eq_some_iff,
    ofDigits?_eq_some_iff, Option.pure_def, Option.some.injEq, Prod.mk.injEq]
  constructor
  · rintro ⟨front, _, ⟨hbs, hlen⟩, m, hm, rfl, rfl⟩
    exact ⟨front, hbs, hm, hlen⟩
  · rintro ⟨front, hbs, hn, hlen⟩
    exact ⟨front, rest, ⟨hbs, hlen⟩, n, hn, rfl, rfl⟩

/-- What so many digits spell is below that power of sixteen. -/
theorem Spells.lt {n : Nat} {bs : List UInt8} (h : Spells n bs) : n < 16 ^ bs.length := by
  induction h with
  | nil => simp
  | @snoc n d bs b h hd ih =>
    have hd' : d < 16 := by rcases hd with ⟨h, -⟩ | ⟨h, -⟩ | ⟨h, -⟩ <;> omega
    rw [List.length_append, List.length_singleton, Nat.pow_succ]
    omega

/-! ## Strings and records -/

theorem string?_eq_some_iff {max : Nat} {s : String} {bs rest : List UInt8} :
    string? max bs = some (s, rest) ↔ ∃ front, bs = front ++ rest ∧ Field max s front := by
  simp only [string?, Option.bind_eq_bind, Option.bind_eq_some_iff, Prod.exists, number?_eq_some_iff,
    take?_eq_some_iff, Option.pure_def, Option.some.injEq, Prod.mk.injEq]
  -- Beyond its own length a string has nothing to cut.
  have hcut (text : List UInt8) : text.take (min text.length max) = text.take max := by
    rw [Nat.min_comm, ← List.take_take, List.take_length]
  constructor
  · rintro ⟨len, _, ⟨digits, rfl, hlen⟩, text, _, ⟨rfl, htext⟩, rfl, rfl⟩
    refine ⟨digits ++ text, (List.append_assoc ..).symm, len, digits, text, rfl, hlen, htext, ?_⟩
    rw [← htext, hcut]
  · rintro ⟨_, rfl, len, digits, text, rfl, hlen, rfl, rfl⟩
    refine ⟨_, text ++ rest, ⟨digits, List.append_assoc .., hlen⟩, text, rest, ⟨rfl, rfl⟩, ?_, rfl⟩
    rw [hcut]

theorem numbered_ofCode (n : Nat) : Numbered (Kind.ofCode n) n := by
  by_cases hn : n < 10
  · refine Or.inl ?_
    have : ∀ n < 10, (Kind.ofCode n).code = n := by decide
    exact this n hn
  · refine Or.inr ⟨by omega, ?_⟩
    exact List.getD_eq_default _ _ (Nat.not_lt.mp hn)

theorem Numbered.eq_ofCode {k : Kind} {n : Nat} (h : Numbered k n) : k = Kind.ofCode n := by
  rcases h with rfl | ⟨hn, rfl⟩
  · exact (Kind.ofCode_code k).symm
  · exact (List.getD_eq_default _ _ hn).symm

/-- The reader of a record takes a record off the front, and nothing else. -/
theorem read?_eq_some_iff {bs rest : List UInt8} {e : Entry} :
    read? bs = some (e, rest) ↔ ∃ front, bs = front ++ rest ∧ Record e front := by
  simp only [read?, Option.bind_eq_bind, Option.bind_eq_some_iff, Prod.exists, number?_eq_some_iff,
    string?_eq_some_iff, take?_eq_some_iff, Option.pure_def, Option.some.injEq, Prod.mk.injEq]
  constructor
  · rintro ⟨n, _, ⟨kind, rfl, hkind⟩, f, _, ⟨flags, rfl, hflags⟩, t, _, ⟨text, rfl, htext⟩,
      c, _, ⟨command, rfl, hcommand⟩, g, _, ⟨guid, rfl, hguid⟩, p, _, ⟨path, rfl, hpath⟩,
      last, _, ⟨rfl, hlast⟩, rfl, rfl⟩
    obtain ⟨b, rfl⟩ := List.length_eq_one_iff.mp hlast
    have hf : (UInt32.ofNat f).toNat = f := by
      have := hflags.1.lt
      rw [hflags.2] at this
      exact UInt32.toNat_ofNat_of_lt' this
    refine ⟨kind ++ flags ++ text ++ command ++ guid ++ path ++ [b], ?_, ?_⟩
    · simp only [List.append_assoc]
    · exact .mk (numbered_ofCode n) hkind (hf.symm ▸ hflags) htext hcommand hguid hpath
  · rintro ⟨front, rfl, h⟩
    obtain @⟨n, kind, flags, text, command, guid, path, last, hn, hkind, hflags, htext, hcommand, hguid, hpath⟩ := h
    refine ⟨n, _, ⟨kind, by simp only [List.append_assoc], hkind⟩, _, _, ⟨flags, rfl, hflags⟩,
      _, _, ⟨text, rfl, htext⟩, _, _, ⟨command, rfl, hcommand⟩, _, _, ⟨guid, rfl, hguid⟩,
      _, _, ⟨path, rfl, hpath⟩, [last], rest, ⟨rfl, rfl⟩, ?_, rfl⟩
    rw [← hn.eq_ofCode, UInt32.ofNat_toNat]

/-- No record is shorter than its fixed part. -/
theorem Record.two_le {e : Entry} {record : List UInt8} (h : Record e record) : 2 ≤ record.length := by
  cases h with
  | mk _ hkind =>
    simp only [List.length_append, hkind.2]
    omega

/-! ## Files -/

open File (records content parse)

theorem records_of_short {room : Nat} {bs : List UInt8} (h : bs.length < 2) : records room bs = ([], .complete) := by
  unfold records
  rw [if_pos h]

theorem records_zero {bs : List UInt8} (h : 2 ≤ bs.length) : records 0 bs = ([], .tooMany) := by
  unfold records
  rw [if_neg (by omega)]

theorem records_of_malformed {room : Nat} {bs : List UInt8} (h : 2 ≤ bs.length) (hr : read? bs = none) :
    records (room + 1) bs = ([], .malformed) := by
  unfold records
  rw [if_neg (by omega)]
  simp only [hr]

theorem records_of_record {room : Nat} {bs rest : List UInt8} {e : Entry} (h : 2 ≤ bs.length)
    (hr : read? bs = some (e, rest)) :
    records (room + 1) bs = (e :: (records room rest).1, (records room rest).2) := by
  conv => lhs; unfold records
  rw [if_neg (by omega)]
  simp only [hr]

/-- A file with room for so many records is complete exactly when no more of them are all there
    is, but for a byte at most. -/
theorem records_complete_iff (room : Nat) {bs : List UInt8} {es : List Entry} :
    records room bs = (es, .complete) ↔
      es.length ≤ room ∧ ∃ front rest, bs = front ++ rest ∧ Records es front ∧ rest.length ≤ 1 := by
  constructor
  · intro h
    induction room generalizing bs es with
    | zero =>
      by_cases hbs : bs.length < 2
      · rw [records_of_short hbs] at h
        cases h
        exact ⟨Nat.le_refl _, [], bs, rfl, .nil, by omega⟩
      · rw [records_zero (by omega)] at h
        cases h
    | succ room ih =>
      by_cases hbs : bs.length < 2
      · rw [records_of_short hbs] at h
        cases h
        exact ⟨Nat.zero_le _, [], bs, rfl, .nil, by omega⟩
      rcases hr : read? bs with _ | ⟨e, rest⟩
      · rw [records_of_malformed (by omega) hr] at h
        cases h
      · rw [records_of_record (by omega) hr] at h
        injection h with h1 h2
        obtain ⟨hlen, front, last, rfl, hfront, hlast⟩ := ih (Prod.ext rfl h2)
        obtain ⟨record, rfl, he⟩ := read?_eq_some_iff.mp hr
        subst h1
        exact ⟨Nat.succ_le_succ hlen, _, last, (List.append_assoc ..).symm, .cons he hfront, hlast⟩
  · rintro ⟨hlen, front, rest, rfl, hfront, hrest⟩
    induction hfront generalizing room with
    | nil => exact records_of_short (by rw [List.nil_append]; omega)
    | @cons e es record front he _ ih =>
      obtain ⟨room, rfl⟩ : ∃ r, room = r + 1 := ⟨room - 1, by rw [List.length_cons] at hlen; omega⟩
      have htwo := he.two_le
      rw [records_of_record (by simp only [List.length_append]; omega)
        (read?_eq_some_iff.mpr ⟨record, List.append_assoc .., he⟩), ih _ (Nat.le_of_succ_le_succ hlen)]

/-- It has too many exactly when, behind as many as there is room for, two bytes follow. -/
theorem records_tooMany_iff (room : Nat) {bs : List UInt8} :
    (records room bs).2 = .tooMany ↔
      ∃ es front rest, bs = front ++ rest ∧ Records es front ∧ es.length = room ∧ 2 ≤ rest.length := by
  constructor
  · intro h
    induction room generalizing bs with
    | zero =>
      by_cases hbs : bs.length < 2
      · rw [records_of_short hbs] at h
        cases h
      · exact ⟨[], [], bs, rfl, .nil, rfl, by omega⟩
    | succ room ih =>
      by_cases hbs : bs.length < 2
      · rw [records_of_short hbs] at h
        cases h
      rcases hr : read? bs with _ | ⟨e, rest⟩
      · rw [records_of_malformed (by omega) hr] at h
        cases h
      · rw [records_of_record (by omega) hr] at h
        obtain ⟨es, front, last, rfl, hfront, hlen, hlast⟩ := ih h
        obtain ⟨record, rfl, he⟩ := read?_eq_some_iff.mp hr
        exact ⟨e :: es, _, last, (List.append_assoc ..).symm, .cons he hfront, congrArg (· + 1) hlen, hlast⟩
  · rintro ⟨es, front, rest, rfl, hfront, rfl, hrest⟩
    induction hfront with
    | nil => rw [List.nil_append, List.length_nil, records_zero hrest]
    | @cons e es record front he _ ih =>
      have htwo := he.two_le
      rw [List.length_cons, records_of_record (by simp only [List.length_append]; omega)
        (read?_eq_some_iff.mpr ⟨record, List.append_assoc .., he⟩)]
      exact ih

theorem parse_ok_iff {data : Bytes} {es : List Entry} : parse data = .ok es ↔ Accepted (content data) es := by
  rw [Accepted, ← records_complete_iff 20]
  unfold parse File.read
  show File.outcome (records 20 (content data)) = .ok es ↔ _
  rcases records 20 (content data) with ⟨es', _ | _ | _⟩ <;> simp [File.outcome]

theorem parse_tooMany_iff {data : Bytes} :
    parse data = .error .tooManyMenuEntries ↔ Overfull (content data) := by
  rw [Overfull, ← records_tooMany_iff 20]
  unfold parse File.read
  show File.outcome (records 20 (content data)) = .error .tooManyMenuEntries ↔ _
  rcases records 20 (content data) with ⟨es', _ | _ | _⟩ <;> simp [File.outcome]

theorem parse_cases (data : Bytes) :
    (∃ es, parse data = .ok es) ∨ parse data = .error .tooManyMenuEntries ∨ parse data = .error .menuParse := by
  unfold parse
  rcases File.read data with ⟨es, _ | _ | _⟩
  · exact Or.inl ⟨es, rfl⟩
  · exact Or.inr (Or.inr rfl)
  · exact Or.inr (Or.inl rfl)

theorem parse_malformed_iff {data : Bytes} : parse data = .error .menuParse ↔
    (∀ es, ¬ Accepted (content data) es) ∧ ¬ Overfull (content data) := by
  simp only [← parse_ok_iff, ← parse_tooMany_iff]
  constructor
  · intro h
    rw [h]
    exact ⟨nofun, nofun⟩
  · rintro ⟨hok, hmany⟩
    rcases parse_cases data with ⟨es, h⟩ | h | h
    · exact absurd h (hok es)
    · exact absurd h hmany
    · exact h

/-! ## Writing -/

open Menu.Record (ofHex ofString encode)

/-- A string of so many bytes at most, none of them zero. -/
def Fits (max : Nat) (s : String) : Prop := s.utf8ByteSize ≤ max ∧ Char.ofNat 0 ∉ s.toList

instance (max : Nat) (s : String) : Decidable (Fits max s) := inferInstanceAs (Decidable (_ ∧ _))

/-- Can the entry be written without losing any of its strings? -/
def Writable (e : Entry) : Prop :=
  Fits 80 e.text ∧ Fits 512 e.command ∧ Fits 40 e.bootEnvGuid ∧ Fits 80 e.pathPrefix

theorem utf8EncodeChar_digitChar : ∀ d < 16, ∃ b, String.utf8EncodeChar (Nat.digitChar d) = [b] ∧ Digit b d := by
  intro d hd
  by_cases h : d < 10
  · have : ∀ d < 10, String.utf8EncodeChar (Nat.digitChar d) = [UInt8.ofNat (48 + d)] := by decide
    refine ⟨_, this d h, .decimal h ?_⟩
    exact UInt8.toNat_ofNat_of_lt' (by rw [UInt8.size]; omega)
  · obtain ⟨k, rfl⟩ : ∃ k, d = 10 + k := ⟨d - 10, by omega⟩
    have : ∀ k < 6, String.utf8EncodeChar (Nat.digitChar (10 + k)) = [UInt8.ofNat (97 + k)] := by decide
    refine ⟨_, this k (by omega), .lower (by omega) ?_⟩
    exact UInt8.toNat_ofNat_of_lt' (by rw [UInt8.size]; omega)

theorem spells_toDigits (n : Nat) :
    Spells n ((Nat.toDigits 16 n).flatMap String.utf8EncodeChar) ∧
      ((Nat.toDigits 16 n).flatMap String.utf8EncodeChar).length = (Nat.toDigits 16 n).length := by
  induction n using Nat.strongRecOn with
  | ind n ih =>
    rw [Nat.toDigits_eq_if (by omega)]
    split
    · next hn =>
      obtain ⟨b, hb, hd⟩ := utf8EncodeChar_digitChar n hn
      rw [List.flatMap_singleton, hb]
      have := Spells.snoc .nil hd
      rw [Nat.mul_zero, Nat.zero_add] at this
      exact ⟨this, rfl⟩
    · next hn =>
      obtain ⟨b, hb, hd⟩ := utf8EncodeChar_digitChar (n % 16) (by omega)
      obtain ⟨hs, hlen⟩ := ih (n / 16) (by omega)
      rw [List.flatMap_append, List.flatMap_singleton, hb]
      have := Spells.snoc hs hd
      rw [Nat.div_add_mod] at this
      exact ⟨this, by simp only [List.length_append, hlen, List.length_singleton]⟩

/-- Zeros in front of a number do not change it. -/
theorem Spells.padded {n : Nat} {bs : List UInt8} (h : Spells n bs) (k : Nat) :
    Spells n (List.replicate k 48 ++ bs) := by
  induction h with
  | nil =>
    rw [List.append_nil]
    induction k with
    | zero => exact .nil
    | succ k ih =>
      have h0 : Digit 48 0 := .decimal (by omega) rfl
      rw [List.replicate_succ']
      exact ih.snoc h0
  | snoc _ hd ih =>
    rw [← List.append_assoc]
    exact ih.snoc hd

theorem numeral_ofHex {digits n : Nat} (hd : 0 < digits) (hn : n < 16 ^ digits) :
    Numeral digits n (ofHex digits n) := by
  obtain ⟨hs, hlen⟩ := spells_toDigits n
  have hle : (Nat.toDigits 16 n).length ≤ digits := (Nat.length_toDigits_le_iff (by omega) hd).mpr hn
  have hzero (k : Nat) : (List.replicate k '0').flatMap String.utf8EncodeChar = List.replicate k 48 := by
    induction k with
    | zero => rfl
    | succ k ih =>
      rw [List.replicate_succ, List.flatMap_cons, ih]
      rfl
  rw [ofHex, Text.toList_toUTF8, Text.hexPadded, String.toList_ofList, List.flatMap_append, hzero]
  refine ⟨hs.padded _, ?_⟩
  rw [List.length_append, List.length_replicate, hlen]
  omega

theorem field_ofString {max : Nat} {s : String} (hs : Fits max s) (hmax : max < 65536) : Field max s (ofString s) := by
  have hlen := Text.length_toUTF8 s
  have hle := hs.1
  refine ⟨_, _, _, rfl, numeral_ofHex (by omega) (by omega), rfl, ?_⟩
  rw [Nat.min_eq_left (by omega), List.take_length, Text.decodeLossy_toUTF8]

theorem record_encode {e : Entry} (h : Writable e) : Record e (encode e) := by
  obtain ⟨htext, hcommand, hguid, hpath⟩ := h
  have hcode : e.kind.code < 16 ^ 2 := by cases e.kind <;> decide
  exact .mk (Or.inl rfl) (numeral_ofHex (by omega) hcode) (numeral_ofHex (by omega) e.flags.toNat_lt)
    (field_ofString htext (by omega)) (field_ofString hcommand (by omega)) (field_ofString hguid (by omega))
    (field_ofString hpath (by omega))

theorem records_encode {es : List Entry} (h : ∀ e ∈ es, Writable e) : Records es (es.flatMap encode) := by
  induction es with
  | nil => exact .nil
  | cons e es ih =>
    rw [List.flatMap_cons]
    exact .cons (record_encode (h e (List.mem_cons_self ..))) (ih fun e he => h e (List.mem_cons_of_mem _ he))

/-! No zero byte is written, so nothing of what is written is behind the end of the file. -/

theorem Spells.ne_zero {n : Nat} {bs : List UInt8} (h : Spells n bs) : (0 : UInt8) ∉ bs := by
  induction h with
  | nil => simp
  | snoc _ hd ih =>
    have h0 : '0'.toNat = 48 := rfl
    have ha : 'a'.toNat = 97 := rfl
    have hA : 'A'.toNat = 65 := rfl
    rw [List.mem_append, List.mem_singleton, not_or]
    refine ⟨ih, ?_⟩
    rintro rfl
    have hz : (0 : UInt8).toNat = 0 := rfl
    rcases hd with ⟨-, hb⟩ | ⟨-, hb⟩ | ⟨-, hb⟩ <;> omega

theorem utf8EncodeChar_ne_zero {c : Char} (hc : c ≠ Char.ofNat 0) : (0 : UInt8) ∉ String.utf8EncodeChar c := by
  have hne : c.toNat ≠ 0 := fun h => hc (by rw [← h, Char.ofNat_toNat])
  have hbyte (n : Nat) (h0 : 0 < n) (h : n < 256) : (0 : UInt8) ≠ UInt8.ofNat n := by
    intro he
    have := congrArg UInt8.toNat he
    rw [UInt8.toNat_ofNat_of_lt' h] at this
    exact absurd this (Nat.ne_of_lt h0)
  have hv : c.val.toNat = c.toNat := rfl
  unfold String.utf8EncodeChar
  rw [hv]
  dsimp only
  intro hmem
  split at hmem
  · rw [List.mem_singleton] at hmem
    exact hbyte _ (by omega) (by omega) hmem
  -- From here on every byte has its top bit set.
  split at hmem
  · simp only [List.mem_cons, List.not_mem_nil, or_false] at hmem
    rcases hmem with h | h <;> exact hbyte _ (by omega) (by omega) h
  split at hmem
  · simp only [List.mem_cons, List.not_mem_nil, or_false] at hmem
    rcases hmem with h | h | h <;> exact hbyte _ (by omega) (by omega) h
  · simp only [List.mem_cons, List.not_mem_nil, or_false] at hmem
    rcases hmem with h | h | h | h <;> exact hbyte _ (by omega) (by omega) h

theorem toUTF8_ne_zero {s : String} (h : Char.ofNat 0 ∉ s.toList) : (0 : UInt8) ∉ s.toUTF8.data.toList := by
  rw [Text.toList_toUTF8, List.mem_flatMap]
  rintro ⟨c, hc, hzero⟩
  exact utf8EncodeChar_ne_zero (fun he => h (he ▸ hc)) hzero

theorem ofString_ne_zero {max : Nat} {s : String} (hs : Fits max s) (hmax : max < 65536) :
    (0 : UInt8) ∉ ofString s := by
  have hlen := Text.length_toUTF8 s
  have hle := hs.1
  have hdigits : Numeral 4 _ (ofHex 4 s.toUTF8.data.toList.length) := numeral_ofHex (by omega) (by omega)
  rw [ofString, List.mem_append, not_or]
  exact ⟨hdigits.1.ne_zero, toUTF8_ne_zero hs.2⟩

theorem encode_ne_zero {e : Entry} (h : Writable e) : (0 : UInt8) ∉ encode e := by
  obtain ⟨htext, hcommand, hguid, hpath⟩ := h
  have hcode : e.kind.code < 16 ^ 2 := by cases e.kind <;> decide
  have hkind : Numeral 2 e.kind.code (ofHex 2 e.kind.code) := numeral_ofHex (by omega) hcode
  have hflags : Numeral 8 e.flags.toNat (ofHex 8 e.flags.toNat) := numeral_ofHex (by omega) e.flags.toNat_lt
  simp only [encode, List.mem_append, not_or]
  exact ⟨⟨⟨⟨⟨⟨hkind.1.ne_zero, hflags.1.ne_zero⟩, ofString_ne_zero htext (by omega)⟩,
    ofString_ne_zero hcommand (by omega)⟩, ofString_ne_zero hguid (by omega)⟩,
    ofString_ne_zero hpath (by omega)⟩, by decide⟩

theorem content_encode {es : List Entry} (h : ∀ e ∈ es, Writable e) :
    content (es.flatMap encode).toArray = es.flatMap encode := by
  refine List.takeWhile_eq_self_iff.mpr fun b hb => ?_
  obtain ⟨e, he, hbe⟩ := List.mem_flatMap.mp hb
  refine bne_iff_ne.mpr fun hz => ?_
  subst hz
  exact encode_ne_zero (h e he) hbe

/-! ## The parser -/

/-- The parser accepts exactly the format: what it answers for a file is settled by the bytes
    before the first zero, and a file written for at most 20 entries is read back as them. -/
theorem parse_reads_format (data : Bytes) :
    (∀ es, parse data = .ok es ↔ Accepted (content data) es) ∧
    (parse data = .error .tooManyMenuEntries ↔ Overfull (content data)) ∧
    (parse data = .error .menuParse ↔ (∀ es, ¬ Accepted (content data) es) ∧ ¬ Overfull (content data)) ∧
    ∀ es, es.length ≤ 20 → (∀ e ∈ es, Writable e) → parse (es.flatMap encode).toArray = .ok es := by
  refine ⟨fun es => parse_ok_iff, parse_tooMany_iff, parse_malformed_iff, fun es hlen hes => ?_⟩
  rw [parse_ok_iff, content_encode hes]
  exact ⟨hlen, es.flatMap encode, [], (List.append_nil _).symm, records_encode hes, Nat.zero_le _⟩

theorem parse_reads_two_records :
    let es : List Entry := [⟨.text, 0, "Städte", "", "", ""⟩, ⟨.chainload, 0x80000005, "", "\\wdsmgfw.efi", "", "/pe"⟩]
    parse (es.flatMap encode).toArray = .ok es := by
  refine (parse_reads_format #[]).2.2.2 _ (by decide) ?_
  intro e he
  simp only [List.mem_cons, List.not_mem_nil, or_false] at he
  rcases he with rfl | rfl <;> exact ⟨by decide, by decide, by decide, by decide⟩

end NetBoot.Menu.Grammar
