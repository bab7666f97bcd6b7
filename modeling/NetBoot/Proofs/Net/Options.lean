/-
  NetBoot.Proofs.Net.Options — the option area of a DHCP packet, written and read back.

  A writer puts items one behind the other, options and padding, and then the area ends: with the
  packet, with an end option that anything may follow, or with an option that the packet cuts short
  (`Ending`). A value may hold bytes that look like padding, an end or another option, so all depends
  on reading each option to its last byte and not further (`decode_option`); what is read back is what
  was written, and nothing of what follows (`decode_area`).

  Any bytes at all may come as a packet. `readAll` is the reader as it moves through one by offsets,
  with a proof for each index that it lies in the packet; it comes to the same options
  (`options_eq_readAll`), which lie in the packet one behind the other (`liesIn_readAll`).
-/

import NetBoot.Net.Dhcp

namespace NetBoot.Net.Dhcp

/-! ## Writing -/

/-- An option that can be written: its code is not taken, and its length fits a byte. -/
structure WireOption extends Field where
  code_ne_pad : code ≠ padCode
  code_ne_end : code ≠ endCode
  short : value.length < 256

/-- What may stand before the end of an option area. -/
inductive Item where
  | pad
  | option (o : WireOption)

def WireOption.encode (o : WireOption) : List UInt8 := o.code :: UInt8.ofNat o.value.length :: o.value

namespace Item

def encode : Item → List UInt8
  | pad => [padCode]
  | option o => o.encode

def field? : Item → Option Field
  | pad => none
  | option o => some o.toField

end Item

/-- How an option area ends. -/
inductive Ending where
  /-- With the packet. -/
  | packet
  /-- With an end option, and something behind it. -/
  | stop (behind : List UInt8)
  /-- Within an option, of which some bytes are there. -/
  | cut (o : WireOption) (kept : Nat) (begun : 0 < kept) (short : kept < o.encode.length)

def Ending.encode : Ending → List UInt8
  | packet => []
  | stop behind => endCode :: behind
  | cut o kept _ _ => o.encode.take kept

/-- An option area. -/
def area (items : List Item) (ending : Ending) : List UInt8 := items.flatMap Item.encode ++ ending.encode

/-- The options among the items. -/
def fields (items : List Item) : List Field := items.filterMap Item.field?

/-- A packet: the fixed header with the magic cookie, and the options. -/
def packetOf (header : Vector UInt8 optionsOffset) (items : List Item) (ending : Ending) : Bytes :=
  header.toArray ++ (area items ending).toArray

/-! ## Reading back -/

theorem decode_end (rest : List UInt8) : decode (endCode :: rest) = [] := by
  rw [decode.eq_def]
  exact if_pos rfl

theorem decode_pad (rest : List UInt8) : decode (padCode :: rest) = decode rest := by
  rw [decode.eq_def]
  exact (if_neg (by decide)).trans (if_pos rfl)

section Codes

variable {code : UInt8} (hend : code ≠ endCode) (hpad : code ≠ padCode)

include hend hpad

theorem decode_lone : decode [code] = [] := by
  rw [decode.eq_def]
  exact (if_neg hend).trans (if_neg hpad)

theorem decode_cons_cons (len : UInt8) (body : List UInt8) :
    decode (code :: len :: body) =
      if body.length < len.toNat then [] else ⟨code, body.take len.toNat⟩ :: decode (body.drop len.toNat) := by
  rw [decode.eq_def]
  exact (if_neg hend).trans (if_neg hpad)

end Codes

theorem toNat_length (o : WireOption) : (UInt8.ofNat o.value.length).toNat = o.value.length :=
  UInt8.toNat_ofNat_of_lt' o.short

/-- An option is read to its last byte, and not further. -/
theorem decode_option (o : WireOption) (rest : List UInt8) : decode (o.encode ++ rest) = o.toField :: decode rest := by
  have hlong : ¬ (o.value ++ rest).length < (UInt8.ofNat o.value.length).toNat := by
    rw [toNat_length, List.length_append]
    omega
  rw [WireOption.encode, List.cons_append, List.cons_append, decode_cons_cons o.code_ne_end o.code_ne_pad, if_neg hlong,
    toNat_length, List.take_left, List.drop_left]

/-- Of an option that is cut short nothing is read. -/
theorem decode_cut (o : WireOption) {kept : Nat} (hbegun : 0 < kept) (hshort : kept < o.encode.length) :
    decode (o.encode.take kept) = [] := by
  rcases kept with _ | _ | kept
  · omega
  · exact decode_lone o.code_ne_end o.code_ne_pad
  · rw [WireOption.encode, List.length_cons, List.length_cons] at hshort
    have hmissing : (o.value.take kept).length < (UInt8.ofNat o.value.length).toNat := by
      rw [toNat_length, List.length_take]
      omega
    rw [WireOption.encode, List.take_succ_cons, List.take_succ_cons, decode_cons_cons o.code_ne_end o.code_ne_pad,
      if_pos hmissing]

theorem decode_ending (ending : Ending) : decode ending.encode = [] := by
  cases ending with
  | packet => rw [Ending.encode, decode]
  | stop behind => exact decode_end behind
  | cut o kept begun short => exact decode_cut o begun short

theorem decode_area (items : List Item) (ending : Ending) : decode (area items ending) = fields items := by
  induction items with
  | nil => exact decode_ending ending
  | cons item items ih =>
    rw [area, List.flatMap_cons, List.append_assoc]
    cases item with
    | pad =>
      rw [Item.encode, List.singleton_append, decode_pad]
      exact ih
    | option o =>
      rw [Item.encode, decode_option]
      exact congrArg _ ih

/-- A value that holds an end option and the beginning of another. -/
example : decode [0, 1, 3, 255, 12, 9, 0, 93, 2, 0, 7, 255, 93, 2, 0, 6] = [⟨1, [255, 12, 9]⟩, ⟨93, [0, 7]⟩] := by
  decide +kernel

theorem options_packetOf (header : Vector UInt8 optionsOffset) (items : List Item) (ending : Ending) :
    options (packetOf header items ending) = fields items := by
  have hdrop : (packetOf header items ending).toList.drop optionsOffset = area items ending := by
    simp [packetOf]
  rw [options, hdrop, decode_area]

/-! ## Looking up -/

/-- It is found what the first option with the code holds. -/
theorem find?_eq_some_iff {packet : Bytes} {code : UInt8} {value : List UInt8} :
    find? packet code = some value ↔
      ∃ before behind, options packet = before ++ ⟨code, value⟩ :: behind ∧ ∀ f ∈ before, f.code ≠ code := by
  rw [find?, Option.map_eq_some_iff]
  constructor
  · rintro ⟨f, hf, rfl⟩
    obtain ⟨hcode, before, behind, heq, hbefore⟩ := List.find?_eq_some_iff_append.mp hf
    have hfield : f = ⟨code, f.value⟩ := by
      rw [← beq_iff_eq.mp hcode]
    refine ⟨before, behind, by rw [heq, ← hfield], fun g hg => ?_⟩
    simpa using hbefore g hg
  · rintro ⟨before, behind, heq, hbefore⟩
    refine ⟨⟨code, value⟩, List.find?_eq_some_iff_append.mpr ⟨by simp, before, behind, heq, fun g hg => ?_⟩, rfl⟩
    simpa using hbefore g hg

theorem architecture?_eq_some_iff {packet : Bytes} {a : UInt16} :
    architecture? packet = some a ↔
      ∃ hi lo, find? packet architectureCode = some [hi, lo] ∧ a.toNat = 256 * hi.toNat + lo.toNat := by
  have hword (hi lo : UInt8) : (UInt16.ofNat (256 * hi.toNat + lo.toNat)).toNat = 256 * hi.toNat + lo.toNat := by
    have hhi := hi.toNat_lt
    have hlo := lo.toNat_lt
    exact UInt16.toNat_ofNat_of_lt' (by rw [UInt16.size]; omega)
  unfold architecture?
  constructor
  · intro h
    split at h
    · next hi lo hf =>
      cases h
      exact ⟨hi, lo, hf, hword hi lo⟩
    · cases h
  · rintro ⟨hi, lo, hf, ha⟩
    rw [hf]
    dsimp only
    rw [← hword hi lo, UInt16.toNat_inj] at ha
    rw [ha]

/-! ## Reading any bytes -/

/-- The reader from an offset on: the next option, and where it ends. Every index is shown to lie in the
    packet before it is read. -/
def next? (packet : Bytes) (offset : Nat) : Option (Field × Nat) :=
  if h : offset < packet.size then
    if packet[offset] = endCode then none
    else if packet[offset] = padCode then next? packet (offset + 1)
    else if h' : offset + 1 < packet.size then
      let stop := offset + 2 + packet[offset + 1].toNat
      if stop ≤ packet.size then some (⟨packet[offset], (packet.extract (offset + 2) stop).toList⟩, stop) else none
    else none
  else none
termination_by packet.size - offset

/-- Where an option lies in a packet. -/
structure LiesAt (packet : Bytes) (start : Nat) (f : Field) : Prop where
  inside : start + 2 + f.value.length ≤ packet.size
  code : packet[start]? = some f.code
  length : packet[start + 1]?.map (·.toNat) = some f.value.length
  value : f.value = (packet.extract (start + 2) (start + 2 + f.value.length)).toList

theorem next?_liesAt {packet : Bytes} {offset stop : Nat} {f : Field} (h : next? packet offset = some (f, stop)) :
    ∃ start, offset ≤ start ∧ LiesAt packet start f ∧ stop = start + 2 + f.value.length := by
  fun_induction next? packet offset with
  | case1 => cases h
  | case2 offset hlt hend hpad ih =>
    obtain ⟨start, hle, hf, hstop⟩ := ih h
    exact ⟨start, by omega, hf, hstop⟩
  | case3 offset hlt hend hpad hlt' stop' hle =>
    rw [Option.some_inj, Prod.mk.injEq] at h
    obtain ⟨rfl, rfl⟩ := h
    have hlength : (packet.extract (offset + 2) stop').toList.length = packet[offset + 1].toNat := by
      rw [Array.length_toList, Array.size_extract]
      omega
    have hstop : stop' = offset + 2 + (packet.extract (offset + 2) stop').toList.length := by
      rw [hlength]
    refine ⟨offset, Nat.le_refl _, ⟨?_, Array.getElem?_eq_getElem hlt, ?_, ?_⟩, hstop⟩
    · exact hstop ▸ hle
    · rw [Array.getElem?_eq_getElem hlt', Option.map_some, hlength]
    · rw [← hstop]
  | case4 => cases h
  | case5 => cases h
  | case6 => cases h

/-- The reader, until there is no option more. -/
def readAll (packet : Bytes) (offset : Nat) : List Field :=
  match _h : next? packet offset with
  | none => []
  | some (f, stop) => f :: readAll packet stop
termination_by packet.size - offset
decreasing_by
  obtain ⟨start, hle, hf, rfl⟩ := next?_liesAt _h
  have hinside := hf.inside
  omega

/-- Options that lie in a packet one behind the other, from an offset on. -/
inductive LiesIn (packet : Bytes) : Nat → List Field → Prop
  | nil {offset : Nat} : LiesIn packet offset []
  | cons {offset start : Nat} {f : Field} {fs : List Field} : offset ≤ start → LiesAt packet start f →
      LiesIn packet (start + 2 + f.value.length) fs → LiesIn packet offset (f :: fs)

theorem liesIn_readAll (packet : Bytes) (offset : Nat) : LiesIn packet offset (readAll packet offset) := by
  fun_induction readAll packet offset with
  | case1 => exact .nil
  | case2 offset f stop h ih =>
    obtain ⟨start, hle, hf, rfl⟩ := next?_liesAt h
    exact .cons hle hf ih

theorem LiesIn.two_mul_length_le {packet : Bytes} {offset : Nat} {fs : List Field} (h : LiesIn packet offset fs) :
    2 * fs.length ≤ packet.size - offset := by
  induction h with
  | nil => exact Nat.zero_le _
  | cons hle hf _ ih =>
    have hinside := hf.inside
    rw [List.length_cons]
    omega

/-- What is decoded from an offset on begins with what the reader finds there. -/
theorem decode_drop (packet : Bytes) (offset : Nat) :
    decode (packet.toList.drop offset) =
      match next? packet offset with
      | none => []
      | some (f, stop) => f :: decode (packet.toList.drop stop) := by
  have hfirst {offset : Nat} (hlt : offset < packet.size) :
      packet.toList.drop offset = packet[offset] :: packet.toList.drop (offset + 1) := by
    rw [List.drop_eq_getElem_cons (by simpa using hlt), Array.getElem_toList]
  have hnone {offset : Nat} (hge : ¬ offset < packet.size) : packet.toList.drop offset = [] := by
    rw [List.drop_eq_nil_iff, Array.length_toList]
    omega
  fun_induction next? packet offset with
  | case1 offset hlt hend => rw [hfirst hlt, hend, decode_end]
  | case2 offset hlt hend hpad ih => rw [hfirst hlt, hpad, decode_pad, ih]
  | case3 offset hlt hend hpad hlt' stop hle =>
    have hlong : ¬ (packet.toList.drop (offset + 1 + 1)).length < packet[offset + 1].toNat := by
      rw [List.length_drop, Array.length_toList]
      omega
    have hbody : (packet.toList.drop (offset + 1 + 1)).take packet[offset + 1].toNat =
        (packet.extract (offset + 2) stop).toList := by
      rw [Array.toList_extract, List.extract_eq_take_drop, Nat.add_sub_cancel_left]
    rw [hfirst hlt, hfirst hlt', decode_cons_cons hend hpad, if_neg hlong, hbody, List.drop_drop]
  | case4 offset hlt hend hpad hlt' stop hle =>
    have hshort : (packet.toList.drop (offset + 1 + 1)).length < packet[offset + 1].toNat := by
      rw [List.length_drop, Array.length_toList]
      omega
    rw [hfirst hlt, hfirst hlt', decode_cons_cons hend hpad, if_pos hshort]
  | case5 offset hlt hend hpad hlt' => rw [hfirst hlt, hnone hlt', decode_lone hend hpad]
  | case6 offset hlt => rw [hnone hlt, decode]

theorem options_eq_readAll (packet : Bytes) : options packet = readAll packet optionsOffset := by
  have heq (offset : Nat) : decode (packet.toList.drop offset) = readAll packet offset := by
    fun_induction readAll packet offset with
    | case1 offset h => rw [decode_drop, h]
    | case2 offset f stop h ih => rw [decode_drop, h, ← ih]
  exact heq optionsOffset

/-- What a writer has put into a packet is read back, and nothing of what follows it; an option is found
    by the first that has its code, and the architecture if that has two bytes. And no packet leads the
    reader out of it: its options lie in it one behind the other, so there is an end to them. -/
theorem options_read_back :
    (∀ (header : Vector UInt8 optionsOffset) (items : List Item) (ending : Ending),
      options (packetOf header items ending) = fields items ∧
        (∀ code value, find? (packetOf header items ending) code = some value ↔
          ∃ before behind, fields items = before ++ ⟨code, value⟩ :: behind ∧ ∀ f ∈ before, f.code ≠ code) ∧
        ∀ a, architecture? (packetOf header items ending) = some a ↔
          ∃ before hi lo behind, fields items = before ++ ⟨93, [hi, lo]⟩ :: behind ∧ (∀ f ∈ before, f.code ≠ 93) ∧
            a.toNat = 256 * hi.toNat + lo.toNat) ∧
      ∀ packet : Bytes, options packet = readAll packet optionsOffset ∧ LiesIn packet optionsOffset (options packet) ∧
        2 * (options packet).length ≤ packet.size - optionsOffset := by
  constructor
  · intro header items ending
    have hoptions := options_packetOf header items ending
    have hfind (code : UInt8) (value : List UInt8) : find? (packetOf header items ending) code = some value ↔
        ∃ before behind, fields items = before ++ ⟨code, value⟩ :: behind ∧ ∀ f ∈ before, f.code ≠ code := by
      rw [find?_eq_some_iff, hoptions]
    refine ⟨hoptions, hfind, fun a => ?_⟩
    rw [architecture?_eq_some_iff]
    constructor
    · rintro ⟨hi, lo, hf, ha⟩
      obtain ⟨before, behind, heq, hbefore⟩ := (hfind _ _).mp hf
      exact ⟨before, hi, lo, behind, heq, hbefore, ha⟩
    · rintro ⟨before, hi, lo, behind, heq, hbefore, ha⟩
      exact ⟨hi, lo, (hfind _ _).mpr ⟨before, behind, heq, hbefore⟩, ha⟩
  · intro packet
    have hlies : LiesIn packet optionsOffset (options packet) := by
      rw [options_eq_readAll]
      exact liesIn_readAll packet optionsOffset
    exact ⟨options_eq_readAll packet, hlies, hlies.two_mul_length_le⟩

end NetBoot.Net.Dhcp
