/-
  NetBoot.Proofs.DevicePath — a file name put behind a device path, and the path copied out of memory.

  Two walkers go from node to node by the lengths that the nodes declare: one looks for the place of the
  file name, the other for the end of a path in memory. A node that is carried whole is read as what it
  is and taken in one step by either (`bodyEnd_node`, `extent?_node`), whatever its data look like, so
  both pass all nodes of a path and stop at its end (`body_path`, `readFrom?_path`). A path with a file
  name is again such a path, which is why another name goes behind the first.
-/

import NetBoot.DevicePath
import NetBoot.Proofs.Bytes
import NetBoot.Proofs.Text.Utf16

namespace NetBoot.DevicePath

/-! ## Paths -/

/-- A node before the end of a path. Its length fits the field for it. -/
structure Node.Inner (n : Node) : Prop where
  fits : n.fits = true
  inner : n.isEnd = false

/-- What stands behind the nodes of a path: nothing, or an end node and anything behind that. -/
inductive Tail : Bytes → Prop
  | bare : Tail #[]
  | ended (e : Node) (behind : Bytes) (he : e.isEnd = true) : Tail (e.encode ++ behind)

/-- A path as it is copied: nodes before its end, a node that ends it, and nothing behind that. -/
def Closed (p : DevicePath) : Prop :=
  ∃ nodes e, (∀ n ∈ nodes, Node.Inner n) ∧ e.isEnd = true ∧ e.fits = true ∧ p.bytes = serialize (nodes ++ [e]) ∧
    p.bytes.size ≤ 65536

/-- The units of a file name, without the zero at their end. -/
def nameUnits (name : String) : List UInt16 := Text.encodeUtf16 name.toList

/-- The size of the node that names a file. -/
def fileNodeSize (name : String) : Nat := 4 + 2 * ((nameUnits name).length + 1)

/-- These bytes are the media node that names a file: they declare their own length, and hold the name
    in UTF-16 with a zero behind it. -/
structure NamesFile (bytes : Bytes) (name : String) : Prop where
  type : bytes[0]? = some 0x04
  subtype : bytes[1]? = some 0x04
  length : (bytes.u16At? 2).map (·.toNat) = some bytes.size
  size : bytes.size = fileNodeSize name
  units : ∀ i u, (nameUnits name ++ [0])[i]? = some u → bytes.u16At? (4 + 2 * i) = some u
  reads : Text.decodeUtf16 (nameUnits name) = name.toList

/-! ## One node -/

namespace Node

@[simp] theorem size_encode (n : Node) : n.encode.size = n.length := by
  simp [encode, length, Bytes.ofU16, Nat.add_comm]

theorem getElem?_encode (n : Node) :
    n.encode[0]? = some n.type ∧ n.encode[1]? = some n.subtype ∧
      n.encode[2]? = some (UInt8.ofNat (UInt16.ofNat n.length).toNat) ∧
      n.encode[3]? = some (UInt8.ofNat ((UInt16.ofNat n.length).toNat / 256)) := by
  simp [encode, Bytes.ofU16, leBytes, Array.getElem?_append]

end Node

section Walk

variable {b : Bytes} {pos : Nat} {n : Node}

theorem isEndAt_node (h : b.Carries pos n.encode) : isEndAt b pos = n.isEnd := by
  have hsize := n.size_encode
  obtain ⟨htype, hsubtype, -, -⟩ := n.getElem?_encode
  have h0 := h 0 (by rw [hsize, Node.length]; omega)
  have h1 := h 1 (by rw [hsize, Node.length]; omega)
  rw [htype, Nat.add_zero] at h0
  rw [hsubtype] at h1
  simp [isEndAt, Node.isEnd, Array.getD_eq_getD_getElem?, h0, h1]

theorem lengthAt_node (h : b.Carries pos n.encode) (hfits : n.fits = true) : lengthAt b pos = n.length := by
  have hsize := n.size_encode
  obtain ⟨-, -, hlow, hhigh⟩ := n.getElem?_encode
  have h2 := h 2 (by rw [hsize, Node.length]; omega)
  have h3 := h 3 (by rw [hsize, Node.length]; omega)
  have hlt : n.length < 0x10000 := by simpa [Node.fits] using hfits
  have hlength : (UInt16.ofNat n.length).toNat = n.length := UInt16.toNat_ofNat_of_lt' hlt
  rw [hlow, hlength] at h2
  rw [hhigh, hlength] at h3
  simp only [lengthAt, Array.getD_eq_getD_getElem?, h2, h3, Option.getD_some, UInt8.toNat_ofNat']
  omega

theorem bodyEnd_node (h : b.Carries pos n.encode) (hn : n.Inner) : bodyEnd b pos = bodyEnd b (pos + n.length) := by
  have hsize := n.size_encode
  have hle := h.le (by rw [hsize, Node.length]; omega)
  have hlength := lengthAt_node h hn.fits
  rw [hsize, Node.length] at hle
  rw [bodyEnd, if_pos (by omega), isEndAt_node h, hn.inner, if_neg Bool.false_ne_true, hlength,
    if_neg (by rw [Node.length]; omega)]

theorem bodyEnd_end (h : b.Carries pos n.encode) (hn : n.isEnd = true) : bodyEnd b pos = pos := by
  have hle := h.le (by rw [n.size_encode, Node.length]; omega)
  rw [n.size_encode, Node.length] at hle
  rw [bodyEnd, if_pos (by omega), isEndAt_node h, if_pos hn]

theorem extent?_node (h : b.Carries pos n.encode) (hn : n.Inner) (hpos : pos + 4 ≤ maxLength) :
    extent? b pos = extent? b (pos + n.length) := by
  have hlength := lengthAt_node h hn.fits
  rw [extent?, if_pos hpos, hlength, if_neg (by rw [Node.length]; omega), isEndAt_node h, hn.inner,
    if_neg Bool.false_ne_true]

theorem extent?_end (h : b.Carries pos n.encode) (hn : n.isEnd = true) (hfits : n.fits = true)
    (hpos : pos + n.length ≤ maxLength) : extent? b pos = some (pos + n.length) := by
  have hlength := lengthAt_node h hfits
  have hroom : pos + 4 ≤ maxLength := by rw [Node.length] at hpos; omega
  rw [extent?, if_pos hroom, hlength, if_neg (by rw [Node.length]; omega), isEndAt_node h, if_pos hn, if_pos hpos]

end Walk

/-! ## All nodes -/

section Nodes

variable {b : Bytes} {pos : Nat} {n : Node} {nodes : List Node}

@[simp] theorem serialize_nil : serialize [] = #[] := rfl

@[simp] theorem serialize_cons (n : Node) (nodes : List Node) :
    serialize (n :: nodes) = n.encode ++ serialize nodes := rfl

theorem serialize_append (nodes nodes' : List Node) :
    serialize (nodes ++ nodes') = serialize nodes ++ serialize nodes' := by
  induction nodes with
  | nil => simp
  | cons n nodes ih => simp [ih, Array.append_assoc]

theorem bodyEnd_nodes (h : b.Carries pos (serialize nodes)) (hnodes : ∀ n ∈ nodes, n.Inner) :
    bodyEnd b pos = bodyEnd b (pos + (serialize nodes).size) := by
  induction nodes generalizing pos with
  | nil => simp
  | cons n nodes ih =>
    rw [serialize_cons, Bytes.carries_append] at h
    obtain ⟨hn, hnodes⟩ := List.forall_mem_cons.mp hnodes
    rw [bodyEnd_node h.1 hn, ← n.size_encode, ih h.2 hnodes, serialize_cons, Array.size_append, Nat.add_assoc]

theorem extent?_nodes (h : b.Carries pos (serialize nodes)) (hnodes : ∀ n ∈ nodes, n.Inner)
    (hroom : pos + (serialize nodes).size + 4 ≤ maxLength) :
    extent? b pos = extent? b (pos + (serialize nodes).size) := by
  induction nodes generalizing pos with
  | nil => simp
  | cons n nodes ih =>
    rw [serialize_cons, Bytes.carries_append] at h
    rw [serialize_cons, Array.size_append] at hroom ⊢
    obtain ⟨hn, hnodes⟩ := List.forall_mem_cons.mp hnodes
    rw [extent?_node h.1 hn (by omega), ← n.size_encode, ih h.2 hnodes (by omega), Nat.add_assoc]

/-- The nodes of a path are its body, whatever they hold and whatever stands behind them. -/
theorem body_path (hnodes : ∀ n ∈ nodes, n.Inner) {tail : Bytes} (htail : Tail tail) :
    body ⟨serialize nodes ++ tail⟩ = serialize nodes := by
  have hcarries : (serialize nodes ++ tail).Carries 0 (serialize nodes) := (Bytes.carries_self _).append tail
  have hend : bodyEnd (serialize nodes ++ tail) (serialize nodes).size = (serialize nodes).size := by
    cases htail with
    | bare =>
      rw [Array.append_empty, bodyEnd, if_neg (by omega), Nat.min_self]
    | ended e behind he =>
      rw [← Array.append_assoc]
      exact bodyEnd_end (Bytes.carries_between _ _ _) he
  rw [body, bodyEnd_nodes hcarries hnodes, Nat.zero_add, hend]
  simp

/-- A path that closes with an end node is read from memory to that node and not further. -/
theorem readFrom?_closed {p : DevicePath} (h : p.Closed) (behind : Bytes) : readFrom? (p.bytes ++ behind) = some p := by
  obtain ⟨bytes⟩ := p
  obtain ⟨nodes, e, hnodes, he, hfits, hbytes, hsize⟩ := h
  have hsplit : bytes = serialize nodes ++ e.encode := by
    rw [show bytes = _ from hbytes, serialize_append, serialize_cons, serialize_nil, Array.append_empty]
  dsimp only at hsize ⊢
  rw [hsplit, Array.size_append, Node.size_encode] at hsize
  have hroom : (serialize nodes).size + 4 ≤ maxLength := by
    rw [Node.length] at hsize
    rw [maxLength]
    omega
  have hcarries : (serialize nodes ++ e.encode ++ behind).Carries 0 (serialize nodes) :=
    ((Bytes.carries_self _).append _).append _
  have hfront : extent? (serialize nodes ++ e.encode ++ behind) 0 = some (serialize nodes ++ e.encode).size := by
    rw [extent?_nodes hcarries hnodes (by rw [Nat.zero_add]; exact hroom), Nat.zero_add,
      extent?_end (Bytes.carries_between _ _ _) he hfits hsize, Array.size_append, Node.size_encode]
  rw [hsplit, readFrom?, hfront, Option.map_some, Bytes.resize_append]

theorem readFrom?_path (hnodes : ∀ n ∈ nodes, n.Inner)
    (hsize : (serialize (nodes ++ [.endEntire])).size ≤ maxLength) (behind : Bytes) :
    readFrom? (serialize (nodes ++ [.endEntire]) ++ behind) = some ⟨serialize (nodes ++ [.endEntire])⟩ :=
  readFrom?_closed ⟨nodes, .endEntire, hnodes, rfl, rfl, rfl, hsize⟩ behind

/-- Of memory only the extent is looked at. -/
theorem extent?_resize {memory : Bytes} {n : Nat} (h : extent? memory pos = some n) :
    pos + 4 ≤ n ∧ extent? (memory.resize n) pos = some n := by
  have hsame {i : Nat} (hi : i < n) : (memory.resize n).getD i 0 = memory.getD i 0 := by
    rw [Array.getD_eq_getD_getElem?, Array.getD_eq_getD_getElem?, Bytes.getElem?_resize, if_pos hi]
    rfl
  have hlength {pos : Nat} (hpos : pos + 4 ≤ n) : lengthAt (memory.resize n) pos = lengthAt memory pos := by
    rw [lengthAt, lengthAt, hsame (by omega), hsame (by omega)]
  have hend {pos : Nat} (hpos : pos + 4 ≤ n) : isEndAt (memory.resize n) pos = isEndAt memory pos := by
    rw [isEndAt, isEndAt, hsame (by omega), hsame (by omega)]
  fun_induction extent? memory pos with
  | case1 => cases h
  | case2 pos hroom hwhole hlast hle =>
    obtain rfl := Option.some.inj h
    have hpos : pos + 4 ≤ pos + lengthAt memory pos := by omega
    refine ⟨hpos, ?_⟩
    rw [extent?, if_pos hroom, hlength hpos, if_neg hwhole, hend hpos, if_pos hlast, if_pos hle]
  | case3 => cases h
  | case4 pos hroom hwhole hlast ih =>
    obtain ⟨hbehind, hrest⟩ := ih h
    have hpos : pos + 4 ≤ n := by omega
    refine ⟨hpos, ?_⟩
    rw [extent?, if_pos hroom, hlength hpos, if_neg hwhole, hend hpos, if_neg hlast, hrest]
  | case5 => cases h

/-- A copy of a path is itself copied as it is. -/
theorem readFrom?_readFrom? {memory : Bytes} {p : DevicePath} (h : readFrom? memory = some p) :
    readFrom? p.bytes = some p := by
  obtain ⟨n, hn, rfl⟩ := Option.map_eq_some_iff.mp h
  have hself := Bytes.resize_self (memory.resize n)
  rw [Bytes.size_resize] at hself
  rw [readFrom?, (extent?_resize hn).2, Option.map_some, hself]

end Nodes

/-! ## The node of a file -/

section File

variable (name : String)

theorem data_file : (Node.file name).data = (nameUnits name ++ [0]).foldr (fun u r => Bytes.ofU16 u ++ r) #[] := by
  have hpieces (us : List UInt16) : (us.flatMap fun u => (Bytes.ofU16 u).toList).toArray =
      us.foldr (fun u r => Bytes.ofU16 u ++ r) #[] := by
    induction us with
    | nil => rfl
    | cons u us ih => rw [List.flatMap_cons, ← List.append_toArray, ih, List.foldr_cons, Array.toArray_toList]
  exact hpieces (nameUnits name ++ [0])

theorem length_file : (Node.file name).length = fileNodeSize name := by
  rw [Node.length, data_file, Bytes.size_pieces Bytes.size_ofU16, List.length_append, fileNodeSize]
  rfl

theorem inner_file {name : String} (h : fileNodeSize name ≤ 65535) : (Node.file name).Inner := by
  refine ⟨?_, rfl⟩
  rw [Node.fits, length_file, decide_eq_true_iff]
  omega

theorem namesFile_file {name : String} (h : fileNodeSize name ≤ 65535) : NamesFile (Node.file name).encode name := by
  have hsize : (Node.file name).encode.size = fileNodeSize name := by rw [Node.size_encode, length_file]
  obtain ⟨htype, hsubtype, -, -⟩ := (Node.file name).getElem?_encode
  have hcarries := Bytes.carries_self (Node.file name).encode
  rw [Node.encode, Bytes.carries_append, Bytes.carries_append] at hcarries
  obtain ⟨⟨-, hlength⟩, hdata⟩ := hcarries
  refine ⟨htype, hsubtype, ?_, hsize, ?_, Text.decodeUtf16_encodeUtf16 _⟩
  · have hword : (UInt16.ofNat (Node.file name).length).toNat = fileNodeSize name := by
      rw [length_file]
      exact UInt16.toNat_ofNat_of_lt' (by rw [UInt16.size]; omega)
    rw [hsize, ← hword]
    exact congrArg _ (Bytes.Carries.u16At? hlength)
  · intro i u hu
    have hunit := Bytes.carries_pieces Bytes.size_ofU16 hu
    rw [← data_file] at hunit
    exact (hdata.trans hunit).u16At?

end File

/-! ## A file name behind a path -/

section Append

variable {nodes : List Node}

theorem withFile?_path (hnodes : ∀ n ∈ nodes, n.Inner) {tail : Bytes} (htail : Tail tail) (name : String) :
    withFile? ⟨serialize nodes ++ tail⟩ name =
      if 65535 < fileNodeSize name then none else some ⟨serialize (nodes ++ [.file name, .endEntire])⟩ := by
  have hfits : (Node.file name).fits = true ↔ ¬65535 < fileNodeSize name := by
    rw [Node.fits, length_file, decide_eq_true_iff]
    omega
  unfold withFile?
  dsimp only
  by_cases h : 65535 < fileNodeSize name
  · rw [if_neg (by rw [hfits]; exact not_not_intro h), if_pos h]
  · rw [if_pos (hfits.mpr h), if_neg h, body_path hnodes htail, serialize_append, serialize_cons, serialize_cons,
      serialize_nil, Array.append_empty, Array.append_assoc]

theorem inner_append_file (hnodes : ∀ n ∈ nodes, n.Inner) {name : String} (h : fileNodeSize name ≤ 65535) :
    ∀ n ∈ nodes ++ [.file name], n.Inner := by
  intro n hn
  rcases List.mem_append.mp hn with hn | hn
  · exact hnodes n hn
  · rw [List.mem_singleton.mp hn]
    exact inner_file h

end Append

/-- The path of a file has the nodes of the device, the node that names the file, and an end node, whatever
    stood behind the nodes before; there is none only for a name too long for a node. A second name goes
    behind the first, and a path that is not too long is read from memory as it is, whatever follows it. -/
theorem withFile?_appends {nodes : List Node} {tail : Bytes} (hnodes : ∀ n ∈ nodes, n.Inner) (htail : Tail tail)
    (name : String) :
    (withFile? ⟨serialize nodes ++ tail⟩ name =
      if 65535 < fileNodeSize name then none else some ⟨serialize (nodes ++ [.file name, .endEntire])⟩) ∧
    (fileNodeSize name ≤ 65535 →
      NamesFile (Node.file name).encode name ∧
      (∀ name', withFile? ⟨serialize (nodes ++ [.file name, .endEntire])⟩ name' =
        if 65535 < fileNodeSize name' then none
        else some ⟨serialize (nodes ++ [.file name, .file name', .endEntire])⟩) ∧
      ((serialize (nodes ++ [.file name, .endEntire])).size ≤ 65536 → ∀ behind,
        readFrom? (serialize (nodes ++ [.file name, .endEntire]) ++ behind) =
          some ⟨serialize (nodes ++ [.file name, .endEntire])⟩)) := by
  refine ⟨withFile?_path hnodes htail name, fun hfits => ⟨namesFile_file hfits, ?_, ?_⟩⟩
  · intro name'
    have hend : Tail Node.endEntire.encode := by
      have h := Tail.ended .endEntire #[] rfl
      rwa [Array.append_empty] at h
    have hagain := withFile?_path (inner_append_file hnodes hfits) hend name'
    simpa [serialize_append] using hagain
  · intro hsize behind
    have hsplit : nodes ++ [.file name, .endEntire] = nodes ++ [.file name] ++ [.endEntire] := by simp
    rw [hsplit] at hsize ⊢
    exact readFrom?_path (inner_append_file hnodes hfits) hsize behind

/-- The data of the first node look like an end node, the second ends an instance but not the path, and the
    name has a character of two units. -/
theorem withFile?_lookalikes :
    let nodes : List Node := [⟨0x03, 0x0b, #[0x7f, 0xff, 4, 0]⟩, ⟨0x7f, 0x01, #[]⟩]
    let path := serialize (nodes ++ [.file "/😀", .endEntire])
    (∀ n ∈ nodes, n.Inner) ∧ Tail (Node.endEntire.encode ++ #[0x04, 0x04]) ∧
      path = #[0x03, 0x0b, 8, 0, 0x7f, 0xff, 4, 0, 0x7f, 0x01, 4, 0, 0x04, 0x04, 12, 0, 0x2f, 0, 0x3d, 0xd8, 0, 0xde,
        0, 0, 0x7f, 0xff, 4, 0] ∧
      withFile? ⟨serialize nodes ++ (Node.endEntire.encode ++ #[0x04, 0x04])⟩ "/😀" = some ⟨path⟩ ∧
      ∀ behind, readFrom? (path ++ behind) = some ⟨path⟩ := by
  intro nodes path
  have hnodes : ∀ n ∈ nodes, n.Inner := by
    intro n hn
    simp only [nodes, List.mem_cons, List.not_mem_nil, or_false] at hn
    rcases hn with rfl | rfl <;> exact ⟨by decide, by decide⟩
  have htail : Tail (Node.endEntire.encode ++ #[0x04, 0x04]) := .ended .endEntire _ rfl
  have hname : fileNodeSize "/😀" = 12 := by decide +kernel
  have hpath : path = #[0x03, 0x0b, 8, 0, 0x7f, 0xff, 4, 0, 0x7f, 0x01, 4, 0, 0x04, 0x04, 12, 0, 0x2f, 0, 0x3d, 0xd8,
      0, 0xde, 0, 0, 0x7f, 0xff, 4, 0] := by decide +kernel
  obtain ⟨hfile, hmore⟩ := withFile?_appends hnodes htail "/😀"
  rw [hname, if_neg (by decide)] at hfile
  obtain ⟨-, -, hread⟩ := hmore (by rw [hname]; decide)
  refine ⟨hnodes, htail, hpath, hfile, hread ?_⟩
  have hsize : path.size = 28 := by rw [hpath]; rfl
  exact Nat.le_trans (Nat.le_of_eq hsize) (by decide)

end NetBoot.DevicePath
