/-
  NetBoot.DevicePath — device paths as firmware serialises them: nodes one behind the other,
  each with a type, a subtype and its own 16-bit length, closed by an end node.

  `withFile?` puts a file name behind the nodes of a path, and `readFrom?` copies a path out of
  memory whose extent only the path itself tells. Both walk the nodes by their declared lengths;
  `serialize` writes a list of nodes the way both expect it.
-/

import NetBoot.Text.Utf16

namespace NetBoot

/-- A serialised device path. -/
structure DevicePath where
  bytes : Bytes
  deriving DecidableEq, Repr

namespace DevicePath

def mediaType : UInt8 := 0x04
def filePathSubtype : UInt8 := 0x04
def endType : UInt8 := 0x7f
def endEntireSubtype : UInt8 := 0xff

/-- One node; the length it declares is four more than its data. -/
structure Node where
  type : UInt8
  subtype : UInt8
  data : Bytes
  deriving DecidableEq, Repr

namespace Node

def length (n : Node) : Nat := 4 + n.data.size

def encode (n : Node) : Bytes := #[n.type, n.subtype] ++ Bytes.ofU16 (UInt16.ofNat n.length) ++ n.data

/-- The node that closes the whole path. -/
def isEnd (n : Node) : Bool := n.type == endType && n.subtype == endEntireSubtype

def endEntire : Node := ⟨endType, endEntireSubtype, #[]⟩

/-- The node that names a file: the zero-terminated name in UTF-16. -/
def file (name : String) : Node :=
  ⟨mediaType, filePathSubtype,
    ((Text.encodeUtf16 name.toList ++ [0]).flatMap fun u => (Bytes.ofU16 u).toList).toArray⟩

/-- Does the length fit its 16-bit field? -/
def fits (n : Node) : Bool := n.length < 0x10000

end Node

/-- The nodes one behind the other. -/
def serialize (nodes : List Node) : Bytes := nodes.foldr (fun n r => n.encode ++ r) #[]

/-- Is the node at `pos` the end of the whole path? Memory behind the bytes reads as zero. -/
def isEndAt (b : Bytes) (pos : Nat) : Bool :=
  b.getD pos 0 == endType && b.getD (pos + 1) 0 == endEntireSubtype

/-- The length that the node at `pos` declares. -/
def lengthAt (b : Bytes) (pos : Nat) : Nat :=
  (b.getD (pos + 2) 0).toNat + 256 * (b.getD (pos + 3) 0).toNat

/-- Where the nodes before the end node stop: at the end node, at a node shorter than its own
    header, or where the bytes run out. -/
def bodyEnd (b : Bytes) (pos : Nat) : Nat :=
  if pos + 4 ≤ b.size then
    if isEndAt b pos then pos
    else if lengthAt b pos < 4 then pos
    else bodyEnd b (pos + lengthAt b pos)
  else min pos b.size
termination_by b.size - pos

/-- The nodes before the end node. -/
def body (p : DevicePath) : Bytes := p.bytes.extract 0 (bodyEnd p.bytes 0)

/-- The path of a file on this device; `none` when the name is too long for a node. -/
def withFile? (p : DevicePath) (name : String) : Option DevicePath :=
  let node := Node.file name
  if node.fits then some ⟨p.body ++ node.encode ++ Node.endEntire.encode⟩ else none

/-- The longest path that is copied. -/
def maxLength : Nat := 0x10000

/-- Length of the path that starts at the front of `memory`, its end node included; `none` when
    a node is shorter than its own header or the path is longer than `maxLength`. -/
def extent? (memory : Bytes) (pos : Nat) : Option Nat :=
  if pos + 4 ≤ maxLength then
    if lengthAt memory pos < 4 then none
    else if isEndAt memory pos then
      if pos + lengthAt memory pos ≤ maxLength then some (pos + lengthAt memory pos) else none
    else extent? memory (pos + lengthAt memory pos)
  else none
termination_by maxLength - pos

/-- A copy of the path at the front of `memory`. -/
def readFrom? (memory : Bytes) : Option DevicePath :=
  (extent? memory 0).map fun n => ⟨memory.resize n⟩

end DevicePath

end NetBoot
