/-
  NetBoot.Menu.File — the menu file: records of fixed layout in text form.

  A record is two hexadecimal digits of kind, eight of flags, four strings, each with its length in
  four digits before it, and one more byte. The file ends at a zero byte, or where fewer than two
  bytes are left. `File.records` reads the records one by one and says how the file ended;
  `Record.encode` writes one.
-/

import NetBoot.Log
import NetBoot.Boot.Error
import NetBoot.Menu.Entry
import NetBoot.Text.Utf8

namespace NetBoot.Menu

/-! ## Reading a record -/

namespace Record

/-- Bytes that are kept of each string. -/
def maxText : Nat := 80
def maxCommand : Nat := 512
def maxGuid : Nat := 40
def maxPathPrefix : Nat := 80

/-- The first `n` bytes, and the rest. -/
def take? (n : Nat) (bs : List UInt8) : Option (List UInt8 × List UInt8) :=
  if n ≤ bs.length then some (bs.take n, bs.drop n) else none

/-- A number of `digits` hexadecimal digits, and the rest. -/
def number? (digits : Nat) (bs : List UInt8) : Option (Nat × List UInt8) := do
  let (ds, rest) ← take? digits bs
  return (← Text.ofDigits? (ds.map fun b => Char.ofNat b.toNat), rest)

/-- A string with its length before it, of which the first `max` bytes are kept, and the rest. -/
def string? (max : Nat) (bs : List UInt8) : Option (String × List UInt8) := do
  let (len, bs) ← number? 4 bs
  let (text, rest) ← take? len bs
  return (String.ofList (Text.decodeLossy (text.take max)), rest)

/-- The record at the front, and the rest. -/
def read? (bs : List UInt8) : Option (Entry × List UInt8) := do
  let (kind, bs) ← number? 2 bs
  let (flags, bs) ← number? 8 bs
  let (text, bs) ← string? maxText bs
  let (command, bs) ← string? maxCommand bs
  let (guid, bs) ← string? maxGuid bs
  let (path, bs) ← string? maxPathPrefix bs
  let (_, rest) ← take? 1 bs
  return (⟨Kind.ofCode kind, UInt32.ofNat flags, text, command, guid, path⟩, rest)

/-! ## Writing a record -/

def ofHex (digits n : Nat) : List UInt8 := (Text.hexPadded digits n).toUTF8.data.toList

def ofString (s : String) : List UInt8 :=
  let bytes := s.toUTF8.data.toList
  ofHex 4 bytes.length ++ bytes

/-- The record of an entry, closed by a line feed. -/
def encode (e : Entry) : List UInt8 :=
  ofHex 2 e.kind.code ++ ofHex 8 e.flags.toNat ++ ofString e.text ++ ofString e.command ++
    ofString e.bootEnvGuid ++ ofString e.pathPrefix ++ [10]

end Record

/-! ## Reading a file -/

namespace File

def maxEntries : Nat := 20

/-- How the records of a file end. -/
inductive Ending where
  | complete
  | malformed
  | tooMany
  deriving DecidableEq, Repr

/-- The records of a file that has room for so many, and how they end. -/
def records : Nat → List UInt8 → List Entry × Ending
  | room, bs =>
    if bs.length < 2 then ([], .complete)
    else match room with
      | 0 => ([], .tooMany)
      | room + 1 =>
        match Record.read? bs with
        | none => ([], .malformed)
        | some (e, rest) =>
          let (es, ending) := records room rest
          (e :: es, ending)

/-- The bytes before the first zero. -/
def content (data : Bytes) : List UInt8 := data.toList.takeWhile (· != 0)

def read (data : Bytes) : List Entry × Ending := records maxEntries (content data)

/-- The entries of a file that ends as it should. -/
def outcome : List Entry × Ending → Except BootError (List Entry)
  | (es, .complete) => .ok es
  | (_, .malformed) => .error .menuParse
  | (_, .tooMany) => .error .tooManyMenuEntries

def parse (data : Bytes) : Except BootError (List Entry) := outcome (read data)

private def menuFileTarget : String := "netchain_pxe::menufile"

/-- What is noted about a file that was read. -/
def notes : List Entry × Ending → List Log.Record
  | (es, ending) =>
    es.map (fun e => ⟨.debug, menuFileTarget, e.describe⟩) ++
      match ending with
      | .complete => []
      | .malformed => [⟨.error, menuFileTarget, s!"menu file record {es.length + 1} is malformed"⟩]
      | .tooMany => [⟨.error, menuFileTarget, s!"more than the allowed {maxEntries} menu entries received"⟩]

end File

end NetBoot.Menu
