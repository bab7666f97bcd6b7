/-
  NetBoot.Report.Basic — values written down: a tree of numbers, texts and named parts.

  A report is what a run leaves behind for whoever compares it with another. Addresses, handles and
  other 64-bit words are hexadecimal text; bytes are hexadecimal text too, or, when there are many,
  rows of sixteen of which those of zeros are left out.
-/

import NetBoot.Boot.Error
import NetBoot.Platform

namespace NetBoot

inductive Report where
  | none
  | flag (b : Bool)
  | number (n : Int)
  | text (s : String)
  | list (items : List Report)
  | fields (members : List (String × Report))
  deriving Repr

/-- What can be written down. -/
class Reported (α : Type) where
  report : α → Report

export Reported (report)

namespace Report

instance : Inhabited Report := ⟨none⟩

instance : Reported Report := ⟨id⟩
instance : Reported Bool := ⟨flag⟩
instance : Reported Nat := ⟨fun n => number n⟩
instance : Reported Int := ⟨number⟩
instance : Reported UInt8 := ⟨fun n => number n.toNat⟩
instance : Reported UInt16 := ⟨fun n => number n.toNat⟩
instance : Reported UInt32 := ⟨fun n => number n.toNat⟩
instance : Reported UInt64 := ⟨fun n => text (Text.hex0x n.toNat)⟩
instance : Reported String := ⟨text⟩
instance : Reported Unit := ⟨fun _ => none⟩

instance {α : Type} [Reported α] : Reported (Option α) where
  report
    | some a => report a
    | .none => none

instance {α : Type} [Reported α] : Reported (List α) := ⟨fun l => list (l.map report)⟩

instance {α β : Type} [Reported α] [Reported β] : Reported (α × β) := ⟨fun p => list [report p.1, report p.2]⟩

/-- Something that happened, with its particulars. -/
def row (name : String) (parts : List Report) : Report := list (text name :: parts)

instance : Reported Bytes := ⟨fun b => text (Text.hexOfBytes b.toList)⟩

/-- The sixteen bytes from `pos` on, unless they are all zero. -/
def bytesRow (b : Bytes) (pos : Nat) : Option Report :=
  let part := b.extract pos (pos + 16)
  if part.all (· == 0) then .none else some (list [report pos, report part])

/-- Bytes in rows. -/
def rows (b : Bytes) : Report :=
  fields [("len", report b.size),
    ("rows", list ((List.range ((b.size + 15) / 16)).filterMap fun i => bytesRow b (16 * i)))]

/-! ## Outcomes -/

/-- What went wrong, by its name and in words. -/
def fault (name message : String) : Report := fields [("error", text name), ("message", text message)]

instance : Reported ServiceError := ⟨fun e => fault e.name e.message⟩
instance : Reported Image.LoadError := ⟨fun e => fault e.name e.message⟩
instance : Reported BootError := ⟨fun e => fault e.name e.message⟩

instance {ε α : Type} [Reported ε] [Reported α] : Reported (Except ε α) where
  report
    | .ok a => fields [("ok", report a)]
    | .error e => report e

/-- The value, or the message of the error. -/
def orMessage {α : Type} [Reported α] : Except ServiceError α → Report
  | .ok a => report a
  | .error e => text e.message

/-! ## Small types -/

instance : Reported Status := ⟨fun s => text s.text⟩
instance : Reported Handle := ⟨fun h => report h.val⟩
instance : Reported Net.Ipv4 := ⟨fun a => report a.octets⟩
instance : Reported Net.Mac := ⟨fun m => text m.text⟩
instance : Reported DevicePath := ⟨fun p => report p.bytes⟩

instance : Reported Key where
  report
    | .char c => text ("char:" ++ c.toString)
    | .enter => text "enter"
    | .escape => text "escape"
    | .backspace => text "backspace"
    | .up => text "up"
    | .down => text "down"
    | .function n => text s!"f{n.toNat}"
    | .unknown n => text s!"unknown:{n.toNat}"

instance : Reported LoadedImage where
  report r := fields [("parent", report r.parent), ("device", report r.device), ("file_path", report r.path),
    ("load_options", report r.options), ("base", report r.base), ("size", report r.size)]

instance : Reported Exit where
  report e := fields [("status", report e.status), ("exit_data", report e.data)]

end Report

end NetBoot
