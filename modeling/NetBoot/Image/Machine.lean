/-
  NetBoot.Image.Machine — the machines that an image can be built for.

  A loader accepts images of one machine. The machine also decides which instruction fixups the
  relocation table of an image may use, and which CPU type marks its part of a fat container.
-/

import NetBoot.Bytes

namespace NetBoot.Image

inductive Machine where
  | i386
  | amd64
  | armThumb
  | arm64
  | riscv32
  | riscv64
  deriving DecidableEq, Repr

/-- The instruction fixups that a relocation table may use. -/
inductive FixupFamily where
  | generic
  | thumb
  | riscv
  deriving DecidableEq, Repr

namespace Machine

def all : List Machine := [i386, amd64, armThumb, arm64, riscv32, riscv64]

/-- The machine's number in an image header. -/
def code : Machine → UInt16
  | i386 => 0x14c
  | amd64 => 0x8664
  | armThumb => 0x1c2
  | arm64 => 0xaa64
  | riscv32 => 0x5032
  | riscv64 => 0x5064

def ofCode? (n : UInt16) : Option Machine := all.find? fun m => m.code == n

def name : Machine → String
  | i386 => "i386"
  | amd64 => "x86_64"
  | armThumb => "arm"
  | arm64 => "aarch64"
  | riscv32 => "riscv32"
  | riscv64 => "riscv64"

/-- The machine this boot client itself runs on. -/
def native : Machine := amd64

def family : Machine → FixupFamily
  | armThumb => .thumb
  | riscv32 | riscv64 => .riscv
  | i386 | amd64 | arm64 => .generic

/-- Marks a CPU type of 64-bit addresses. -/
def cpuAbi64 : UInt32 := 0x01000000

/-- The CPU type in a fat container; a machine without one is in no container. -/
def cpuType? : Machine → Option UInt32
  | i386 => some 7
  | amd64 => some (7 ||| cpuAbi64)
  | armThumb => some 12
  | arm64 => some (12 ||| cpuAbi64)
  | riscv32 | riscv64 => none

theorem ofCode?_code (m : Machine) : ofCode? m.code = some m := by cases m <;> decide

end Machine

end NetBoot.Image
