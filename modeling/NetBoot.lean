/-
  NetBoot — booting a machine from the network: what the boot program does, and what holds of it.

  `Image` loads and enters an executable file. `Boot`, `Menu` and `Net` find the server, read its menu and
  choose what to start. `Uefi` is the firmware beneath them, and `Sim` a machine to run them on; `Report` says
  in text how a run went. What is proved of each stands in the module of the same name under `Proofs`.
-/

import NetBoot.Check
import NetBoot.Image.Sample
import NetBoot.Proofs.Boot.Configuration
import NetBoot.Proofs.Boot.Contact
import NetBoot.Proofs.Boot.Delays
import NetBoot.Proofs.Boot.Diagnostics
import NetBoot.Proofs.Boot.Disposal
import NetBoot.Proofs.Boot.Effects
import NetBoot.Proofs.Boot.Enforcement
import NetBoot.Proofs.Boot.FileName
import NetBoot.Proofs.Boot.Outcome
import NetBoot.Proofs.Boot.Program
import NetBoot.Proofs.Boot.Repetition
import NetBoot.Proofs.Boot.Selection
import NetBoot.Proofs.DevicePath
import NetBoot.Proofs.Image.Building
import NetBoot.Proofs.Image.Container
import NetBoot.Proofs.Image.Contents
import NetBoot.Proofs.Image.Entry
import NetBoot.Proofs.Image.Errands
import NetBoot.Proofs.Image.Format
import NetBoot.Proofs.Image.Records
import NetBoot.Proofs.Image.Relocation.Acceptance
import NetBoot.Proofs.Image.Relocation.Additive
import NetBoot.Proofs.Image.Relocation.Encoding
import NetBoot.Proofs.Image.Relocation.Immediate
import NetBoot.Proofs.Image.Relocation.Job
import NetBoot.Proofs.Image.Relocation.Operand
import NetBoot.Proofs.Image.Relocation.Unmoved
import NetBoot.Proofs.Image.Stages
import NetBoot.Proofs.Image.Strict.Basic
import NetBoot.Proofs.Image.Strict.Header
import NetBoot.Proofs.Image.Strict.Mapping
import NetBoot.Proofs.Image.Strict.Pages
import NetBoot.Proofs.Image.Strict.Relocation
import NetBoot.Proofs.Image.Strict.Safety
import NetBoot.Proofs.Image.TrapHistory
import NetBoot.Proofs.Image.Trapping
import NetBoot.Proofs.Image.Truncation
import NetBoot.Proofs.Image.Validation
import NetBoot.Proofs.Image.Window
import NetBoot.Proofs.Menu.Browsing
import NetBoot.Proofs.Menu.Countdown
import NetBoot.Proofs.Menu.Grammar
import NetBoot.Proofs.Menu.Limits
import NetBoot.Proofs.Net.DottedQuad
import NetBoot.Proofs.Net.Options
import NetBoot.Proofs.Net.Redirection
import NetBoot.Proofs.Sim.Waiting
import NetBoot.Proofs.Smbios
import NetBoot.Proofs.Text.Ucs2
import NetBoot.Proofs.Uefi.Dns
import NetBoot.Proofs.Uefi.Installation
import NetBoot.Proofs.Uefi.KeyWait
import NetBoot.Proofs.Uefi.Locking
import NetBoot.Proofs.Uefi.Pool
import NetBoot.Proofs.Uefi.Records
import NetBoot.Proofs.Uefi.Resume
import NetBoot.Report.Detail
import NetBoot.Report.Sim
import NetBoot.Report.Uefi
import NetBoot.Sim.Machine
