/-
  NetBoot.Report.Image — image structures written down.
-/

import NetBoot.Report.Basic
import NetBoot.Image.Loader

namespace NetBoot.Report

open Image

instance : Reported Machine := ⟨fun m => text m.name⟩

instance : Reported Disposition where
  report
    | .trapped => text "trapped"
    | .delegate => text "delegate"

instance : Reported Stage := ⟨fun s => text s.text⟩

instance : Reported FixupFamily where
  report
    | .generic => text "generic"
    | .thumb => text "thumb"
    | .riscv => text "riscv"

instance : Reported DataDirectory := ⟨fun d => list [report d.rva, report d.size]⟩

instance fatHeader : Reported Fat.Header := ⟨fun h => list [report h.magic, report h.count]⟩

instance fatEntry : Reported Fat.Entry :=
  ⟨fun e => list [report e.cpuType, report e.cpuSubtype, report e.offset, report e.size, report e.align]⟩

instance : Reported CoffHeader where
  report h := list [report h.machine, report h.numberOfSections, report h.timeDateStamp,
    report h.pointerToSymbolTable, report h.numberOfSymbols, report h.sizeOfOptionalHeader,
    report h.characteristics]

instance : Reported OptionalHeader where
  report o := fields [("magic", report o.form.magic), ("entry", report o.entryPoint),
    ("base", report o.imageBase), ("section_alignment", report o.sectionAlignment),
    ("image_size", report o.sizeOfImage), ("header_size", report o.sizeOfHeaders),
    ("subsystem", report o.subsystem), ("directories", report o.numberOfDirectories),
    ("directories_offset", report o.form.directories), ("plus", report o.isPe32Plus),
    ("efi", report o.isEfiApplication)]

instance : Reported SectionHeader where
  report s := fields [
    ("fields", list [report s.name, report s.virtualSize, report s.virtualAddress, report s.sizeOfRawData,
      report s.pointerToRawData, report s.pointerToRelocations, report s.pointerToLinenumbers,
      report s.numberOfRelocations, report s.numberOfLinenumbers, report s.characteristics]),
    ("name", report (Bytes.ofString (ImageSection.ofHeader s).nameText))]

instance : Reported ImageSection where
  report s := list [report s.nameText, report s.name, report s.virtualAddress, report s.virtualSize,
    report s.rawOffset, report s.rawSize, report s.flags]

instance imageHeader : Reported Header where
  report h := fields [("machine", report h.machine), ("subsystem", report h.subsystem),
    ("pe32_plus", report h.isPe32Plus), ("entry", report h.entryRva), ("base", report h.imageBase),
    ("section_alignment", report h.sectionAlignment), ("image_size", report h.imageSize),
    ("header_size", report h.headerSize), ("table", report h.sectionTable),
    ("count", report h.sections.length), ("sections", report h.sections), ("reloc", report h.reloc)]

/-- A mapped image with what it holds. -/
def ofMapped (image : MappedImage) (contents : Bytes) : Report :=
  fields [("base", report image.base), ("size", report image.size), ("image_size", report image.imageSize),
    ("entry", report image.entry), ("pages", report image.pages), ("bytes", rows contents)]

/-- How a launched image ended. -/
def ofLaunch (result : Except LoadError Exit) : Report :=
  report (result.map fun e =>
    fields [("status", report e.status), ("exit_data", report e.data), ("success", report e.isSuccess)])

end NetBoot.Report
