/-
  NetBoot.Report.Uefi — what a UEFI firmware was called for, and what it shows, written down.
-/

import NetBoot.Report.Basic
import NetBoot.Uefi.Platform

namespace NetBoot.Report

open Uefi

instance hookError : Reported HookError := ⟨fun e => fault e.name e.message⟩

instance : Reported Halt := ⟨fun e => fault "panic" e.message⟩

instance : Reported Guid := ⟨fun g => text g.text⟩

instance : Reported Buffer where
  report
    | .numbered n => report n
    | .located a => report a

/-- Page requests take any pages, of the type for the code of a loaded program. -/
def pageRequest : List Report := [report 0, report 1]

/-- Pool requests take memory of the type for the data of a loaded program. -/
def poolRequest : List Report := [report 2]

/-- A lookup is configured without servers of its own, with default settings, a cache and UDP;
    everything else is left to the stack. -/
def dnsConfiguration : List Report :=
  [report 0, report 1, report 1, report 17, report 0, report 0, report 0]

/-- Bytes of a block of a file transfer. -/
def transferBlock : Nat := 1456

/-- Transfers overwrite nothing, use their buffer and take no multicast information. -/
def ofTransfer (server : Net.Ipv4) (name : String) (buffer : Option Nat) : Report :=
  row "mtftp" [report (if buffer.isSome then 2 else 1), report server, report name, report transferBlock,
    report 0, report 0, flag true, report buffer.isNone, report (UInt64.ofNat (buffer.getD 0))]

instance uefiEvent : Reported Uefi.Event where
  report
    | .allocatePages pages status => row "allocate_pages" (pageRequest ++ [report pages, report status])
    | .freePages base pages => row "free_pages" [report base, report pages]
    | .allocatePool size => row "allocate_pool" (poolRequest ++ [report size.toNat])
    | .freePool buffer => row "free_pool" [report buffer]
    | .createEvent => row "create_event" [report 0, report 0]
    | .closeEvent => row "close_event" []
    | .loadImage parent path source => row "load_image" [report 0, report parent, report path, rows source]
    | .startImage h => row "start_image" [report h]
    | .exit h status size hasData => row "exit" [report h, report status, report size, report hasData]
    | .unloadImage h => row "unload_image" [report h]
    | .stall microseconds count => row "stall" [report microseconds, report count]
    | .setWatchdogTimer => row "set_watchdog_timer" [report 0, report 0, report 0, flag true]
    | .calculateCrc size => row "calculate_crc32" [report size]
    | .getVariable name vendor size => row "get_variable" [report name, report vendor, report size]
    | .setColors colors => row "set_attribute" [report colors]
    | .clearScreen => row "clear_screen" []
    | .setCursor column line => row "set_cursor_position" [report column, report line]
    | .output s => row "output" [report s]
    | .transfer server name buffer => ofTransfer server name buffer
    | .verify image => row "shim_verify" [report image]
    | .createChild => row "dns_create_child" []
    | .destroyChild child => row "dns_destroy_child" [report child]
    | .configure => row "dns_configure" dnsConfiguration
    | .lookUp name => row "dns_host_name_to_ip" [report name]
    | .cancel => row "dns_cancel" []
    | .enter h => row "entry" [report h, flag true]
    | .exitReturned status => row "entry_act" [text "exit", report status]
    | .unloadReturned status => row "entry_act" [text "unload", report status]

/-- The calls since the last time, and a firmware that has not been called. -/
def takeUefiEvents (w : World) : Report × World :=
  (report (Uefi.Event.joined w.events.toList), { w with events := #[] })

instance : Reported Net.PxePacket where
  report p := fields [("server", report p.server), ("file", report p.file), ("raw", rows p.raw)]

instance : Reported Net.BaseCodeMode where
  report m := fields [("flags", report [m.ackReceived, m.proxyReceived, m.replyReceived]),
    ("ack", report m.ack), ("proxy", report m.proxy), ("reply", report m.reply)]

/-- A record of the firmware with what its pointers lead to. -/
def ofRawImage (r : RawImage) (path : Option DevicePath) (options : Option (List UInt16)) : Report :=
  fields [("parent", report r.parent), ("device", report r.device), ("file_path", report path),
    ("options_size", report r.optionsSize),
    ("options", report (options.map (·.take (r.optionsSize.toNat / 2)))), ("base", report r.base),
    ("size", report r.size)]

end NetBoot.Report
