/-
  NetBoot.Report.Sim — what happened on a simulated machine, and how it was left, written down.
-/

import NetBoot.Report.Image
import NetBoot.Sim.World

namespace NetBoot.Report

open Sim

instance : Reported Abort := ⟨fun e => fault "panic" e.message⟩

instance : Reported Reply where
  report
    | .exited disposition => row "image_act" [text "exit", report disposition]
    | .unloaded status => row "image_act" [text "unload", report status]
    | .launched result => row "image_act" [text "nested", ofLaunch result]

/-- The handle, or the status in its place. -/
def handleOrStatus : Except Status Handle → Report
  | .ok h => report h
  | .error s => report s

/-- A key read; one that never came back has no outcome. -/
def ofReadKey (timeout : UInt32) : Option (Option Key) → Report
  | some key => row "read_key" [report timeout, report key]
  | .none => row "read_key" [report timeout]

instance : Reported Event where
  report
    | .allocatePages pages r => row "allocate_pages" [report pages, orMessage r]
    | .freePages base pages => row "free_pages" [report base, report pages]
    | .setLoadedImage h r => row "set_loaded_image" [report h, report r]
    | .verify image answer => row "verify" [rows image, report answer]
    | .loadImage parent path source r =>
      row "load_image" [report parent, report path, rows source, handleOrStatus r]
    | .startImage h => row "start_image" [report h]
    | .unloadImage h => row "unload_image" [report h]
    | .syncCaches base len => row "sync_caches" [report base, report len]
    | .callEntry entry h _ memory _ => row "call_entry" [report entry, report h, report (memory.map rows)]
    | .act reply => report reply
    | .fileSize server name r => row "tftp_size" [report server, report name, orMessage r]
    | .receiveFile server name len r => row "tftp_read" [report server, report name, report len, orMessage r]
    | .resolve name r => row "resolve" [report name, orMessage r]
    | .redirect file server r =>
      row "rewrite" [report file, report server, orMessage (r.map fun _ => "ok")]
    | .print s => row "print" [report s]
    | .clear => row "clear" []
    | .setCursor column line => row "set_cursor" [report column, report line]
    | .highlight on => row "highlight" [report on]
    | .readKey timeout outcome => ofReadKey timeout outcome
    | .sleep ms => row "sleep" [report ms]

/-- The events that are shown, runs of prints as one. -/
def ofEvents (es : Array Event) : Report := report (Event.joinPrints (es.toList.filter Event.isShown))

/-- The sizes of the images that a recording verifier was given. -/
def ofVerifier : Verifier → Report
  | .recording _ sizes => report sizes
  | .absent | .answering _ => none

/-- How a machine was left. -/
def ofWorld (w : World) : Report :=
  fields [("allocations", report w.allocations.pairs), ("allocation_count", report w.allocationCount),
    ("records", report w.records.pairs), ("started", report w.started), ("unloaded", report w.unloaded),
    ("entry_calls", report w.entryCalls), ("records_at_entry", report w.recordsAtEntry),
    ("pxe_mode", report w.pxeMode.bits), ("clock_ms", report w.clock.toNat), ("sleeps", report w.sleeps),
    ("key_timeouts", report w.keyTimeouts), ("keys_left", report w.keys.length), ("cursor", report w.cursor),
    ("highlight", report w.highlight), ("clears", report w.clears), ("dns_queries", report w.lookups),
    ("dns_not_ready", report w.lookupsNotReady),
    ("file_failures", fields (w.sizeFailures.pairs.map fun p => (p.1, report p.2))),
    ("tftp_reads", report w.reads), ("verified", ofVerifier w.verifier)]

end NetBoot.Report
