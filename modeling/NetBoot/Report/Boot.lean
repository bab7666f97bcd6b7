/-
  NetBoot.Report.Boot — menus, settings and the outcome of a boot written down.
-/

import NetBoot.Report.Basic
import NetBoot.Boot.Sequence

namespace NetBoot.Report

open Boot

instance : Reported Config.LineError := ⟨fun e => fault e.name ""⟩

instance : Reported Settings where
  report s := fields [("debug", report s.debug), ("is_debug", report s.isDebug),
    ("menu_retries", report s.menuRetries), ("boot_from_menu_server", report s.bootFromMenuServer),
    ("dont_set_path_prefix", report s.dontSetPathPrefix),
    ("always_secure_boot_chain", report s.alwaysSecureBootChain), ("servers", report s.servers)]

/-- A configuration, with what it says under some names. -/
def ofProperties (names : List String) (l : PropertyList) : Report :=
  fields [("properties", report (l.properties.map fun p => (p.name, p.value))), ("servers", report l.servers),
    ("len", report l.size), ("empty", report l.isEmpty), ("get", report (names.map l.get?)),
    ("enabled", report (names.map l.isEnabled)), ("settings", report (Settings.ofProperties l))]

instance menuEntry : Reported Menu.Entry where
  report e := fields [("type", report e.kind.code), ("selectable", report e.isSelectable),
    ("flags", report e.flags), ("default", report e.isDefault), ("text", report e.text),
    ("command", report e.command), ("guid", report e.bootEnvGuid), ("prefix", report e.pathPrefix),
    ("display", report e.describe)]

/-- A menu, with the texts of its first choices from 0 on. -/
def ofMenu (choices : Nat) (m : Menu) : Report :=
  fields [("entries", report m.entries), ("choices", report m.count), ("empty", report m.isEmpty),
    ("default", report m.default?), ("timeout", report m.timeout), ("server", report m.serverName),
    ("by_choice", report ((List.range (choices + 1)).map fun c => (m.entry? c).map (·.text)))]

instance : Reported Menu.Selection where
  report s := fields [("entry", report s.entry), ("choice", report s.choice),
    ("default_chosen", report s.defaultChosen)]

instance : Reported Outcome where
  report o := fields [
    ("action", match o with
      | .localBoot => text "local"
      | .prompt => text "prompt"
      | .chainloaded e => fields [("chainloaded", report e)]),
    ("exit_status", report o.status)]

end NetBoot.Report
