import ApiSurface.Log.Severity
import ApiSurface.Value

/-!
What the library reports while it works, as notices with typed contents, and the events that are
logged for them.
-/

namespace ApiSurface

structure Event where
  name : Text
  severity : Severity
  fields : Entries

inductive Notice
  | snapshotBuilt (version : Option Text) (elements : Nat)
  | snapshotLoaded (path : Text) (version : Option Text) (elements : Nat)
  | started (oldVersion newVersion : Option Text) (oldElements newElements : Nat)
  | pruned (unchanged oldRemaining newRemaining : Nat)
  | suppressed (count : Nat)
  | reparented (count : Nat)
  | enclosed (count : Nat)
  | moved (source target : Text) (identifier : Option Text)
  | computed (oldVersion newVersion : Option Text) (added changed removed : Nat)
  | finished (summary : Text)
  deriving DecidableEq

namespace Notice

def optional : Option Text → Value
  | none => .null
  | some content => .text content

def event : Notice → Event
  | .snapshotBuilt version elements =>
    ⟨"snapshot_built", .debug, [("version", optional version), ("elements", elements)]⟩
  | .snapshotLoaded path version elements =>
    ⟨"snapshot_loaded", .info,
      [("path", path), ("version", optional version), ("elements", elements)]⟩
  | .started oldVersion newVersion oldElements newElements =>
    ⟨"api_diff_started", .debug, [("old_version", optional oldVersion),
      ("new_version", optional newVersion), ("old_elements", oldElements),
      ("new_elements", newElements)]⟩
  | .pruned unchanged oldRemaining newRemaining =>
    ⟨"unchanged_pruned", .debug, [("unchanged", unchanged), ("old_remaining", oldRemaining),
      ("new_remaining", newRemaining)]⟩
  | .suppressed count => ⟨"new_deprecated_suppressed", .debug, [("count", count)]⟩
  | .reparented count => ⟨"reparented_members_skipped", .debug, [("count", count)]⟩
  | .enclosed count => ⟨"enclosed_elements_dropped", .debug, [("count", count)]⟩
  | .moved source target identifier =>
    ⟨"uml_move_detected", .debug, [("source", source), ("target", target),
      ("identifier", optional identifier)]⟩
  | .computed oldVersion newVersion added changed removed =>
    ⟨"api_diff_computed", .info, [("old_version", optional oldVersion),
      ("new_version", optional newVersion), ("added", added), ("changed", changed),
      ("removed", removed)]⟩
  | .finished summary => ⟨"api_diff_finished", .info, [("summary", summary)]⟩

end Notice

end ApiSurface
