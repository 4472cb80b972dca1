import ApiSurface.Settings
import ApiSurface.Snapshot.File
import ApiSurface.Summary

/-!
Comparing two versions under a policy: the entries in report order and the texts that sum them up.
-/

namespace ApiSurface

structure Comparison where
  entries : List Entry
  summary : Text
  breakingSummary : Option Text
  oldVersion : Option Text
  newVersion : Option Text

namespace Comparison

def ofEntries (old new : Snapshot) (policy : Policy) (entries : List Entry) : Comparison where
  entries
  summary := ApiSurface.summary entries
  breakingSummary := breakingSummary? entries policy.nameLimit
  oldVersion := old.version
  newVersion := new.version

def run (old new : Snapshot) (hierarchy : Hierarchy) (policy : Policy) : Traced Comparison := do
  Traced.note [.started old.version new.version old.size new.size]
  match reconcile old new hierarchy policy.suppressNewDeprecated with
  | .error breach => Traced.fail (.breach breach)
  | .ok report =>
    let comparison := ofEntries old new policy report.entries
    Traced.note (report.notices ++ [.finished comparison.summary])
    return comparison

def checkedHierarchy (new : Snapshot) (given : Option Hierarchy) : Except Fault Hierarchy := do
  let hierarchy := given.getD (.ofSnapshot new)
  hierarchy.validate new
  return hierarchy

def ofSnapshots (old new : Snapshot) (hierarchy : Option Hierarchy) (policy : Policy) :
    Traced Comparison := do
  run old new (← Traced.ofFault (checkedHierarchy new hierarchy)) policy

def ofFiles (old new : NamedFile) (policy : Policy) : Traced Comparison := do
  let old ← Snapshot.load old
  let new ← Snapshot.load new
  ofSnapshots old new none policy

end Comparison

inductive Milestone
  | first (size : Nat)
  | compared (comparison : Comparison)
  | failed (failure : Failure)

/-- Compares each version with the latest good one before it. -/
def history (last : Option Snapshot) : List (Except Failure Snapshot) → List Milestone
  | [] => []
  | .error failure :: rest => .failed failure :: history last rest
  | .ok version :: rest =>
    match last with
    | none => .first version.size :: history (some version) rest
    | some before =>
      match (Comparison.ofSnapshots before version none .standard).result with
      | .error failure => .failed failure :: history last rest
      | .ok comparison => .compared comparison :: history (some version) rest

end ApiSurface
