import ApiSurface.Document
import ApiSurface.FileState
import ApiSurface.Log.Traced
import ApiSurface.Yaml

/-!
Building and loading snapshots, with notices of what was built and loaded.
-/

namespace ApiSurface.Snapshot

def noteBuilt (built : Except Failure Snapshot) : Traced Snapshot := do
  let snapshot ← Traced.ofExcept built
  Traced.note [.snapshotBuilt snapshot.version snapshot.size]
  return snapshot

def fileEntries (file : NamedFile) : Except Failure Entries :=
  match file.state with
  | .missing | .directory => .error (.fault (.snapshotMissing file.path))
  | .file bytes =>
    match Yaml.readBytes bytes with
    | .error cause =>
      .error (if cause.isForm then .fault (.snapshotParse file.path Fault.malformed) else .content cause)
    | .ok value =>
      match value.rootEntries? with
      | some entries => .ok entries
      | none => .error (.fault (.snapshotParse file.path Fault.notAMapping))

def load (file : NamedFile) : Traced Snapshot := do
  let entries ← Traced.ofExcept (fileEntries file)
  let snapshot ← noteBuilt (ofValue file.path (.map entries))
  Traced.note [.snapshotLoaded file.path snapshot.version snapshot.size]
  return snapshot

end ApiSurface.Snapshot
