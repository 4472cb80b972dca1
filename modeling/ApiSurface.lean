import ApiSurface.Comparison
import ApiSurface.Json
import ApiSurface.Json.Writer
import ApiSurface.Log.Session
import ApiSurface.Settings.Source
import ApiSurface.Proofs.Ancestry
import ApiSurface.Proofs.Identity
import ApiSurface.Proofs.Reconciliation
import ApiSurface.Proofs.ReportOrder
import ApiSurface.Proofs.Difference
import ApiSurface.Proofs.Exactness
import ApiSurface.Proofs.Canonical
import ApiSurface.Proofs.Coverage
import ApiSurface.Proofs.Breakage
import ApiSurface.Proofs.Emptiness
import ApiSurface.Proofs.Reported
import ApiSurface.Proofs.Enclosure
import ApiSurface.Proofs.Suppression
import ApiSurface.Proofs.Composition
import ApiSurface.Proofs.Reversal
import ApiSurface.Proofs.Description
import ApiSurface.Proofs.Relocation
import ApiSurface.Proofs.Refusal
import ApiSurface.Proofs.Outcome
import ApiSurface.Proofs.Unrolling
import ApiSurface.Proofs.Accounting
import ApiSurface.Proofs.Scoping
import ApiSurface.Proofs.Layers
import ApiSurface.Proofs.Variables
import ApiSurface.Proofs.Precedence
import ApiSurface.Proofs.Patch
import ApiSurface.Proofs.Indifference
import ApiSurface.Proofs.Heirs
import ApiSurface.Proofs.Parentage
import ApiSurface.Proofs.Rivals
import ApiSurface.Proofs.Wording
import ApiSurface.Proofs.KeyPaths
import ApiSurface.Proofs.Stability
import ApiSurface.Proofs.SnapshotFailure
import ApiSurface.Proofs.SettingsFailure
import ApiSurface.Proofs.FlowTree
import ApiSurface.Proofs.Utf8
import ApiSurface.Proofs.ClearGraph
import ApiSurface.Proofs.FlowValue
import ApiSurface.Proofs.JsonText
import ApiSurface.Proofs.DecimalNumbers
import ApiSurface.Proofs.JsonScalars
import ApiSurface.Proofs.FlowLexing
import ApiSurface.Proofs.JsonReading
import ApiSurface.Proofs.JsonTokens
import ApiSurface.Proofs.JsonFile
import ApiSurface.Proofs.BlankRoots
import ApiSurface.Proofs.Replacement
import ApiSurface.Proofs.FailedConfiguration
import ApiSurface.Proofs.Construction
import ApiSurface.Proofs.Tallies
