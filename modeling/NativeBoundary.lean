import NativeBoundary.Settings.Document
import NativeBoundary.Crossing.Observer
import NativeBoundary.Scripted.Session
import NativeBoundary.Machine.LocalCue
import NativeBoundary.Machine.Interleaving
import NativeBoundary.Machine.Session
import NativeBoundary.Proofs.Crossing.Passes
import NativeBoundary.Proofs.Crossing.Returned
import NativeBoundary.Proofs.Machine.Returns
import NativeBoundary.Proofs.Machine.OwnPart
import NativeBoundary.Proofs.Call.Threshold
import NativeBoundary.Proofs.Call.Course
import NativeBoundary.Proofs.Call.Restored
import NativeBoundary.Proofs.Call.Locking
import NativeBoundary.Proofs.Call.MonitorBalance
import NativeBoundary.Proofs.Crossing.Journal
import NativeBoundary.Proofs.Crossing.ManagedServices
import NativeBoundary.Proofs.Crossing.Shapes
import NativeBoundary.Proofs.Crossing.Verdict
import NativeBoundary.Proofs.Crossing.PendingSlot
import NativeBoundary.Proofs.Crossing.SynchronizedEnds
import NativeBoundary.Proofs.Call.HeapCourse
import NativeBoundary.Proofs.Crossing.Faults
import NativeBoundary.Proofs.Machine.Verdicts
import NativeBoundary.Proofs.Machine.Forwarding
import NativeBoundary.Proofs.Call.Faults
import NativeBoundary.Proofs.Interleaving.Pauses
import NativeBoundary.Proofs.Interleaving.Observed
import NativeBoundary.Proofs.Call.ShareHistory
import NativeBoundary.Proofs.Call.DeclaringClass
import NativeBoundary.Proofs.Call.CheckedResult
import NativeBoundary.Proofs.Call.HandleHistory
import NativeBoundary.Proofs.Interleaving.NativeServices
import NativeBoundary.Proofs.Interleaving.Alone
import NativeBoundary.Proofs.Interleaving.NativeCalls
import NativeBoundary.Proofs.Call.Reports
import NativeBoundary.Proofs.Call.NativeLevels
import NativeBoundary.Proofs.Call.TracedTree
import NativeBoundary.Proofs.Crossing.TierChecks
import NativeBoundary.Proofs.Crossing.ReferenceResults
import NativeBoundary.Proofs.Machine.MonitorHistory
import NativeBoundary.Proofs.Interleaving.MonitorWaits
import NativeBoundary.Proofs.Machine.CopyHistory
import NativeBoundary.Proofs.Machine.RootChains
import NativeBoundary.Proofs.Machine.ObjectMap
import NativeBoundary.Proofs.Machine.ClassObjects
import NativeBoundary.Proofs.Call.RegisteredClasses
import NativeBoundary.Proofs.Machine.ClassMonitors
import NativeBoundary.Proofs.Crossing.PrimitiveResults
import NativeBoundary.Proofs.Result.Widening
import NativeBoundary.Proofs.Settings.Overrides
