import ExecutorHost.Host.Session
import ExecutorHost.Main
import ExecutorHost.Matrix.Packed
import ExecutorHost.Proofs.Host.Basic
import ExecutorHost.Proofs.Settings.RoundTrip
import ExecutorHost.Proofs.Settings.Writing
import ExecutorHost.Proofs.Settings.Preselection
import ExecutorHost.Proofs.Settings.Failure
import ExecutorHost.Proofs.Settings.Reachable
import ExecutorHost.Proofs.Settings.Findings
import ExecutorHost.Proofs.Settings.Colours
import ExecutorHost.Proofs.Settings.Nesting
import ExecutorHost.Proofs.Extension.Platform
import ExecutorHost.Proofs.Extension.Manifest
import ExecutorHost.Proofs.Extension.Registry
import ExecutorHost.Proofs.Matrix.Interleave
import ExecutorHost.Proofs.Matrix.Layout
import ExecutorHost.Proofs.Matrix.Packed
import ExecutorHost.Proofs.Matrix.InPlace
import ExecutorHost.Proofs.Matrix.Conversion
import ExecutorHost.Proofs.Path
import ExecutorHost.Proofs.Extension.Sealing
import ExecutorHost.Proofs.Extension.Invariant
import ExecutorHost.Proofs.Extension.Identity
import ExecutorHost.Proofs.Extension.Intake
import ExecutorHost.Proofs.Executor.Controls
import ExecutorHost.Proofs.Extension.Unknown
import ExecutorHost.Proofs.Matrix.Limit
import ExecutorHost.Proofs.Worker.Loading
import ExecutorHost.Proofs.Extension.Grammar
import ExecutorHost.Proofs.Mapping.Writing
import ExecutorHost.Proofs.Settings.History
import ExecutorHost.Proofs.Extension.Resolution
import ExecutorHost.Proofs.Mapping.Projection
import ExecutorHost.Proofs.Worker.Slots
import ExecutorHost.Proofs.Settings.Executors
import ExecutorHost.Proofs.FileTree.Location
import ExecutorHost.Proofs.Event.Growth
import ExecutorHost.Proofs.Host.Growth
import ExecutorHost.Proofs.Host.Clash
import ExecutorHost.Proofs.Host.Folders
