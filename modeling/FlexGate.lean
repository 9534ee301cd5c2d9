import FlexGate.Main
import FlexGate.Proofs.Gate
import FlexGate.Proofs.Loop.LaterHeaders
import FlexGate.Settings.FromJson
import FlexGate.Source.Room
import FlexGate.Proofs.Registry.Events
import FlexGate.Proofs.Registry.Ownership
import FlexGate.Proofs.Registry.Delivery
import FlexGate.Proofs.Loop.Corrections
import FlexGate.Proofs.Loop.Aftermath
import FlexGate.Proofs.Settings.Layers
import FlexGate.Proofs.CommandLine.Verdict
import FlexGate.Proofs.Execution.Coherence
import FlexGate.Proofs.Execution.Traces
import FlexGate.Proofs.Text.Parentheses
import FlexGate.Proofs.Loop.Calls
import FlexGate.Proofs.Loop.Written
import FlexGate.Proofs.Limit.Enforcement
import FlexGate.Proofs.Loop.Spelling
import FlexGate.Proofs.Loop.Layout
import FlexGate.Proofs.Analysis.Levels
import FlexGate.Proofs.Analysis.Nesting
import FlexGate.Proofs.Analysis.Divisors
import FlexGate.Proofs.Analysis.Places
import FlexGate.Proofs.Analysis.Semicolons
import FlexGate.Proofs.Loop.Insertions
import FlexGate.Proofs.Analysis.Tuning
import FlexGate.Proofs.Pattern.Surroundings
import FlexGate.Proofs.Dialect
import FlexGate.Proofs.Pattern.LineEnds
import FlexGate.Proofs.Analysis.LineEnds
import FlexGate.Proofs.Analysis.OpenBlocks
import FlexGate.Proofs.Settings.Overrides
import FlexGate.Proofs.Source.Landing
import FlexGate.Proofs.Source.Extensions
import FlexGate.Proofs.Source.Lifecycle
import FlexGate.Proofs.Analysis.Divisions
import FlexGate.Proofs.Loop.Capture
import FlexGate.Proofs.Report.Rendering
