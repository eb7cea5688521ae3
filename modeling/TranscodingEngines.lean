import TranscodingEngines.Main
import TranscodingEngines.Engine.StoredName
import TranscodingEngines.Registry.Operation
import TranscodingEngines.Proofs.Dispatch
import TranscodingEngines.Proofs.Engine.Standing
import TranscodingEngines.Proofs.Probe.Ledger
import TranscodingEngines.Proofs.Registry.Admission
import TranscodingEngines.Proofs.Registry.History
import TranscodingEngines.Proofs.Registry.Interruption
import TranscodingEngines.Proofs.Registry.Order
import TranscodingEngines.Proofs.Registry.Priority
import TranscodingEngines.Proofs.Registry.Probes
import TranscodingEngines.Proofs.Registry.RoleStates
import TranscodingEngines.Proofs.Verification.Course
import TranscodingEngines.Proofs.Verification.Examination
import TranscodingEngines.Proofs.Verification.Interruption
import TranscodingEngines.Proofs.Registry.Searches
import TranscodingEngines.Proofs.Engine.Naming
import TranscodingEngines.Proofs.Registry.Addressing
import TranscodingEngines.Proofs.Registry.Updates
import TranscodingEngines.Proofs.Probe.Diagnostics
import TranscodingEngines.Proofs.Verification.Steady
import TranscodingEngines.Proofs.Registry.Permutation
import TranscodingEngines.Proofs.Registry.Restart
import TranscodingEngines.Proofs.Registry.Respelling
import TranscodingEngines.Proofs.Config.SaveLoad
import TranscodingEngines.Proofs.Registry.Resumption
import TranscodingEngines.Proofs.Resolution
import TranscodingEngines.Proofs.CommandLine.ConfigFile
import TranscodingEngines.Proofs.Probe.Evaluation
import TranscodingEngines.Proofs.Probe.Explanations
import TranscodingEngines.Proofs.Registry.Selection
import TranscodingEngines.Proofs.Resolution.Stability
import TranscodingEngines.Proofs.Text.Stream
import TranscodingEngines.Proofs.Registry.FreshStart
import TranscodingEngines.Proofs.Probe.Cache
import TranscodingEngines.Proofs.Host.Access
import TranscodingEngines.Proofs.Media
import TranscodingEngines.Proofs.Registry.Naming
import TranscodingEngines.Proofs.Registry.Ranked
import TranscodingEngines.Proofs.CommandLine.Opening
import TranscodingEngines.Proofs.CommandLine.Rows
import TranscodingEngines.Proofs.CommandLine.Agreement
import TranscodingEngines.Proofs.CommandLine.Timeouts
