import CommandBridge.Host
import CommandBridge.Log.Logging
import CommandBridge.Plugin
import CommandBridge.Proofs.Config.Acceptance
import CommandBridge.Proofs.Config.StatusTable
import CommandBridge.Proofs.Error.Distinct
import CommandBridge.Proofs.Handle.Cycle
import CommandBridge.Proofs.Handle.FirstFree
import CommandBridge.Proofs.Handle.Reuse
import CommandBridge.Proofs.Pending.Soundness
import CommandBridge.Proofs.Session.Account
import CommandBridge.Proofs.Session.Ages
import CommandBridge.Proofs.Session.Clean
import CommandBridge.Proofs.Session.Closed
import CommandBridge.Proofs.Session.Conservation
import CommandBridge.Proofs.Session.Deliveries
import CommandBridge.Proofs.Session.Drain
import CommandBridge.Proofs.Session.Effect
import CommandBridge.Proofs.Session.Errors
import CommandBridge.Proofs.Session.ExactlyOnce
import CommandBridge.Proofs.Session.Handles
import CommandBridge.Proofs.Session.Integrity
import CommandBridge.Proofs.Session.Interleaving
import CommandBridge.Proofs.Session.Ledger
import CommandBridge.Proofs.Session.Passive
import CommandBridge.Proofs.Session.Persistence
import CommandBridge.Proofs.Session.Provenance
import CommandBridge.Proofs.Session.Returns
import CommandBridge.Proofs.Session.Runs
import CommandBridge.Proofs.Session.Section
import CommandBridge.Proofs.Session.Seeds
import CommandBridge.Proofs.Session.Shutdown
import CommandBridge.Proofs.Session.Soundness
import CommandBridge.Proofs.Session.Ties
import CommandBridge.Proofs.Status.Range
import CommandBridge.Proofs.Status.Table
import CommandBridge.Session.Report
import CommandBridge.Session.Threads
import CommandBridge.Proofs.Json.Grammar
import CommandBridge.Proofs.Json.Numeral
import CommandBridge.Proofs.Json.Layout
import CommandBridge.Proofs.Json.Text
import CommandBridge.Proofs.Json.Value
import CommandBridge.Proofs.Config.Language
import CommandBridge.Proofs.Config.Fields
import CommandBridge.Proofs.Config.Ranges
import CommandBridge.Proofs.Config.Overrides
import CommandBridge.Proofs.Config.Settings
import CommandBridge.Proofs.Config.Document
import CommandBridge.Proofs.Json.Tokens
import CommandBridge.Proofs.Config.RoundTrip
import CommandBridge.Proofs.Session.Tally
import CommandBridge.Proofs.Session.Workers
import CommandBridge.Proofs.Session.Confluence
import CommandBridge.Proofs.Session.Simulation
import CommandBridge.Proofs.Session.Registration
import CommandBridge.Proofs.Session.Channel
import CommandBridge.Proofs.Session.Issue
import CommandBridge.Proofs.Session.Attempts
import CommandBridge.Proofs.Session.Completions
import CommandBridge.Proofs.Session.Enrolment
import CommandBridge.Proofs.Session.Failures
import CommandBridge.Proofs.Session.Sweeps
import CommandBridge.Proofs.Session.Meanwhile
import CommandBridge.Proofs.Session.Waiting
import CommandBridge.Proofs.Config.Faults
import CommandBridge.Proofs.Status.Fidelity
import CommandBridge.Proofs.Text.Utf8
import CommandBridge.Proofs.Text.CText
import CommandBridge.Proofs.Native.Arguments
import CommandBridge.Proofs.Native.Copies
import CommandBridge.Proofs.Session.Oblivious
import CommandBridge.Proofs.Session.Callbacks
import CommandBridge.Proofs.Session.Installation
import CommandBridge.Proofs.Session.Wrappers
import CommandBridge.Proofs.Session.Attendance
import CommandBridge.Proofs.Session.Unheard
import CommandBridge.Proofs.Session.Dropping
import CommandBridge.Proofs.Status.Positions
import CommandBridge.Proofs.Error.Rendering
import CommandBridge.Proofs.Host.Surface
import CommandBridge.Proofs.Log.Forwarding
import CommandBridge.Proofs.Session.Translation
