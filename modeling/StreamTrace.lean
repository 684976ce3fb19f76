import StreamTrace.Bytes
import StreamTrace.Chain.Basic
import StreamTrace.Chain.Codec
import StreamTrace.Chain.Places
import StreamTrace.Config.Directive
import StreamTrace.Config.FieldMatch
import StreamTrace.Config.Files
import StreamTrace.Config.LogFilter
import StreamTrace.Config.LogLevel
import StreamTrace.Config.Reading
import StreamTrace.Config.Settings
import StreamTrace.Debugger.Attachment
import StreamTrace.Debugger.Breakpoint
import StreamTrace.Debugger.Bridge
import StreamTrace.Debugger.Manager
import StreamTrace.Debugger.Probe
import StreamTrace.Debugger.Program
import StreamTrace.Debugger.Readback
import StreamTrace.Debugger.Session
import StreamTrace.Debugger.SharedStorage
import StreamTrace.Debugger.StageHandler
import StreamTrace.Debugger.Storage
import StreamTrace.Decimal.Numeral
import StreamTrace.Decimal.Shortest
import StreamTrace.HelperClass
import StreamTrace.Ieee
import StreamTrace.Jdwp.Agent
import StreamTrace.Jdwp.Codec
import StreamTrace.Jdwp.Command
import StreamTrace.Jdwp.CommandCodec
import StreamTrace.Jdwp.CommandDecoding
import StreamTrace.Jdwp.Connection
import StreamTrace.Jdwp.Decoding
import StreamTrace.Jdwp.Encoding
import StreamTrace.Jdwp.Error
import StreamTrace.Jdwp.Event
import StreamTrace.Jdwp.EventPacket
import StreamTrace.Jdwp.Link
import StreamTrace.Jdwp.Packet
import StreamTrace.Jdwp.Payload
import StreamTrace.Jdwp.ReplyEncoding
import StreamTrace.Jdwp.Value
import StreamTrace.Json
import StreamTrace.Json.Number
import StreamTrace.Json.Record
import StreamTrace.Json.Text
import StreamTrace.Jvm.MethodSignature
import StreamTrace.Jvm.TypeName
import StreamTrace.Machine.Answer
import StreamTrace.Machine.Boot
import StreamTrace.Machine.ClassTable
import StreamTrace.Machine.Element
import StreamTrace.Machine.Evaluation
import StreamTrace.Machine.Invocation
import StreamTrace.Machine.ProgramCodec
import StreamTrace.Machine.Requests
import StreamTrace.Machine.StreamProgram
import StreamTrace.Machine.Thread
import StreamTrace.Machine.Vm
import StreamTrace.Machine.World
import StreamTrace.Pattern.Basic
import StreamTrace.Pattern.Reading
import StreamTrace.Pattern.Support
import StreamTrace.Proofs.Chain.Codec
import StreamTrace.Proofs.Chain.Places
import StreamTrace.Proofs.Debugger.Accounts
import StreamTrace.Proofs.Debugger.AnsweredAttachments
import StreamTrace.Proofs.Debugger.Arguments
import StreamTrace.Proofs.Debugger.Arrays
import StreamTrace.Proofs.Debugger.BridgeClasses
import StreamTrace.Proofs.Debugger.BridgeCommands
import StreamTrace.Proofs.Debugger.BridgeSpecs
import StreamTrace.Proofs.Debugger.BridgeValues
import StreamTrace.Proofs.Debugger.Choices
import StreamTrace.Proofs.Debugger.DebuggeeTalk
import StreamTrace.Proofs.Debugger.EventLedger
import StreamTrace.Proofs.Debugger.ExitPairing
import StreamTrace.Proofs.Debugger.ForeignEvents
import StreamTrace.Proofs.Debugger.HandledEvents
import StreamTrace.Proofs.Debugger.HandlerReports
import StreamTrace.Proofs.Debugger.HelperDefinitions
import StreamTrace.Proofs.Debugger.History
import StreamTrace.Proofs.Debugger.InheritedMethods
import StreamTrace.Proofs.Debugger.Ledger
import StreamTrace.Proofs.Debugger.LostLine
import StreamTrace.Proofs.Debugger.ManagerRuns
import StreamTrace.Proofs.Debugger.PackedSides
import StreamTrace.Proofs.Debugger.ReportedEvents
import StreamTrace.Proofs.Debugger.RequestDiscipline
import StreamTrace.Proofs.Debugger.ResultReadBack
import StreamTrace.Proofs.Debugger.SessionDiscipline
import StreamTrace.Proofs.Debugger.SessionLedger
import StreamTrace.Proofs.Debugger.SetupDiscipline
import StreamTrace.Proofs.Debugger.SharedPins
import StreamTrace.Proofs.Debugger.Shutdown
import StreamTrace.Proofs.Debugger.SourceScope
import StreamTrace.Proofs.Debugger.StageDiscipline
import StreamTrace.Proofs.Debugger.StepDiscipline
import StreamTrace.Proofs.Debugger.StepLedger
import StreamTrace.Proofs.Debugger.StepLimit
import StreamTrace.Proofs.Debugger.Target
import StreamTrace.Proofs.Debugger.TraceDiscipline
import StreamTrace.Proofs.Debugger.TraceLedger
import StreamTrace.Proofs.Debugger.TypeQueries
import StreamTrace.Proofs.Debugger.TypeSearch
import StreamTrace.Proofs.Debugger.WayBack
import StreamTrace.Proofs.Debugger.WorldResults
import StreamTrace.Proofs.Ieee.Exact
import StreamTrace.Proofs.Jdwp.Calls
import StreamTrace.Proofs.Jdwp.EventPackets
import StreamTrace.Proofs.Jdwp.Framing
import StreamTrace.Proofs.Jdwp.Negotiation
import StreamTrace.Proofs.Jdwp.Payloads
import StreamTrace.Proofs.Jdwp.Reading
import StreamTrace.Proofs.Jdwp.Replies
import StreamTrace.Proofs.Jdwp.RoundTrip
import StreamTrace.Proofs.Json.Amendments
import StreamTrace.Proofs.Jvm.ArrayNames
import StreamTrace.Proofs.Jvm.Descriptors
import StreamTrace.Proofs.Jvm.Signatures
import StreamTrace.Proofs.Jvm.Slots
import StreamTrace.Proofs.Jvm.TypeSweep
import StreamTrace.Proofs.Machine.AnsweredCommands
import StreamTrace.Proofs.Machine.BootedMachine
import StreamTrace.Proofs.Machine.Chronicles
import StreamTrace.Proofs.Machine.ClassLookup
import StreamTrace.Proofs.Machine.ClearedRequests
import StreamTrace.Proofs.Machine.CommandEffects
import StreamTrace.Proofs.Machine.Commands
import StreamTrace.Proofs.Machine.CourseChanges
import StreamTrace.Proofs.Machine.ElementFlow
import StreamTrace.Proofs.Machine.ElementValues
import StreamTrace.Proofs.Machine.EquippedLaunch
import StreamTrace.Proofs.Machine.Extensions
import StreamTrace.Proofs.Machine.HandOver
import StreamTrace.Proofs.Machine.HarmlessTraces
import StreamTrace.Proofs.Machine.IntactMachine
import StreamTrace.Proofs.Machine.InvocationReceivers
import StreamTrace.Proofs.Machine.Invocations
import StreamTrace.Proofs.Machine.LaunchedMachine
import StreamTrace.Proofs.Machine.LoadedClasses
import StreamTrace.Proofs.Machine.MethodDispatch
import StreamTrace.Proofs.Machine.PinCounts
import StreamTrace.Proofs.Machine.PreparedStatements
import StreamTrace.Proofs.Machine.RefusedCommands
import StreamTrace.Proofs.Machine.RepeatedEvaluation
import StreamTrace.Proofs.Machine.RestorableSessions
import StreamTrace.Proofs.Machine.RestoredSource
import StreamTrace.Proofs.Machine.RunContinuity
import StreamTrace.Proofs.Machine.RunInvariants
import StreamTrace.Proofs.Machine.SplicedStages
import StreamTrace.Proofs.Machine.StatementCalls
import StreamTrace.Proofs.Machine.StatementValues
import StreamTrace.Proofs.Machine.StreamMeanings
import StreamTrace.Proofs.Machine.ThreadPaths
import StreamTrace.Proofs.Machine.ThreadPosition
import StreamTrace.Proofs.Machine.Transparency
import StreamTrace.Proofs.Machine.Turns
import StreamTrace.Proofs.Machine.Upkeep
import StreamTrace.Proofs.Machine.Variables
import StreamTrace.Proofs.Machine.Whereabouts
import StreamTrace.Proofs.Text.Utf8
import StreamTrace.Proofs.Trace.Codec
import StreamTrace.Table
import StreamTrace.Text.Blank
import StreamTrace.Text.Cut
import StreamTrace.Text.Hex
import StreamTrace.Text.Hidden
import StreamTrace.Text.Letters
import StreamTrace.Text.Quoted
import StreamTrace.Text.Runs
import StreamTrace.Text.Utf8
import StreamTrace.Toml.Document
import StreamTrace.Toml.Scalar
import StreamTrace.Toml.Text
import StreamTrace.Trace.Codec
import StreamTrace.Trace.Error
import StreamTrace.Trace.Report
import StreamTrace.Trace.Value
