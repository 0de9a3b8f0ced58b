import BackupFleet.Catalog.Codec
import BackupFleet.Catalog.Identifier
import BackupFleet.Catalog.Record
import BackupFleet.Command.Basic
import BackupFleet.Command.Fleetwide
import BackupFleet.Command.Run
import BackupFleet.Command.Session
import BackupFleet.Command.SingleBackup
import BackupFleet.CommandLine.Grammar
import BackupFleet.CommandLine.Invocation
import BackupFleet.CommandLine.Program
import BackupFleet.CommandLine.Reading
import BackupFleet.CommandLine.Usage
import BackupFleet.Config.Conflict
import BackupFleet.Config.Fleet
import BackupFleet.Config.Load
import BackupFleet.Config.Section
import BackupFleet.Config.Server
import BackupFleet.Diagnostic.Fault
import BackupFleet.Diagnostic.UserError
import BackupFleet.FileSystem.Basic
import BackupFleet.FileSystem.Change
import BackupFleet.FileSystem.Error
import BackupFleet.FileTree.Basic
import BackupFleet.FileTree.Difference
import BackupFleet.Hook.Outcome
import BackupFleet.Hook.Output
import BackupFleet.Hook.Retry
import BackupFleet.Json
import BackupFleet.Main
import BackupFleet.Number.Binary64
import BackupFleet.Order
import BackupFleet.Path
import BackupFleet.Proofs.Catalog.Codec
import BackupFleet.Proofs.Catalog.Cut
import BackupFleet.Proofs.Catalog.Identifier
import BackupFleet.Proofs.Command.Admission
import BackupFleet.Proofs.Command.Blocked
import BackupFleet.Proofs.Command.CatalogInvariant
import BackupFleet.Proofs.Command.Deletion
import BackupFleet.Proofs.Command.Diagnosis
import BackupFleet.Proofs.Command.History
import BackupFleet.Proofs.Command.LockFree
import BackupFleet.Proofs.Command.Mirror
import BackupFleet.Proofs.Command.NameSet
import BackupFleet.Proofs.Command.Occasion
import BackupFleet.Proofs.Command.OneName
import BackupFleet.Proofs.Command.Reach
import BackupFleet.Proofs.Command.Recovery
import BackupFleet.Proofs.Command.Rounds
import BackupFleet.Proofs.Command.Step
import BackupFleet.Proofs.Command.TakingOrder
import BackupFleet.Proofs.Command.WalAgreement
import BackupFleet.Proofs.Config.Conflict
import BackupFleet.Proofs.Config.Layout
import BackupFleet.Proofs.Config.Repeated
import BackupFleet.Proofs.Config.Section
import BackupFleet.Proofs.Config.Sources
import BackupFleet.Proofs.Effect
import BackupFleet.Proofs.FileSystem.Effect
import BackupFleet.Proofs.FileSystem.Listing
import BackupFleet.Proofs.FileSystem.Made
import BackupFleet.Proofs.FileSystem.Plain
import BackupFleet.Proofs.FileSystem.Seals
import BackupFleet.Proofs.FileSystem.Standing
import BackupFleet.Proofs.FileSystem.Way
import BackupFleet.Proofs.FileTree.Below
import BackupFleet.Proofs.Hook.Lines
import BackupFleet.Proofs.Hook.Output
import BackupFleet.Proofs.Hook.Retry
import BackupFleet.Proofs.Hook.Tablespaces
import BackupFleet.Proofs.Json
import BackupFleet.Proofs.Order
import BackupFleet.Proofs.Recovery.Acceptance
import BackupFleet.Proofs.Recovery.RuleLists
import BackupFleet.Proofs.Recovery.Rules
import BackupFleet.Proofs.Recovery.TimeZone
import BackupFleet.Proofs.Report.Agreement
import BackupFleet.Proofs.Report.OneLine
import BackupFleet.Proofs.Report.Summary
import BackupFleet.Proofs.Report.Verdict
import BackupFleet.Proofs.Server.Trace
import BackupFleet.Proofs.Storage.Archiving
import BackupFleet.Proofs.Storage.Backup
import BackupFleet.Proofs.Storage.Catalog
import BackupFleet.Proofs.Storage.CatalogKept
import BackupFleet.Proofs.Storage.Confinement
import BackupFleet.Proofs.Storage.Deletion
import BackupFleet.Proofs.Storage.FileByFile
import BackupFleet.Proofs.Storage.Handover
import BackupFleet.Proofs.Storage.Holding
import BackupFleet.Proofs.Storage.Host
import BackupFleet.Proofs.Storage.LockNest
import BackupFleet.Proofs.Storage.Neighbour
import BackupFleet.Proofs.Storage.Readability
import BackupFleet.Proofs.Storage.Rebuilding
import BackupFleet.Proofs.Storage.Rebuilt
import BackupFleet.Proofs.Storage.RecordFile
import BackupFleet.Proofs.Storage.Records
import BackupFleet.Proofs.Storage.Scopes
import BackupFleet.Proofs.Storage.Undo
import BackupFleet.Proofs.Storage.Upkeep
import BackupFleet.Proofs.Storage.WalCatalog
import BackupFleet.Proofs.Storage.WalOwner
import BackupFleet.Proofs.Storage.WalText
import BackupFleet.Proofs.Target.Expansion
import BackupFleet.Proofs.Target.Resolution
import BackupFleet.Proofs.Text.Numeral
import BackupFleet.Proofs.Text.Pieces
import BackupFleet.Proofs.Text.Utf8
import BackupFleet.Proofs.Time.Calendar
import BackupFleet.Proofs.Time.Formats
import BackupFleet.Proofs.Time.Numeral
import BackupFleet.Proofs.Time.Offset
import BackupFleet.Proofs.Time.Order
import BackupFleet.Proofs.Time.Step
import BackupFleet.Proofs.Time.Written
import BackupFleet.Recovery.Relocation
import BackupFleet.Recovery.Target
import BackupFleet.Report.Console
import BackupFleet.Report.Message
import BackupFleet.Report.Nagios
import BackupFleet.Report.Writer
import BackupFleet.Report.Written
import BackupFleet.Server.Request
import BackupFleet.Server.Service
import BackupFleet.Shell.Arithmetic
import BackupFleet.Shell.Builtin
import BackupFleet.Shell.Condition
import BackupFleet.Shell.Format
import BackupFleet.Shell.Machine
import BackupFleet.Shell.Parser
import BackupFleet.Shell.Pattern
import BackupFleet.Shell.Run
import BackupFleet.Shell.Script
import BackupFleet.Storage.Backup
import BackupFleet.Storage.Host
import BackupFleet.Storage.Lock
import BackupFleet.Storage.Reading
import BackupFleet.Storage.Services
import BackupFleet.Storage.Wal
import BackupFleet.Target.Policy
import BackupFleet.Target.Resolution
import BackupFleet.Text.Blank
import BackupFleet.Text.ByteText
import BackupFleet.Text.Escaped
import BackupFleet.Text.Numeral
import BackupFleet.Text.Printable
import BackupFleet.Text.Reader
import BackupFleet.Text.Utf8
import BackupFleet.Time.Calendar
import BackupFleet.Time.Moment
import BackupFleet.Time.Reader
import BackupFleet.Time.Zone
import BackupFleet.Toml.Blank
import BackupFleet.Toml.Document
import BackupFleet.Toml.Expression
import BackupFleet.Toml.Number
import BackupFleet.Toml.Quoted
import BackupFleet.Toml.Table
import BackupFleet.Toml.Time
import BackupFleet.Toml.Value
