import Interleave.Basic
import Interleave.Campaign.Basic
import Interleave.Campaign.Kinds
import Interleave.Campaign.Phase
import Interleave.Campaign.Plan
import Interleave.Catalog
import Interleave.Clock
import Interleave.Command.Grammar
import Interleave.Command.Invocation
import Interleave.Command.Level
import Interleave.Command.Run
import Interleave.Data.Remainder
import Interleave.Data.SortedMap
import Interleave.Data.SortedMap.Lemmas
import Interleave.Databases
import Interleave.Display
import Interleave.Files.Tree
import Interleave.History
import Interleave.Json.Choice
import Interleave.Json.Reader
import Interleave.Json.Record
import Interleave.Json.Shape
import Interleave.Json.Text
import Interleave.Json.Value
import Interleave.Main
import Interleave.Memo.Basic
import Interleave.Memo.Offline
import Interleave.Number.Binary64
import Interleave.Number.Decimal
import Interleave.Proofs.Campaign.AcceptedSettings
import Interleave.Proofs.Campaign.Attempts
import Interleave.Proofs.Campaign.CoverageLines
import Interleave.Proofs.Campaign.FailedBookkeeping
import Interleave.Proofs.Campaign.Journal
import Interleave.Proofs.Campaign.Lifecycle
import Interleave.Proofs.Campaign.Log
import Interleave.Proofs.Campaign.LogText
import Interleave.Proofs.Campaign.PhaseOrder
import Interleave.Proofs.Campaign.Plateau
import Interleave.Proofs.Campaign.RefusedSettings
import Interleave.Proofs.Campaign.Reloading
import Interleave.Proofs.Campaign.RunBudget
import Interleave.Proofs.Campaign.Stability
import Interleave.Proofs.Campaign.StoppingPoint
import Interleave.Proofs.Command.CampaignStatus
import Interleave.Proofs.Databases.Acceptance
import Interleave.Proofs.Databases.References
import Interleave.Proofs.Display.EventLines
import Interleave.Proofs.Files.Concurrent
import Interleave.Proofs.Files.Names
import Interleave.Proofs.Files.Parents
import Interleave.Proofs.Files.Replace
import Interleave.Proofs.History.Summary
import Interleave.Proofs.Idiom.Spelling
import Interleave.Proofs.Json.Databases
import Interleave.Proofs.Json.Overlay
import Interleave.Proofs.Json.Readers
import Interleave.Proofs.Json.ReadingBack
import Interleave.Proofs.Json.Records
import Interleave.Proofs.Memo.Acceptance
import Interleave.Proofs.Memo.Dossier
import Interleave.Proofs.Memo.EvidenceOrder
import Interleave.Proofs.Memo.FileChange
import Interleave.Proofs.Memo.GivenUp
import Interleave.Proofs.Memo.Growth
import Interleave.Proofs.Memo.Loading
import Interleave.Proofs.Memo.NormalForm
import Interleave.Proofs.Memo.ParallelShards
import Interleave.Proofs.Memo.RefinedMerge
import Interleave.Proofs.Memo.Sampling
import Interleave.Proofs.Memo.Saving
import Interleave.Proofs.Memo.Tidying
import Interleave.Proofs.Memo.Views
import Interleave.Proofs.Memo.WellFormed
import Interleave.Proofs.Settings.Layers
import Interleave.Proofs.Settings.TidyLayers
import Interleave.Proofs.Settings.Usable
import Interleave.Proofs.Target.CommandLine
import Interleave.Proofs.Text.Lines
import Interleave.Random
import Interleave.Settings.Basic
import Interleave.Settings.Load
import Interleave.Target.Commands
import Interleave.Target.Launch
import Interleave.Target.Script
import Interleave.Target.Shell
import Interleave.Text.Basic
import Interleave.Text.Classes
import Interleave.Yaml.Document
import Interleave.Yaml.Token
