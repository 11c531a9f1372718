import SortView.Lib.Lines
import SortView.Lib.Text
import SortView.Lib.Case
import SortView.Lib.Dict
import SortView.Lib.Slices
import SortView.Agent.Parser
import SortView.Collector.Reader
import SortView.Collector.Parsers
import SortView.Collector.Uploader
import SortView.Collector.State
import SortView.Collector.Run
import SortView.Collector.History
import SortView.Agent.Tailer
import SortView.Agent.Events
import SortView.Agent.SourceCollector
import SortView.Agent.Durability
import SortView.Agent.PollSafety
import SortView.Agent.SourceRuns
import SortView.Lib.Buckets
import SortView.Services.RejectReason
import SortView.Services.RoutingDestination
import SortView.Services.OperationalMetrics
import SortView.Services.OperationalReport
import SortView.Services.ReportCounts
import SortView.Services.ReportAgreement
import SortView.Services.ReportHours
import SortView.Services.RangeReport
import SortView.Lib.CaseFacts
import SortView.Services.DestinationKeys
import SortView.Lib.Json
import SortView.Services.RoutingSettings
import SortView.Collector.Identity
import SortView.Collector.Normalize
import SortView.Services.CollectorRules
import SortView.Services.StoredRouting
import SortView.Services.EraDestinations
import SortView.Lib.Calendar
import SortView.Lib.IsoTime
import SortView.Collector.CanonicalForms
import SortView.Services.IngestEvents
import SortView.Lib.FirstWriter
import SortView.Services.IngestStore
import SortView.Agent.NormalBootstrap
import SortView.Agent.Stamps
import SortView.Agent.RecordIdentity
import SortView.Lib.Transactions
import SortView.Services.MembershipPolicy
import SortView.Services.UserAdmin
import SortView.Services.UserAdminRules
import SortView.Services.MembershipChanges
import SortView.Services.ActiveOwners
import SortView.Services.Registry
import SortView.Services.IngestKeys
import SortView.Services.CollectorEnrollment
import SortView.Services.AdminInstallations
import SortView.Services.Offboarding
import SortView.Services.RegistryMoves
import SortView.Services.RegistryRely
import SortView.Services.RegistryWrites
import SortView.Services.CodeCommits
import SortView.Services.IdentityCommits
import SortView.Services.InstallationCommits
import SortView.Services.OffboardingSweeps
import SortView.Services.RedemptionCommits
import SortView.Services.OffboardingCommits
import SortView.Services.EnrollmentIdentity
import SortView.Services.OffboardedTenants
import SortView.Services.IngestRequests
import SortView.Collector.ChunkReader
import SortView.Collector.PatronCache
import SortView.Lib.WallClock
import SortView.Services.LocalHours
import SortView.Lib.Decimal
import SortView.Lib.DecimalText
import SortView.Services.EfficiencySettings
import SortView.Services.SortViewValue
import SortView.Services.StoredSettings
import SortView.Services.StoredValueSettings
import SortView.Services.EfficiencyReport
import SortView.Services.ExactEfficiency
import SortView.Services.SortViewEstimate
import SortView.Lib.Carried
import SortView.Services.EstimateFormulas
import SortView.Services.ExactEstimate
import SortView.Lib.Relational
import SortView.Services.DataLifecyclePolicy
import SortView.Services.TenantPurge
import SortView.Services.PurgedTenant
import SortView.Services.PurgedExactly
import SortView.Collector.SeedRules
import SortView.Services.AcceptedRouting
import SortView.Services.StableKeys
import SortView.Services.SharedRules
import SortView.Agent.IsolationCost
import SortView.Lib.CsvReader
import SortView.Frontend.CsvExport
import SortView.Agent.SpoolNames
import SortView.Agent.SpoolOrder
import SortView.Frontend.FieldChecks
import SortView.Lib.JsonPaths
import SortView.Lib.Pattern
import SortView.Services.PrivacyHardening
import SortView.Services.ScrubbedEvents
import SortView.Lib.Snapshots
import SortView.Services.OrganizationReport
import SortView.Services.SiteReads
import SortView.Services.OrganizationSums
import SortView.Services.NetworkSums
import SortView.Services.OrganizationAddsUp
import SortView.Services.BuiltRequests
import SortView.Services.SortBin
import SortView.Services.BinVolume
import SortView.Services.KeyInventory
import SortView.Services.KeyEvidence
import SortView.Services.ReportRange
import SortView.Frontend.DateRange
import SortView.Frontend.RangeAgreement
import SortView.Lib.Latest
import SortView.Lib.Search
import SortView.Services.HoldRules
import SortView.Services.AcsItemSummary
import SortView.Services.HoldReport
import SortView.Lib.JsonScan
import SortView.Lib.JsonText
import SortView.Lib.TextLines
import SortView.Agent.BatchFile
import SortView.Collector.CardGuard
import SortView.Collector.GuardedRuns
import SortView.Collector.AcceptedUploads
import SortView.Lib.Removal
import SortView.Services.ConflictRounds
import SortView.Collector.Deliver
import SortView.Collector.Quarantine
import SortView.Collector.DeliveredBatches
import SortView.Collector.V2Run
import SortView.Collector.StoredRecords
import SortView.Agent.AgentRuns
import SortView.Services.Accounts
import SortView.Services.AccountMoves
import SortView.Services.AccountCommits
import SortView.Services.EndedSessions
import SortView.Services.LoginLockout
import SortView.Lib.AtomicFile
import SortView.Lib.JsonLayout
import SortView.Agent.StateDocument
import SortView.Agent.StateRuns
import SortView.Installer.BundleVerifier
import SortView.Installer.BundleWalk
import SortView.Installer.AcceptedBundles
import SortView.Installer.PromptSession
import SortView.Installer.PromptMoves
import SortView.Installer.IssuedCodes
import SortView.Collector.StateStore
import SortView.Services.EstimateLosses
