import MontrSecure.Api.Approvers
import MontrSecure.Api.Auth
import MontrSecure.Api.AuthProtocol
import MontrSecure.Api.Bootstrap
import MontrSecure.Api.Cron
import MontrSecure.Api.CronGrammar
import MontrSecure.Api.CronReadings
import MontrSecure.Api.DastRoutes
import MontrSecure.Api.Http
import MontrSecure.Api.NextRun
import MontrSecure.Api.ScanRoutes
import MontrSecure.Api.Scenarios
import MontrSecure.Api.Schedules
import MontrSecure.AppMap.Coverage
import MontrSecure.AppMap.DiffClosure
import MontrSecure.AppMap.DiffCoverage
import MontrSecure.AppMap.DiffScope
import MontrSecure.AppMap.ExpressRoutes
import MontrSecure.AppMap.FailSafe
import MontrSecure.AppMap.MiddlewareMatcher
import MontrSecure.AppMap.MiddlewareReach
import MontrSecure.AppMap.ModelPasses
import MontrSecure.AppMap.NextRoutes
import MontrSecure.AppMap.RouteIds
import MontrSecure.AppMap.RouteScan
import MontrSecure.AppMap.SourceSyntax
import MontrSecure.AppMap.ThreatModel
import MontrSecure.Async.Accounts
import MontrSecure.Async.Asking
import MontrSecure.Async.Embedding
import MontrSecure.Async.Interleaving
import MontrSecure.Async.Lawful
import MontrSecure.Async.Program
import MontrSecure.Async.Running
import MontrSecure.Audit.Appending
import MontrSecure.Audit.Export
import MontrSecure.Audit.HashChain
import MontrSecure.Audit.Log
import MontrSecure.Audit.TamperEvidence
import MontrSecure.Audit.Verifiable
import MontrSecure.Confirm.Commands
import MontrSecure.Confirm.Delays
import MontrSecure.Confirm.Demotion
import MontrSecure.Confirm.Findings
import MontrSecure.Confirm.Guard
import MontrSecure.Confirm.Heuristics
import MontrSecure.Confirm.InsideCheckout
import MontrSecure.Confirm.InvestigateTools
import MontrSecure.Confirm.Investigation
import MontrSecure.Confirm.LiveBatch
import MontrSecure.Confirm.LiveConfirm
import MontrSecure.Confirm.LiveContacts
import MontrSecure.Confirm.LiveGate
import MontrSecure.Confirm.LiveProbes
import MontrSecure.Confirm.PayloadSafety
import MontrSecure.Confirm.Probes
import MontrSecure.Confirm.PurpleLoop
import MontrSecure.Confirm.RateLimit
import MontrSecure.Confirm.Scenarios
import MontrSecure.Confirm.Static
import MontrSecure.Confirm.Tags
import MontrSecure.Confirm.TargetChecks
import MontrSecure.Confirm.Transcripts
import MontrSecure.Contracts.Basic
import MontrSecure.Contracts.Layers
import MontrSecure.Contracts.Phase4
import MontrSecure.Contracts.Scan
import MontrSecure.Contracts.Schemas
import MontrSecure.Correlation.AttackPaths
import MontrSecure.Correlation.Collisions
import MontrSecure.Correlation.Conservation
import MontrSecure.Correlation.Correlate
import MontrSecure.Correlation.Enumeration
import MontrSecure.Correlation.Grounding
import MontrSecure.Correlation.Noninterference
import MontrSecure.Correlation.OrderIndependence
import MontrSecure.Correlation.Ranking
import MontrSecure.Correlation.Scoring
import MontrSecure.Correlation.Taxonomy
import MontrSecure.Correlation.TopChains
import MontrSecure.CostMeter.Meter
import MontrSecure.Data.Fallible
import MontrSecure.Data.GreedyMatching
import MontrSecure.Data.Grouping
import MontrSecure.Data.InsertionMap
import MontrSecure.Data.Scoped
import MontrSecure.Data.Splicing
import MontrSecure.Data.Table
import MontrSecure.Discovery.Deduplication
import MontrSecure.Discovery.LockKeys
import MontrSecure.Discovery.Scope
import MontrSecure.Discovery.SemverMatching
import MontrSecure.Discovery.SemverRanges
import MontrSecure.Discovery.SemverReading
import MontrSecure.Discovery.Triage
import MontrSecure.Discovery.Typosquats
import MontrSecure.Fix.Conversations
import MontrSecure.Fix.Edits
import MontrSecure.Fix.Eligible
import MontrSecure.Fix.Generate
import MontrSecure.Fix.Risk
import MontrSecure.Fix.Validate
import MontrSecure.Git.Checkout
import MontrSecure.Graph.BreadthFirst
import MontrSecure.Graph.ChainValues
import MontrSecure.Graph.Chains
import MontrSecure.Js.Calendar
import MontrSecure.Js.Decimals
import MontrSecure.Js.Json
import MontrSecure.Js.Number
import MontrSecure.Js.Parse
import MontrSecure.Js.Path
import MontrSecure.Js.Stringify
import MontrSecure.Js.Value
import MontrSecure.LlmGateway.Completing
import MontrSecure.LlmGateway.Dispatching
import MontrSecure.LlmGateway.Ledger
import MontrSecure.LlmGateway.PreCallBudget
import MontrSecure.Machine.Runs
import MontrSecure.Orchestrator.Controller
import MontrSecure.Orchestrator.Decisions
import MontrSecure.Orchestrator.EstimateGate
import MontrSecure.Orchestrator.EventBus
import MontrSecure.Orchestrator.FixApproval
import MontrSecure.Orchestrator.FixGate
import MontrSecure.Orchestrator.Fsm
import MontrSecure.Orchestrator.History
import MontrSecure.Orchestrator.Independence
import MontrSecure.Orchestrator.InlineScheduler
import MontrSecure.Orchestrator.KillHolds
import MontrSecure.Orchestrator.KillSwitch
import MontrSecure.Orchestrator.Lifecycle
import MontrSecure.Orchestrator.LiveDast
import MontrSecure.Orchestrator.Pipeline
import MontrSecure.Orchestrator.Processor
import MontrSecure.Orchestrator.Protocol
import MontrSecure.Orchestrator.Provenance
import MontrSecure.Orchestrator.ResumeDelivery
import MontrSecure.Orchestrator.Runs
import MontrSecure.Orchestrator.Runtime
import MontrSecure.Orchestrator.Stored
import MontrSecure.Orchestrator.Targets
import MontrSecure.Orchestrator.Walk
import MontrSecure.Qa.Scorer
import MontrSecure.Relational.Cascade
import MontrSecure.Relational.Tables
import MontrSecure.Relational.Tenancy
import MontrSecure.Relational.Transaction
import MontrSecure.Report.AutoFix
import MontrSecure.Report.LiveRules
import MontrSecure.Report.OncePerFix
import MontrSecure.Report.RuleContext
import MontrSecure.Report.RuleFormats
import MontrSecure.Report.RuleReadBack
import MontrSecure.Report.Sarif
import MontrSecure.Report.SigmaRules
import MontrSecure.Report.Vcs
import MontrSecure.Security.Agreement
import MontrSecure.Security.Egress
import MontrSecure.Security.Scrubber
import MontrSecure.Security.Secrecy
import MontrSecure.Security.SecretFormats
import MontrSecure.SemanticIndex.Chunk
import MontrSecure.SemanticIndex.Index
import MontrSecure.SemanticIndex.Layer0
import MontrSecure.StateStore.Database
import MontrSecure.StateStore.Isolation
import MontrSecure.StateStore.Phase4
import MontrSecure.StateStore.PromptVersions
import MontrSecure.StateStore.Reading
import MontrSecure.StateStore.Repositories
import MontrSecure.StateStore.Retention
import MontrSecure.StateStore.Schema
import MontrSecure.StateStore.Tenants
import MontrSecure.Telemetry.Logger
import MontrSecure.Text.Contexts
import MontrSecure.Text.EditDistance
import MontrSecure.Text.Languages
import MontrSecure.Text.Listing
import MontrSecure.Text.Matching
import MontrSecure.Text.Quoting
import MontrSecure.Text.SelfDelimiting
import MontrSecure.Text.Slugs
import MontrSecure.Text.Splitting
import MontrSecure.Worker.Restart
import MontrSecure.Worker.ScanScheduler
import MontrSecure.Worker.ScenarioEdits
import MontrSecure.Worker.ScenarioGrants
import MontrSecure.Worker.ScenarioProtocol
import MontrSecure.Worker.ScenarioRuns
