import OpenWA.Async.Discipline
import OpenWA.Async.History
import OpenWA.Async.Machine
import OpenWA.Async.Promise
import OpenWA.Async.Restrict
import OpenWA.Async.Zoom
import OpenWA.Auth.ApiKey
import OpenWA.Auth.AuthService
import OpenWA.Auth.LastAdmin
import OpenWA.AuthDir.Ownership
import OpenWA.Automation.Pacing
import OpenWA.Backup.ExportTables
import OpenWA.Backup.InfraData
import OpenWA.Backup.Mirrors
import OpenWA.Backup.RoundTrip
import OpenWA.Backup.TableImporters
import OpenWA.Backup.Tables
import OpenWA.Backup.Transaction
import OpenWA.Baileys.Buttons
import OpenWA.Baileys.Calls
import OpenWA.Baileys.Contacts
import OpenWA.Baileys.Eviction
import OpenWA.Baileys.FindContact
import OpenWA.Baileys.Lifecycle
import OpenWA.Baileys.LruMap
import OpenWA.Baileys.ReconnectLoop
import OpenWA.Baileys.TerminalClose
import OpenWA.Budget.Accounting
import OpenWA.Budget.InflightBodyBudget
import OpenWA.Capability.Confinement
import OpenWA.Capability.Gates
import OpenWA.Capability.Isolation
import OpenWA.Capability.Mappings
import OpenWA.Capability.Slots
import OpenWA.Capability.Verbs
import OpenWA.ChatState.ChatStateStore
import OpenWA.ChatState.NoLostPatch
import OpenWA.Concurrency.KeyedChain
import OpenWA.Concurrency.Limiter
import OpenWA.Concurrency.Replay
import OpenWA.Config.BootGuard
import OpenWA.Config.RoundTrip
import OpenWA.Config.SaveConfig
import OpenWA.Dashboard.ChatMessages
import OpenWA.Dashboard.MessageFormatter
import OpenWA.Dashboard.MessagePages
import OpenWA.Dashboard.MessagesCache
import OpenWA.Dashboard.PagedThread
import OpenWA.Disk.Crash
import OpenWA.Disk.Directory
import OpenWA.Disk.PosixPath
import OpenWA.Disk.Tree
import OpenWA.Events.EventsGateway
import OpenWA.Events.SlidingWindow
import OpenWA.Events.Sweep
import OpenWA.Events.TokenBucket
import OpenWA.Fence.Teardowns
import OpenWA.Hooks.Chain
import OpenWA.Hooks.HookManager
import OpenWA.Identity.NeutralForm
import OpenWA.Identity.WaId
import OpenWA.Ingress.Ack
import OpenWA.Ingress.Durability
import OpenWA.Ingress.JobId
import OpenWA.Ingress.Pipeline
import OpenWA.Ingress.Records
import OpenWA.Ingress.Signature
import OpenWA.Integration.Coverage
import OpenWA.Integration.Dispatch
import OpenWA.Integration.Isolation
import OpenWA.Js.Double
import OpenWA.Js.Encoding
import OpenWA.Js.ExactNumber
import OpenWA.Js.Json
import OpenWA.Js.JsonParse
import OpenWA.Js.JsonText
import OpenWA.Js.Map
import OpenWA.Js.NumberText
import OpenWA.Js.Split
import OpenWA.Lid.Agreement
import OpenWA.Lid.Inverse
import OpenWA.Lid.LidMappingStore
import OpenWA.Lid.Representation
import OpenWA.Lifecycle.Binding
import OpenWA.Lifecycle.ClaimAgreement
import OpenWA.Lifecycle.Functions
import OpenWA.Lifecycle.LiveEngine
import OpenWA.Lifecycle.Memory
import OpenWA.Lifecycle.OneNode
import OpenWA.Lifecycle.Places
import OpenWA.Lifecycle.StopFinal
import OpenWA.Message.Budgets
import OpenWA.Message.Candidates
import OpenWA.Message.Exclusivity
import OpenWA.Message.History
import OpenWA.Message.Progress
import OpenWA.Message.SendBreaker
import OpenWA.Message.SendFailure
import OpenWA.Message.SendPacing
import OpenWA.Net.Ip
import OpenWA.Order.Preference
import OpenWA.Paging.Offset
import OpenWA.Paging.Sorted
import OpenWA.PluginStorage.FiniteMap
import OpenWA.PluginStorage.Storage
import OpenWA.PluginUpdate.CrashSafety
import OpenWA.PluginUpdate.Install
import OpenWA.PluginUpdate.Package
import OpenWA.PluginUpdate.Update
import OpenWA.Plugins.PropertyLoop
import OpenWA.Plugins.RedactConfig
import OpenWA.Plugins.RowMatching
import OpenWA.Plugins.SecretRoundTrip
import OpenWA.Reconnect.Policy
import OpenWA.Restore.Capacity
import OpenWA.Restore.Gateway
import OpenWA.Restore.Orphans
import OpenWA.Restriction.Announced
import OpenWA.Restriction.Store
import OpenWA.Routing.Cluster
import OpenWA.Routing.Forwarding
import OpenWA.Routing.OneRun
import OpenWA.Sandbox.HookChain
import OpenWA.Sandbox.Settlement
import OpenWA.Sandbox.WorkerHooks
import OpenWA.Sandbox.WorkerHost
import OpenWA.Search.Scope
import OpenWA.Sqlite.Keyed
import OpenWA.Sqlite.Ordered
import OpenWA.Sqlite.Table
import OpenWA.Ssrf.Literal
import OpenWA.Ssrf.Reading
import OpenWA.Ssrf.RedirectChain
import OpenWA.Ssrf.SafeFetch
import OpenWA.Ssrf.SsrfGuard
import OpenWA.Ssrf.Verdict
import OpenWA.StatusStore.ByContact
import OpenWA.Storage.Migration
import OpenWA.Storage.OrphanSweep
import OpenWA.Storage.Service
import OpenWA.Stored.ForwardOnly
import OpenWA.Stored.MutationLine
import OpenWA.Stored.NoLostUpdate
import OpenWA.Stored.Rows
import OpenWA.Stored.Writers
import OpenWA.Webhooks.Delivery
import OpenWA.Webhooks.Dialects
import OpenWA.Webhooks.Durability
import OpenWA.Webhooks.Envelope
import OpenWA.Webhooks.EnvelopeIntegrity
import OpenWA.Webhooks.Filters
import OpenWA.Webhooks.IdempotencyKey
import OpenWA.Wwebjs.Reconcile
