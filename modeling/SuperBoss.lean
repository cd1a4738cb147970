import SuperBoss.Library.Transition
import SuperBoss.Library.Interleaving
import SuperBoss.Library.Table
import SuperBoss.Core.Text
import SuperBoss.Core.Json
import SuperBoss.Core.Values
import SuperBoss.Core.Fields
import SuperBoss.Core.Platform
import SuperBoss.Files.Models
import SuperBoss.Files.Storage
import SuperBoss.Library.Framing
import SuperBoss.Infrastructure.Clamav
import SuperBoss.Imports.Models
import SuperBoss.Imports.Schemas
import SuperBoss.Imports.Evaluate
import SuperBoss.Server.Store
import SuperBoss.Server.Machine
import SuperBoss.Server.Uploads
import SuperBoss.Server.ImportJobs
import SuperBoss.Server.Scans
import SuperBoss.Server.System
import SuperBoss.Files.Lifecycle
import SuperBoss.Server.Evolution
import SuperBoss.Server.Annotation
import SuperBoss.Server.Soundness
import SuperBoss.Server.Outline
import SuperBoss.Server.FileLifecycle
import SuperBoss.Server.Updates
import SuperBoss.Server.CleanEvidence
import SuperBoss.Server.CompletionReplay
import SuperBoss.Server.Recovery
import SuperBoss.Server.StrandedScans
import SuperBoss.Server.JobLifecycle
import SuperBoss.Server.WakeUp
import SuperBoss.Server.StoredManifests
import SuperBoss.Connector.Manifest
import SuperBoss.Connector.Canonical
import SuperBoss.Server.Writes
import SuperBoss.Server.Creations
import SuperBoss.Connector.Outbox
import SuperBoss.Connector.Client
import SuperBoss.Connector.Agreement
import SuperBoss.Server.CreateIdempotency
import SuperBoss.Connector.CreatedJobs
import SuperBoss.Server.Confluence
import SuperBoss.Library.Transactions
import SuperBoss.Core.Security
import SuperBoss.Auth.Models
import SuperBoss.Auth.Service
import SuperBoss.Auth.Isolation
import SuperBoss.Core.Tokens
import SuperBoss.Auth.Disclosure
import SuperBoss.Auth.Revocation
import SuperBoss.Devices.Models
import SuperBoss.Devices.Service
import SuperBoss.Devices.Isolation
import SuperBoss.Devices.Credentials
import SuperBoss.Devices.Authorization
import SuperBoss.Library.Promises
import SuperBoss.Web.Models
import SuperBoss.Web.Client
import SuperBoss.Web.SingleFlight
import SuperBoss.Web.Waiting
import SuperBoss.Web.Progress
import SuperBoss.Web.Deadlock
import SuperBoss.Api.Requests
import SuperBoss.Api.Csrf
import SuperBoss.Library.Components
import SuperBoss.Users.Service
import SuperBoss.Users.System
import SuperBoss.Users.OwnerProtection
import SuperBoss.Auth.Lockout
import SuperBoss.Audit.Service
import SuperBoss.Audit.Durability
import SuperBoss.Library.Faults
import SuperBoss.Connector.Updater
import SuperBoss.Connector.UpdateSafety
import SuperBoss.Core.Encoding
import SuperBoss.Files.Fingerprint
import SuperBoss.Server.StartIdempotency
import SuperBoss.Server.FileDenials
import SuperBoss.Library.Subtable
import SuperBoss.Server.Ownership
import SuperBoss.Server.DeviceView
import SuperBoss.Server.DeviceSteps
import SuperBoss.Server.Noninterference
import SuperBoss.Infrastructure.Instream
import SuperBoss.Server.ObjectKeys
import SuperBoss.Core.Addresses
import SuperBoss.Core.Urls
import SuperBoss.Connector.Origins
import SuperBoss.Connector.Destinations
import SuperBoss.Audit.Metadata
import SuperBoss.Audit.Trees
import SuperBoss.Audit.Redaction
import SuperBoss.Api.ActorErrors
import SuperBoss.Core.JsonText
import SuperBoss.Connector.OutboxFile
import SuperBoss.Connector.OutboxStore
import SuperBoss.Connector.ProcessedAt
import SuperBoss.Server.SubmissionTimes
import SuperBoss.Devices.TimeOrder
import SuperBoss.Server.CompletionOutcomes
import SuperBoss.Web.Logout
import SuperBoss.Core.Utf16
import SuperBoss.Core.Calendar
import SuperBoss.Files.Requests
import SuperBoss.Web.Files
import SuperBoss.Web.Agreement
import SuperBoss.Web.Uploads
import SuperBoss.Web.Acceptance
import SuperBoss.Web.Multipart
import SuperBoss.Infrastructure.S3
import SuperBoss.Core.WebUrls
import SuperBoss.Web.Redirects
import SuperBoss.Web.Imports
import SuperBoss.Web.OwnerList
import SuperBoss.Library.Procedures
import SuperBoss.Connector.Markers
import SuperBoss.Connector.Responses
import SuperBoss.Connector.Commands
import SuperBoss.Connector.Progress
import SuperBoss.Connector.Guarantees
import SuperBoss.Connector.CallRules
import SuperBoss.Connector.Uploading
import SuperBoss.Connector.Resuming
import SuperBoss.Connector.Pairing
import SuperBoss.Connector.Sessions
import SuperBoss.Server.SettledFiles
import SuperBoss.Server.UploadRetries
import SuperBoss.Core.Encodable
import SuperBoss.Connector.Assistance
import SuperBoss.Connector.Recovery
import SuperBoss.Connector.Writable
import SuperBoss.Connector.PairRecovery
import SuperBoss.Connector.Assured
