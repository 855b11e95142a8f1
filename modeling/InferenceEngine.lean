import InferenceEngine.Model.Version
import InferenceEngine.Options.Server
import InferenceEngine.Request.Header
import InferenceEngine.Response.Header
import InferenceEngine.Status
import InferenceEngine.Text.Blank
import InferenceEngine.Text.Alphanumeric
import InferenceEngine.Logging.Level
import InferenceEngine.Logging.Filter
import InferenceEngine.Options.Setting
import InferenceEngine.Options.Load
import InferenceEngine.Memory.Allocator
import InferenceEngine.SharedMemory.Registry
import InferenceEngine.Model.Reconcile
import InferenceEngine.Server.Execution
import InferenceEngine.Engine.Operation
import InferenceEngine.Session.Buffers
import InferenceEngine.Session.Servers
import InferenceEngine.Session.Requests
import InferenceEngine.Session.Regions
import InferenceEngine.Proofs.Models.Validity
import InferenceEngine.Proofs.Runs.Move
import InferenceEngine.Proofs.Runs.Operations
import InferenceEngine.Proofs.Runs.Reach
import InferenceEngine.Proofs.Requests.Queue
import InferenceEngine.Proofs.Requests.Callbacks
import InferenceEngine.Proofs.Requests.Attempts
import InferenceEngine.Proofs.Requests.Providers
import InferenceEngine.Proofs.Requests.Making
import InferenceEngine.Proofs.Requests.Products
import InferenceEngine.Proofs.Requests.Edits
import InferenceEngine.Proofs.Requests.Acceptance
import InferenceEngine.Proofs.Memory.Accounts
import InferenceEngine.Proofs.Memory.Executions
import InferenceEngine.Proofs.Execution.Backends
import InferenceEngine.Proofs.Memory.Holders
import InferenceEngine.Proofs.Memory.Usage
import InferenceEngine.Proofs.Requests.History
import InferenceEngine.Proofs.Execution.Batches
import InferenceEngine.Proofs.Execution.Starts
import InferenceEngine.Proofs.Execution.Deliveries
import InferenceEngine.Proofs.Execution.Answers
import InferenceEngine.Proofs.Regions.Handles
import InferenceEngine.Proofs.Runs.Frames
import InferenceEngine.Proofs.Servers.Steps
import InferenceEngine.Proofs.Servers.Relations
import InferenceEngine.Proofs.Servers.Shutdown
import InferenceEngine.Proofs.Servers.Stops
import InferenceEngine.Proofs.Requests.Driven
import InferenceEngine.Proofs.Runs.Progress
import InferenceEngine.Proofs.Servers.Draining
import InferenceEngine.Proofs.Regions.Turns
import InferenceEngine.Proofs.Regions.Writes
import InferenceEngine.Proofs.Regions.Results
import InferenceEngine.Proofs.Models.Numbering
import InferenceEngine.Proofs.Runs.Alike
import InferenceEngine.Proofs.Servers.Polls
import InferenceEngine.Proofs.Execution.Courses
import InferenceEngine.Proofs.Requests.Pinned
import InferenceEngine.Proofs.Models.Configs
import InferenceEngine.Proofs.Models.Idempotence
import InferenceEngine.Proofs.Models.Listings
import InferenceEngine.Proofs.Models.Entries
import InferenceEngine.Proofs.Models.Scans
import InferenceEngine.Proofs.Models.Tables
import InferenceEngine.Proofs.Models.Repositories
import InferenceEngine.Proofs.Models.Mirror
import InferenceEngine.Proofs.Models.Mentions
import InferenceEngine.Proofs.Requests.Slots
import InferenceEngine.Proofs.Runs.Attends
import InferenceEngine.Proofs.Requests.Precedence
import InferenceEngine.Proofs.Requests.Asking
import InferenceEngine.Proofs.Requests.Granting
import InferenceEngine.Proofs.Requests.Lineup
import InferenceEngine.Proofs.Memory.Pools
import InferenceEngine.Proofs.Models.Factories
import InferenceEngine.Proofs.Models.Failures
import InferenceEngine.Proofs.Models.ExitOnError
import InferenceEngine.Proofs.Execution.Causes
import InferenceEngine.Proofs.Models.Loaded
import InferenceEngine.Proofs.Models.Counters
import InferenceEngine.Proofs.Memory.HostMemory
import InferenceEngine.Proofs.Json.Literals
import InferenceEngine.Proofs.Json.Documents
import InferenceEngine.Proofs.Json.Records
import InferenceEngine.Proofs.Json.RoundTrips
import InferenceEngine.Proofs.Text.ByteOrder
import InferenceEngine.Proofs.Regions.Managers
import InferenceEngine.Proofs.Regions.Outcomes
import InferenceEngine.Proofs.Regions.Origins
import InferenceEngine.Proofs.Models.Balances
import InferenceEngine.Proofs.Execution.Handovers
import InferenceEngine.Proofs.Execution.SlotOrder
import InferenceEngine.Proofs.Execution.Copies
import InferenceEngine.Proofs.Memory.Returns
import InferenceEngine.Proofs.Execution.Displacements
import InferenceEngine.Proofs.Execution.Contents
import InferenceEngine.Proofs.Regions.Landings
import InferenceEngine.Proofs.Regions.Transports
import InferenceEngine.Proofs.Servers.Statuses
import InferenceEngine.Proofs.Models.Resolutions
import InferenceEngine.Proofs.Regions.Creations
import InferenceEngine.Proofs.Regions.Accesses
import InferenceEngine.Proofs.Memory.Losses
import InferenceEngine.Proofs.Regions.Statements
import InferenceEngine.Proofs.Models.Addresses
import InferenceEngine.Proofs.Servers.Leftovers
import InferenceEngine.Proofs.Options.Layers
import InferenceEngine.Proofs.Regions.Elements
import InferenceEngine.Proofs.Regions.Keys
import InferenceEngine.Proofs.Regions.KeyedCalls
import InferenceEngine.Proofs.Sessions.Steps
import InferenceEngine.Proofs.Sessions.Waiting
