import NetworkPolicy.Access.Authenticator
import NetworkPolicy.Access.Bearer
import NetworkPolicy.Access.Caller
import NetworkPolicy.Access.Collaborators
import NetworkPolicy.Access.Guard
import NetworkPolicy.Client.Call
import NetworkPolicy.Client.Directory
import NetworkPolicy.Client.Listing
import NetworkPolicy.Client.Services
import NetworkPolicy.Client.Tokens
import NetworkPolicy.Client.Trust
import NetworkPolicy.Command
import NetworkPolicy.Config.Basic
import NetworkPolicy.Config.Example
import NetworkPolicy.Config.Form
import NetworkPolicy.Config.Load
import NetworkPolicy.Config.Validation
import NetworkPolicy.Files
import NetworkPolicy.Http.Message
import NetworkPolicy.Http.Status
import NetworkPolicy.Json.Document
import NetworkPolicy.Json.Fault
import NetworkPolicy.Json.Numeral
import NetworkPolicy.Json.Read
import NetworkPolicy.Json.Token
import NetworkPolicy.Json.Value
import NetworkPolicy.Log.Event
import NetworkPolicy.Log.Level
import NetworkPolicy.Log.Logger
import NetworkPolicy.Log.Setup
import NetworkPolicy.Main
import NetworkPolicy.Metrics
import NetworkPolicy.Network.Address
import NetworkPolicy.Number.Digits
import NetworkPolicy.Number.Shortest
import NetworkPolicy.OrderedMap
import NetworkPolicy.Policy.Basic
import NetworkPolicy.Policy.Body
import NetworkPolicy.Policy.Form
import NetworkPolicy.Policy.Tag
import NetworkPolicy.Policy.Validation
import NetworkPolicy.Proofs.Access.Admission
import NetworkPolicy.Proofs.Access.Bearer
import NetworkPolicy.Proofs.Access.Likeness
import NetworkPolicy.Proofs.Access.Permission
import NetworkPolicy.Proofs.Access.Questions
import NetworkPolicy.Proofs.Access.Visibility
import NetworkPolicy.Proofs.Client.Directory
import NetworkPolicy.Proofs.Client.Listing
import NetworkPolicy.Proofs.Config.TokenService
import NetworkPolicy.Proofs.Config.Validation
import NetworkPolicy.Proofs.Files
import NetworkPolicy.Proofs.Json.Building
import NetworkPolicy.Proofs.Json.Meaning
import NetworkPolicy.Proofs.Json.Members
import NetworkPolicy.Proofs.Json.Records
import NetworkPolicy.Proofs.Json.Respelling
import NetworkPolicy.Proofs.Json.Scanning
import NetworkPolicy.Proofs.Json.Spelling
import NetworkPolicy.Proofs.Json.Tokens
import NetworkPolicy.Proofs.Json.Trees
import NetworkPolicy.Proofs.Json.Values
import NetworkPolicy.Proofs.Lists
import NetworkPolicy.Proofs.Log.Lines
import NetworkPolicy.Proofs.Log.Sinks
import NetworkPolicy.Proofs.Number.Digits
import NetworkPolicy.Proofs.OrderedMap
import NetworkPolicy.Proofs.Policy.Meaning
import NetworkPolicy.Proofs.Policy.Refusals
import NetworkPolicy.Proofs.Policy.RoundTrip
import NetworkPolicy.Proofs.Policy.Rules
import NetworkPolicy.Proofs.Policy.Tag
import NetworkPolicy.Proofs.Policy.Text
import NetworkPolicy.Proofs.Policy.Versions
import NetworkPolicy.Proofs.Server.Addressing
import NetworkPolicy.Proofs.Server.Admission
import NetworkPolicy.Proofs.Server.Answers
import NetworkPolicy.Proofs.Server.Changes
import NetworkPolicy.Proofs.Server.Cleaning
import NetworkPolicy.Proofs.Server.FanOut
import NetworkPolicy.Proofs.Server.Interleaving
import NetworkPolicy.Proofs.Server.Likeness
import NetworkPolicy.Proofs.Server.Listing
import NetworkPolicy.Proofs.Server.Quota
import NetworkPolicy.Proofs.Server.Relisting
import NetworkPolicy.Proofs.Server.Runs
import NetworkPolicy.Proofs.Server.Startup
import NetworkPolicy.Proofs.Server.Steps
import NetworkPolicy.Proofs.Store.Agreement
import NetworkPolicy.Proofs.Store.Allocation
import NetworkPolicy.Proofs.Store.Atomicity
import NetworkPolicy.Proofs.Store.BatchLaws
import NetworkPolicy.Proofs.Store.Batches
import NetworkPolicy.Proofs.Store.Calls
import NetworkPolicy.Proofs.Store.Capacity
import NetworkPolicy.Proofs.Store.Condition
import NetworkPolicy.Proofs.Store.Consistency
import NetworkPolicy.Proofs.Store.Courses
import NetworkPolicy.Proofs.Store.Damage
import NetworkPolicy.Proofs.Store.Deletion
import NetworkPolicy.Proofs.Store.Groups
import NetworkPolicy.Proofs.Store.Layers
import NetworkPolicy.Proofs.Store.Memory
import NetworkPolicy.Proofs.Store.Opened
import NetworkPolicy.Proofs.Store.Persistence
import NetworkPolicy.Proofs.Store.Postgres
import NetworkPolicy.Proofs.Store.Protocol
import NetworkPolicy.Proofs.Store.Provision
import NetworkPolicy.Proofs.Store.Query
import NetworkPolicy.Proofs.Store.Reading
import NetworkPolicy.Proofs.Store.Realization
import NetworkPolicy.Proofs.Store.Recursion
import NetworkPolicy.Proofs.Store.Representation
import NetworkPolicy.Proofs.Store.Requests
import NetworkPolicy.Proofs.Store.Served
import NetworkPolicy.Proofs.Store.Sessions
import NetworkPolicy.Proofs.Store.Shown
import NetworkPolicy.Proofs.Store.Soundness
import NetworkPolicy.Proofs.Store.Sqlite
import NetworkPolicy.Proofs.Store.Tables
import NetworkPolicy.Proofs.Store.Undisturbed
import NetworkPolicy.Proofs.Store.Undoing
import NetworkPolicy.Proofs.Store.Vacancies
import NetworkPolicy.Proofs.Text.Bytes
import NetworkPolicy.Proofs.Text.Ends
import NetworkPolicy.Proofs.Url.Authority
import NetworkPolicy.Proofs.Url.Form
import NetworkPolicy.Proofs.Url.Host
import NetworkPolicy.Proofs.Url.Web
import NetworkPolicy.Reading.Mismatch
import NetworkPolicy.Server.Background
import NetworkPolicy.Server.Cleaner
import NetworkPolicy.Server.Failure
import NetworkPolicy.Server.Handlers
import NetworkPolicy.Server.Routes
import NetworkPolicy.Server.Startup
import NetworkPolicy.Server.Task
import NetworkPolicy.Server.World
import NetworkPolicy.Store.Basic
import NetworkPolicy.Store.Condition
import NetworkPolicy.Store.Connection
import NetworkPolicy.Store.File
import NetworkPolicy.Store.Layers
import NetworkPolicy.Store.Memory
import NetworkPolicy.Store.Opened
import NetworkPolicy.Store.Postgres
import NetworkPolicy.Store.Recursion
import NetworkPolicy.Store.Rows
import NetworkPolicy.Store.Session
import NetworkPolicy.Store.Sqlite
import NetworkPolicy.Store.Tables
import NetworkPolicy.Text.Base64
import NetworkPolicy.Text.Blank
import NetworkPolicy.Text.Quoted
import NetworkPolicy.Text.Symbol
import NetworkPolicy.Text.Unseen
import NetworkPolicy.Toml.Document
import NetworkPolicy.Toml.Read
import NetworkPolicy.Toml.Scalar
import NetworkPolicy.Toml.Token
import NetworkPolicy.Toml.Value
import NetworkPolicy.Url.Basic
import NetworkPolicy.Url.Form
import NetworkPolicy.Url.Host
import NetworkPolicy.Url.Percent
import NetworkPolicy.Url.Punycode
