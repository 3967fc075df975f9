import Orchestrator.Api.Validation
import Orchestrator.Properties.Accounting
import Orchestrator.Properties.History
import Orchestrator.Properties.Deletion
import Orchestrator.Properties.Lifecycle
import Orchestrator.Properties.Convergence
import Orchestrator.Properties.Queue
import Orchestrator.Properties.Irrevocable
import Orchestrator.Service.Leadership
import Orchestrator.Properties.Leadership
import Orchestrator.Service.Volumes
import Orchestrator.Properties.Volumes
import Orchestrator.Logic.Frames
import Orchestrator.Properties.Cron
import Orchestrator.Properties.Jobs
import Orchestrator.Properties.Usage
import Orchestrator.Properties.Delivery
import Orchestrator.Logic.Throughout
import Orchestrator.Properties.Isolation
import Orchestrator.Lib.Protocol
import Orchestrator.Logic.Clients
import Orchestrator.Properties.Quota
import Orchestrator.Lib.Commit
import Orchestrator.Properties.Serial
import Orchestrator.Properties.Snapshot
import Orchestrator.Lib.Sessions
import Orchestrator.Properties.Exclusion
import Orchestrator.Lib.Delimited
import Orchestrator.Lib.Slices
import Orchestrator.Store.Badger
import Orchestrator.Properties.Maps
import Orchestrator.Service.Routing
import Orchestrator.Service.Tenancy
import Orchestrator.Api.Http
import Orchestrator.Api.Handlers
import Orchestrator.Properties.Traffic
import Orchestrator.Lib.Regime
import Orchestrator.Logic.Regimes
import Orchestrator.Properties.Viewers
import Orchestrator.Logic.Services
import Orchestrator.Logic.Roles
import Orchestrator.Properties.Escalation
import Orchestrator.Controller.Manager
import Orchestrator.Properties.Sharding
import Orchestrator.Api.Grpc
import Orchestrator.Logic.Accesses
import Orchestrator.Properties.Admission
import Orchestrator.Properties.Preemption
import Orchestrator.Properties.Replicas
import Orchestrator.Logic.Verdict
import Orchestrator.Properties.Canary
import Orchestrator.Properties.Addresses
import Orchestrator.Properties.Oscillation
import Orchestrator.Properties.Writers
import Orchestrator.Api.Traffic
import Orchestrator.Lib.Holders
import Orchestrator.Logic.Traffic
import Orchestrator.Properties.Inflight
import Orchestrator.Properties.References
import Orchestrator.Properties.Scopes
import Orchestrator.Properties.Scheduling
import Orchestrator.Logic.Scaling
import Orchestrator.Properties.Recommendations
import Orchestrator.Properties.Cooldown
import Orchestrator.Properties.Health
import Orchestrator.Properties.Deadline
import Orchestrator.Properties.Updates
import Orchestrator.Properties.Roles
import Orchestrator.Properties.Endpoints
import Orchestrator.Properties.Balancing
import Orchestrator.Properties.Policies
import Orchestrator.Properties.Ports
import Orchestrator.Properties.Budget
import Orchestrator.Logic.Durations
import Orchestrator.Properties.Durations
import Orchestrator.Api.Dns
import Orchestrator.Properties.Names
import Orchestrator.Lib.Fixed
import Orchestrator.Logic.Calendar
import Orchestrator.Logic.Timestamps
import Orchestrator.Lib.Latest
import Orchestrator.Properties.Chronology
import Orchestrator.Auth.Keys
import Orchestrator.Properties.Containers
