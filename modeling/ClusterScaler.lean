import ClusterScaler.Api.Routes
import ClusterScaler.CommandLine.Execution
import ClusterScaler.Main
import ClusterScaler.Simulation.Session
import ClusterScaler.Proofs.Program.Protocol
import ClusterScaler.Proofs.Table.Lookup
import ClusterScaler.Proofs.Tick.Steps
import ClusterScaler.Proofs.Exclusion.Pool
import ClusterScaler.Proofs.Planning.Candidates
import ClusterScaler.Proofs.Tick.Plan
import ClusterScaler.Proofs.Exclusion.Tick
import ClusterScaler.Proofs.Exclusion.Instants
import ClusterScaler.Proofs.Demand.Counts
import ClusterScaler.Proofs.Tick.Passage
import ClusterScaler.Proofs.Planning.Excess
import ClusterScaler.Proofs.Tick.Success
import ClusterScaler.Proofs.Tick.Hashes
import ClusterScaler.Proofs.Config.Validation
import ClusterScaler.Proofs.Planning.Orders
import ClusterScaler.Proofs.Tick.Memory
import ClusterScaler.Proofs.Planning.Repeat
import ClusterScaler.Proofs.Exclusion.Sessions
import ClusterScaler.Proofs.Breaker.Runs
import ClusterScaler.Proofs.Capacity.Targets
import ClusterScaler.Proofs.Capacity.Caps
import ClusterScaler.Proofs.Updating.Retries
import ClusterScaler.Proofs.Tick.Unread
import ClusterScaler.Proofs.Updating.Heads
import ClusterScaler.Proofs.Pool.Reopening
import ClusterScaler.Proofs.Pool.Transactions
import ClusterScaler.Proofs.Hashing.Separation
import ClusterScaler.Proofs.Restart.Runs
import ClusterScaler.Proofs.Labels.Runs
import ClusterScaler.Proofs.Demand.Further
import ClusterScaler.Proofs.Updating.Clocked
import ClusterScaler.Proofs.Exclusion.Calls
import ClusterScaler.Proofs.Api.Tending
import ClusterScaler.Proofs.Demand.Counters
import ClusterScaler.Proofs.Pool.Filling
import ClusterScaler.Proofs.Breaker.Timing
import ClusterScaler.Proofs.Breaker.Windows
import ClusterScaler.Proofs.Demand.Assignment
import ClusterScaler.Proofs.Planning.Selection
import ClusterScaler.Proofs.Launching.Interleavings
import ClusterScaler.Proofs.Shell.Recipes
import ClusterScaler.Proofs.Hashing.Launches
import ClusterScaler.Proofs.Hashing.Locations
import ClusterScaler.Proofs.Exposition.Samples
import ClusterScaler.Proofs.Load.Histories
import ClusterScaler.Proofs.Load.Usage
import ClusterScaler.Proofs.Retrying.Delays
import ClusterScaler.Proofs.Retrying.Calls
import ClusterScaler.Proofs.Commands.Effects
import ClusterScaler.Proofs.Clocks.Vigils
import ClusterScaler.Proofs.Clocks.Sessions
import ClusterScaler.Proofs.Shell.Invocations
import ClusterScaler.Proofs.Pool.Aliases
import ClusterScaler.Proofs.Provider.Contract
import ClusterScaler.Proofs.Status.Published
