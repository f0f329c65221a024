import PeerCache.Lru.Recency
import PeerCache.Lru.Run
import PeerCache.Store.Hook
import PeerCache.Cluster.Basic
import PeerCache.Config.Settings
import PeerCache.Bench.Board
import PeerCache.Bench.World
import PeerCache.Main
import PeerCache.Proofs.Lru.Refinement
import PeerCache.Flight.History
import PeerCache.Proofs.Flight.Step
import PeerCache.Proofs.Flight.Invariant
import PeerCache.Proofs.Flight.Outcomes
import PeerCache.Flight.Selection
import PeerCache.Proofs.Flight.Callers
import PeerCache.Proofs.Flight.Patience
import PeerCache.Proofs.Flight.Independence
import PeerCache.Group.History
import PeerCache.Proofs.Store.Refinement
import PeerCache.Proofs.Group.Boards
import PeerCache.Proofs.Group.Provenance
import PeerCache.Proofs.Url.Push
import PeerCache.Cluster.History
import PeerCache.Proofs.Peer.Trip
import PeerCache.Proofs.Cluster.RemoteValue
import PeerCache.Proofs.Group.Remote
import PeerCache.Proofs.Flight.Markers
import PeerCache.Told
import PeerCache.Group.Loads
import PeerCache.Proofs.Group.Loads
import PeerCache.Group.Moment
import PeerCache.Group.Account
import PeerCache.Group.SourceCalls
import PeerCache.Proofs.Group.Moment
import PeerCache.Proofs.Group.Moves
import PeerCache.Proofs.Group.Landings
import PeerCache.Proofs.Group.Account
import PeerCache.Proofs.Group.SourceCalls
import PeerCache.Cluster.Waiting
import PeerCache.Proofs.Cluster.OneHop
import PeerCache.Config.Pool
import PeerCache.Proofs.Config.Valid
import PeerCache.Proofs.Ring.Points
import PeerCache.Proofs.Config.Ownership
import PeerCache.Proofs.Config.Reach
import PeerCache.Ring.History
import PeerCache.Proofs.Ring.Placement
import PeerCache.Group.Solo
import PeerCache.Proofs.Group.Solo
import PeerCache.Group.Burst
import PeerCache.Proofs.Group.Burst
import PeerCache.Proofs.Lru.Stack
import PeerCache.Lru.Ledger
import PeerCache.Proofs.Lru.Ledger
import PeerCache.Proofs.Ring.Membership
import PeerCache.Proofs.Ring.Order
import PeerCache.Proofs.Group.Accessed
import PeerCache.Proofs.Store.Nesting
import PeerCache.Proofs.Group.Phases
import PeerCache.Proofs.Cluster.Loads
import PeerCache.Proofs.Cluster.Fallback
import PeerCache.Proofs.Peer.RoundTrip
import PeerCache.Group.Alone
import PeerCache.Proofs.Group.Alone
import PeerCache.Proofs.Group.Failure
import PeerCache.Node.Request
import PeerCache.Proofs.Group.Direct
import PeerCache.Proofs.Node.Endpoint
import PeerCache.Config.Spelling
import PeerCache.Proofs.Config.Spelling
import PeerCache.Store.PutBack
import PeerCache.Proofs.Store.Halting
import PeerCache.Store.Watched
import PeerCache.Proofs.Store.Watched
import PeerCache.Proofs.Net.Dotted
import PeerCache.Proofs.Config.Binding
import PeerCache.Group.ReadThrough
import PeerCache.Proofs.Group.ReadThrough
import PeerCache.Lru.Checked
import PeerCache.Lru.Intact
import PeerCache.Proofs.Lru.Checked
import PeerCache.Proofs.Lru.Intact
