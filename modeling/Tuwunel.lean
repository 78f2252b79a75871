import Tuwunel.Library.SliceSearch
import Tuwunel.Library.StepRun
import Tuwunel.Library.Loop
import Tuwunel.Library.RefCount
import Tuwunel.Library.KeyValue
import Tuwunel.Library.SetDelta
import Tuwunel.Library.Reachability
import Tuwunel.Library.SortedDedup
import Tuwunel.Library.AssocTable
import Tuwunel.Library.BigEndian
import Tuwunel.Library.Utf8
import Tuwunel.Library.PrefixScan
import Tuwunel.Library.TopologicalOrder
import Tuwunel.Core.Identifiers
import Tuwunel.Core.Numbers
import Tuwunel.Core.Matrix.Pdu
import Tuwunel.Core.TwoPhaseCounter
import Tuwunel.Database.Ser
import Tuwunel.Database.De
import Tuwunel.Database.Map.StreamPrefix
import Tuwunel.Database.Map.Write
import Tuwunel.Service.RegistrationTokens
import Tuwunel.Service.Users.Device
import Tuwunel.Service.Users.Keys
import Tuwunel.Api.Client.Session.Refresh
import Tuwunel.Api.Client.Session.RefreshRace
import Tuwunel.Api.Router.Auth
import Tuwunel.Api.Server.Send
import Tuwunel.Api.Server.Send.Receipts
import Tuwunel.Api.Server.Send.SortPdus
import Tuwunel.Service.Rooms.EventHandler.UpgradeOutlierPdu
import Tuwunel.Service.Rooms.StateCompressor
import Tuwunel.Service.Rooms.StateCompressor.Statediff
import Tuwunel.Service.Rooms.State
import Tuwunel.Service.Rooms.State.Layers
import Tuwunel.Service.Rooms.StateCache.Update
import Tuwunel.Service.Rooms.StateCache.JoinCounts
import Tuwunel.Service.Rooms.StateAccessor.UserCan
import Tuwunel.Service.Rooms.AuthChain
import Tuwunel.Service.Rooms.AuthChain.Walk
import Tuwunel.Service.Rooms.AuthChain.Cache
import Tuwunel.Service.Rooms.StateRes.TopologicalSort
import Tuwunel.Service.Rooms.StateRes.Resolve.SplitConflicted
import Tuwunel.Service.Rooms.StateRes.Resolve.AuthDifference
import Tuwunel.Library.AListTotal
import Tuwunel.Library.DepthFirst
import Tuwunel.Service.Rooms.StateRes.Resolve.ConflictedSubgraph
import Tuwunel.Service.Rooms.StateRes.Resolve.ConflictedSubgraph.Safety
import Tuwunel.Service.Rooms.StateRes.Resolve.ConflictedSubgraph.Parked
import Tuwunel.Service.Rooms.StateRes.Resolve.ConflictedSubgraph.Quiescence
import Tuwunel.Service.Rooms.StateRes.Resolve.ConflictedSubgraph.Explores
import Tuwunel.Service.Rooms.StateRes.Resolve.ConflictedSubgraph.Advance
import Tuwunel.Service.Rooms.StateRes.Resolve.ConflictedSubgraph.Complete
import Tuwunel.Library.Interleaving
import Tuwunel.Library.History
import Tuwunel.Service.Threepid.Pending
import Tuwunel.Service.Threepid.Lifetime
import Tuwunel.Service.Threepid.SingleUse
import Tuwunel.Service.Rooms.Short
import Tuwunel.Service.Rooms.Short.Allocation
import Tuwunel.Service.Rooms.Timeline.Pdus
import Tuwunel.Service.Rooms.Timeline.Purge
import Tuwunel.Service.Rooms.PduMetadata.Relations
import Tuwunel.Core.Utils.MutexMap
import Tuwunel.Service.Rooms.StateRes.Resolve.MainlineSort
import Tuwunel.Service.Rooms.ReadReceipt
import Tuwunel.Service.Pusher.Counters
import Tuwunel.Library.Query
import Tuwunel.Core.Utils.Set.IntersectionSorted
import Tuwunel.Core.Utils.Time.ExponentialBackoff
import Tuwunel.Service.Federation.Peer
import Tuwunel.Library.PollStream
import Tuwunel.Core.Utils.Set.SortedStream2
import Tuwunel.Service.Rooms.StateCache.SharedRooms
import Tuwunel.Service.Presence.Aggregate
import Tuwunel.Service.Rooms.State.Prune
import Tuwunel.Library.ExceptOk
import Tuwunel.Service.Rooms.StateRes.Events
import Tuwunel.Service.Rooms.StateRes.EventAuth
import Tuwunel.Service.Rooms.StateRes.EventAuth.Reads
import Tuwunel.Service.Rooms.StateRes.EventAuth.Monotone
import Tuwunel.Library.SortedLookup
import Tuwunel.Service.Rooms.StateRes.Resolve.IterativeAuthCheck
import Tuwunel.Service.Sending.Sender
import Tuwunel.Service.Sending.Sender.InFlight
import Tuwunel.Library.BoundedSearch
import Tuwunel.Service.Rooms.Spaces
import Tuwunel.Api.Client.Space
import Tuwunel.Api.Client.Space.Pagination
import Tuwunel.Library.Ledger
import Tuwunel.Service.Rooms.EventHandler.StateLocalBuild
import Tuwunel.Service.Rooms.EventHandler.StateLocalBuild.Discover
import Tuwunel.Service.Rooms.EventHandler.StateLocalBuild.Spec
import Tuwunel.Service.Rooms.EventHandler.StateLocalBuild.Consumers
import Tuwunel.Service.Rooms.EventHandler.StateLocalBuild.Building
import Tuwunel.Service.Rooms.EventHandler.StateLocalBuild.Build
import Tuwunel.Service.Rooms.EventHandler.StateLocalBuild.Proceeds
import Tuwunel.Service.Rooms.EventHandler.StateLocalBuild.Complete
