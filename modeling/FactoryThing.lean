import FactoryThing.NodeStore.Map
import FactoryThing.Connections.Bookkeeping
import FactoryThing.SecureChannel.Limits
import FactoryThing.SecureChannel.Reassembly
import FactoryThing.Sessions.LiveService
import FactoryThing.Timer.ChangeQueue
import FactoryThing.Transport.Coalescing
import FactoryThing.Subscriptions.Conservation
import FactoryThing.Subscriptions.Retransmission
import FactoryThing.Subscriptions.Answers
import FactoryThing.AddressSpace.Paging
import FactoryThing.Client.Responses
import FactoryThing.Client.Acknowledgements
import FactoryThing.Encoding.SourceBytes
import FactoryThing.Encoding.Framing
import FactoryThing.Encoding.ArrayFilter
import FactoryThing.Encoding.Copies
import FactoryThing.AddressSpace.TreeSearch
import FactoryThing.Workers.Epochs
import FactoryThing.Network.Descriptors
import FactoryThing.Bridge.PublishedValues
import FactoryThing.Encoding.FastPath
import FactoryThing.Variables.ValueRanks
import FactoryThing.NodeStore.FreshIds
import FactoryThing.AddressSpace.TypeHierarchy
import FactoryThing.Timer.LastJob
import FactoryThing.Variants.MovedRanges
import FactoryThing.Variants.FailedCopies
import FactoryThing.Nodesets.Renumbering
import FactoryThing.Variants.RangeAcceptance
import FactoryThing.Discovery.FindServers
import FactoryThing.Discovery.PeriodicRegistration
import FactoryThing.Subscriptions.Lifetime
import FactoryThing.Methods.Guards
import FactoryThing.Attributes.Authorisation
import FactoryThing.Attributes.LocalRead
import FactoryThing.Network.SocketWrite
import FactoryThing.Bridge.NodeIds
import FactoryThing.Bridge.Groups
import FactoryThing.Multicast.EntryLife
import FactoryThing.Multicast.KeyedTable
import FactoryThing.Multicast.Withdrawal
import FactoryThing.Types.DateTime
import FactoryThing.NodeStore.EditsKept
import FactoryThing.Encoding.OverlayLoop
import FactoryThing.Bridge.MqttReading
import FactoryThing.AddressSpace.Namespaces
import FactoryThing.Bridge.ClientLife
import FactoryThing.Nodesets.DependencyOrder
import FactoryThing.Nodesets.Encodability
