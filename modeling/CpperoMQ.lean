import CpperoMQ.Effects
import CpperoMQ.ObjectPool
import CpperoMQ.PartTree
import CpperoMQ.MessageObjects
import CpperoMQ.Loopback
import CpperoMQ.MessageRuns
import CpperoMQ.MessageValues
import CpperoMQ.FrameDelivery
import CpperoMQ.Sendables
import CpperoMQ.SendingSocket
import CpperoMQ.SendTrace
import CpperoMQ.SendableClasses
import CpperoMQ.Receivables
import CpperoMQ.ReceivingSocket
import CpperoMQ.ReceiveRuns
import CpperoMQ.ReceivableClasses
import CpperoMQ.RoundTrip
import CpperoMQ.HandleLedger
import CpperoMQ.OwnedValues
import CpperoMQ.SocketObjects
import CpperoMQ.SocketConfiguration
import CpperoMQ.SocketConfigurationRuns
import CpperoMQ.ObjectOperations
import CpperoMQ.SocketOwnership
import CpperoMQ.ContextLifetimes
import CpperoMQ.ContextLifetimeRuns
import CpperoMQ.ContextOwnership
import CpperoMQ.ContextSettings
import CpperoMQ.ContextSettingRuns
import CpperoMQ.Scalars
import CpperoMQ.SocketOptions
import CpperoMQ.OptionRuns
import CpperoMQ.BagChanges
import CpperoMQ.SubscribingSocket
import CpperoMQ.SubscriptionRuns
import CpperoMQ.Proxies
import CpperoMQ.ProxyRuns
import CpperoMQ.PollItems
import CpperoMQ.Polling
