import Mif.Lib.Assoc
import Mif.Lib.Tally
import Mif.Lib.Transition
import Mif.Lib.Interleaving
import Mif.Lib.RefCount
import Mif.Lib.RefCountRest
import Mif.Lib.Activity
import Mif.Lib.BigEndian
import Mif.Lib.Framing
import Mif.Lib.PropertyTree
import Mif.Lib.EvalOrder
import Mif.Lib.Decimal
import Mif.Lib.SortedSet
import Mif.Lib.SortedMap
import Mif.Lib.Crc
import Mif.Lib.Numbering
import Mif.Lib.Lexemes
import Mif.Common.Fault
import Mif.Common.Crc32
import Mif.Db.Transaction
import Mif.Db.PostgreSql
import Mif.Net.Client
import Mif.Net.Frame
import Mif.Net.FrameDelivery
import Mif.Net.FrameConservation
import Mif.Net.FrameSafety
import Mif.Net.ClientsChain
import Mif.Net.ArchivedFrame
import Mif.Net.TcpSession
import Mif.Net.HttpSession
import Mif.Net.HttpConnection
import Mif.Net.HttpOutputPack
import Mif.Net.HttpUrl
import Mif.Net.HttpUrlCoding
import Mif.Net.HttpInputPack
import Mif.Net.HttpParam
import Mif.Net.HttpNames
import Mif.Net.HttpRouting
import Mif.Net.WebService
import Mif.Net.WebServiceStatistics
import Mif.Net.WebServiceHandler
import Mif.Net.WebServiceCall
import Mif.Net.JsonService
import Mif.Net.Servlet
import Mif.Net.ServletSession
import Mif.Net.ServletRequests
import Mif.Net.HttpTunnel
import Mif.Net.HttpTunnelTraffic
import Mif.Service.Pool
import Mif.Service.PoolAccess
import Mif.Service.PerThreadPool
import Mif.Service.Lifetime
import Mif.Service.LifetimeSteps
import Mif.Service.LifetimePlans
import Mif.Service.LifetimeLocator
import Mif.Service.LifetimeCalls
import Mif.Service.Query
import Mif.Service.InheritedList
import Mif.Reflection.MetaInfo
import Mif.Reflection.Schema
import Mif.Reflection.Containers
import Mif.Reflection.Integers
import Mif.Reflection.EnumNames
import Mif.Serialization.JsonValue
import Mif.Serialization.JsonDecode
import Mif.Serialization.JsonSafety
import Mif.Serialization.JsonEncode
import Mif.Serialization.JsonRoundTrip
import Mif.Serialization.JsonBytes
import Mif.Serialization.JsonNumbers
import Mif.Serialization.JsonEmptiness
import Mif.Serialization.JsonWriter
import Mif.Serialization.XmlText
import Mif.Serialization.XmlDecode
import Mif.Serialization.XmlAccepted
import Mif.Serialization.XmlEncode
import Mif.Serialization.XmlRoundTrip
import Mif.Serialization.XmlNumbers
import Mif.Serialization.XmlPointers
import Mif.Serialization.XmlLocality
import Mif.Remote.Serialization.Tag
import Mif.Remote.Serialization.Boost
import Mif.Remote.Serialization.Json
import Mif.Remote.Serialization.Format
import Mif.Remote.Registry
import Mif.Remote.StubTable
import Mif.Remote.Registration
import Mif.Remote.ProcessData
import Mif.Remote.StubHierarchy
import Mif.Remote.ManagerStub
import Mif.Remote.Responses
import Mif.Remote.Exchange
import Mif.Remote.JsonExchange
import Mif.Remote.Conversation
import Mif.Remote.References
import Mif.Application.Config
import Mif.Application.ConfigBrowsing
import Mif.Application.LogSettings
