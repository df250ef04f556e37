import V2IHub.Foundation.Machine
import V2IHub.Foundation.Observation
import V2IHub.Foundation.Bytes
import V2IHub.Foundation.BitFields
import V2IHub.Foundation.SignedBytes
import V2IHub.Foundation.RecordReader
import V2IHub.Foundation.LeadingSlots
import V2IHub.Foundation.Collect
import V2IHub.Foundation.Crc
import V2IHub.Foundation.CrcPolynomial
import V2IHub.Foundation.Binary64
import V2IHub.Foundation.DecimalText
import V2IHub.Foundation.Mutex
import V2IHub.Foundation.OrderedMap
import V2IHub.Foundation.Program
import V2IHub.Foundation.Strtol
import V2IHub.Foundation.Cycle
import V2IHub.Foundation.SqlLiteral
import V2IHub.Foundation.SqlPlaceholders
import V2IHub.Foundation.LexicalPath
import V2IHub.Foundation.Transducer
import V2IHub.Foundation.JsonText
import V2IHub.Foundation.JsonAssembly
import V2IHub.Foundation.JsonSplice
import V2IHub.Foundation.Runs
import V2IHub.Foundation.Eviction
import V2IHub.Framing.MsgFramer
import V2IHub.Framing.Reassembly
import V2IHub.Json.Tree
import V2IHub.Json.Print
import V2IHub.Json.Parse
import V2IHub.Json.NumberText
import V2IHub.Json.RoundTrip
import V2IHub.Json.Fields
import V2IHub.Api.IvpMessage
import V2IHub.Api.Transport
import V2IHub.Api.IvpError
import V2IHub.Api.IvpConfig
import V2IHub.Api.IvpRegister
import V2IHub.Api.Manifest
import V2IHub.Router.Delivery
import V2IHub.Router.Exclusion
import V2IHub.Utils.ThreadGroup
import V2IHub.Utils.FrequencyThrottle
import V2IHub.Utils.MessageManager
import V2IHub.Utils.SourceView
import V2IHub.Utils.SourceOrder
import V2IHub.Utils.Intersection
import V2IHub.Utils.SetComputedLanes
import V2IHub.Utils.ComputedLanes
import V2IHub.Utils.MapBoundaryBox
import V2IHub.Utils.Roadway
import V2IHub.Utils.WGS84Polygon
import V2IHub.Utils.BsmConverter
import V2IHub.Utils.ThreadTimer
import V2IHub.Utils.TimerSchedule
import V2IHub.Utils.Base64
import V2IHub.Core.Queues
import V2IHub.Core.Plugin
import V2IHub.Core.PluginConnection
import V2IHub.Core.Exceptions
import V2IHub.Core.Robustness
import V2IHub.Core.Requests
import V2IHub.Core.Relay
import V2IHub.Core.NameRegistry
import V2IHub.Core.PluginMonitor
import V2IHub.Core.MessageProfiler
import V2IHub.Core.DbContext
import V2IHub.Core.HistoryManager
import V2IHub.Core.Tokens
import V2IHub.Core.ExePath
import V2IHub.Client.IvpPlugin
import V2IHub.Client.Rejection
import V2IHub.Client.ConfigUpdates
import V2IHub.Client.ConfigAgreement
import V2IHub.Client.ConfigSteps
import V2IHub.Client.StatusTable
import V2IHub.Client.ConfigMonitor
import V2IHub.Client.MessageFilter
import V2IHub.Client.SubscriptionSteps
import V2IHub.Client.Subscriptions
import V2IHub.Client.KeepAlive
import V2IHub.Messages.PropertyTree
import V2IHub.Messages.Message
import V2IHub.Messages.TypedAttribute
import V2IHub.Messages.WrappedAttribute
import V2IHub.Messages.RouteableMessage
import V2IHub.Messages.InitAttributes
import V2IHub.Messages.ContentsReuse
import V2IHub.Client.Dispatch
import V2IHub.Messages.Payload
import V2IHub.Messages.IvpJ2735
import V2IHub.Messages.RawMessageId
import V2IHub.Messages.J2735Codec
import V2IHub.Messages.J2735Cache
import V2IHub.Messages.PayloadRelay
import V2IHub.Rtcm.DataManager
import V2IHub.Rtcm.Crc24q
import V2IHub.Rtcm.Rtcm3
import V2IHub.Rtcm.Parity
import V2IHub.Rtcm.Rtcm2
import V2IHub.Rtcm.DecoderPass
import V2IHub.Rtcm.Accepted
import V2IHub.Rtcm.Resynchronization
import V2IHub.Rtcm.SignedFields
import V2IHub.Rtcm.FirstFrame
import V2IHub.Rtcm.Retention
import V2IHub.Rtcm.Reuse
import V2IHub.Rtcm.CrcRemainder
import V2IHub.Rtcm.MessageTypes
import V2IHub.Rtcm.AntennaDescriptor
import V2IHub.Rtcm.SpecialMessage
import V2IHub.Rtcm.EncodedMessage
import V2IHub.Rtcm.StreamDecoding
import V2IHub.Rtcm.RtcmPlugin
import V2IHub.Command.Output
import V2IHub.Command.Session
import V2IHub.Command.Execute
import V2IHub.Command.Callbacks
import V2IHub.Command.Authorization
import V2IHub.Command.Uploads
import V2IHub.Command.Framing
import V2IHub.Command.EventText
import V2IHub.Command.EventHistory
import V2IHub.Command.Telemetry
import V2IHub.Command.FaithfulFrames
import V2IHub.Command.TelemetryViews
import V2IHub.Command.TelemetryPolls
import V2IHub.Command.TelemetryClient
import V2IHub.Command.TelemetrySync
import V2IHub.Command.TelemetryOrigin
import V2IHub.Spat.Ntcip1202
import V2IHub.Spat.Movements
import V2IHub.Spat.Generation
import V2IHub.Spat.PedestrianZones
import V2IHub.Utils.Clock
import V2IHub.Utils.SignalTime
import V2IHub.Utils.SpatQueries
import V2IHub.Utils.HexEncoding
import V2IHub.Csw.CswPlugin
import V2IHub.Csw.ZoneSnapping
import V2IHub.Location.GpsdWorker
import V2IHub.Location.RawBuffer
import V2IHub.Location.NavPvt
import V2IHub.Messages.ByteStream
import V2IHub.Location.RtcmForwarding
import V2IHub.Client.ConfigValue
import V2IHub.Map.ISDToJ2735r41
import V2IHub.Map.MapPlugin
import V2IHub.Map.Reload
import V2IHub.Map.LoadMapFiles
import V2IHub.Map.NodeList
import V2IHub.Map.NodeListRoundTrip
import V2IHub.Map.MapBlob
import V2IHub.Map.BlobFields
import V2IHub.Map.BlobRoundTrip
import V2IHub.Map.BlobLimits
import V2IHub.Map.BlobIntegrity
import V2IHub.Map.BlobSafety
import V2IHub.Dms.DmsPlugin
import V2IHub.Dms.SignDisplay
import V2IHub.Dsrc.DsrcMessageManagerPlugin
import V2IHub.Dsrc.Forwarding
import V2IHub.Control.TmxControl
import V2IHub.Control.StatementParameters
import V2IHub.Ode.SendBytes
