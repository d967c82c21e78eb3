import PrivmxEndpoint.ContainerKeyCache
import PrivmxEndpoint.DataChannelCodec
import PrivmxEndpoint.DioCodec
import PrivmxEndpoint.EnvelopeIntegrity
import PrivmxEndpoint.FailedWrite
import PrivmxEndpoint.FileIntegrity
import PrivmxEndpoint.GuardedRuns
import PrivmxEndpoint.InboxEntries
import PrivmxEndpoint.InboxHandleRuns
import PrivmxEndpoint.JoinAndLeave
import PrivmxEndpoint.KeyHandOver
import PrivmxEndpoint.KeyRequests
import PrivmxEndpoint.NoFalseDuplicates
import PrivmxEndpoint.RpcGateway
import PrivmxEndpoint.SignedItems
import PrivmxEndpoint.SingleFile
import PrivmxEndpoint.StreamApiLowImpl
import PrivmxEndpoint.StreamHandles
import PrivmxEndpoint.StreamRoomKeys
import PrivmxEndpoint.SubscriptionDelivery
import PrivmxEndpoint.TicketCall
import PrivmxEndpoint.TicketStore
import PrivmxEndpoint.WebSocketChannel
import PrivmxEndpoint.InboxListing
import PrivmxEndpoint.DuplicateKeys
import PrivmxEndpoint.FileSizes
import PrivmxEndpoint.PositionalNumerals
import PrivmxEndpoint.CryptoTypes
import PrivmxEndpoint.Base58
import PrivmxEndpoint.ExtKey
import PrivmxEndpoint.KeyDerivation
import PrivmxEndpoint.ExtKeyCodec
import PrivmxEndpoint.CbcMode
import PrivmxEndpoint.AesContainer
import PrivmxEndpoint.EciesFrames
import PrivmxEndpoint.FileChanges
import PrivmxEndpoint.ReadHandleSync
import PrivmxEndpoint.ReadCursor
import PrivmxEndpoint.HmacListRuns
import PrivmxEndpoint.VersionNumber
import PrivmxEndpoint.DataChannelParser
import PrivmxEndpoint.GatedLoops
import PrivmxEndpoint.StreamRoomListing
import PrivmxEndpoint.SrpLogic
import PrivmxEndpoint.BitPacking
import PrivmxEndpoint.Bip39Words
import PrivmxEndpoint.Bip39
import PrivmxEndpoint.JsonText
import PrivmxEndpoint.JsonReader
import PrivmxEndpoint.MarkRemoval
import PrivmxEndpoint.RemoveEscape
import PrivmxEndpoint.ChunkStreamer
import PrivmxEndpoint.ReadBack
import PrivmxEndpoint.UploadRequests
import PrivmxEndpoint.UploadRoundTrip
import PrivmxEndpoint.Headcount
import PrivmxEndpoint.SingleServerChannels
import PrivmxEndpoint.ChannelManager
import PrivmxEndpoint.GuardedExecutor
import PrivmxEndpoint.ExecutorProgress
import PrivmxEndpoint.SortedEntries
import PrivmxEndpoint.JsonStruct
import PrivmxEndpoint.DecimalText
import PrivmxEndpoint.JsonStructText
import PrivmxEndpoint.WebRtcConnections
import PrivmxEndpoint.WebRtcKeys
import PrivmxEndpoint.StraySenders
import PrivmxEndpoint.WebSocketNotify
import PrivmxEndpoint.NotifierShutdown
import PrivmxEndpoint.CommandLoops
