import RtmpModule.Library.Bits
import RtmpModule.Library.Bytes
import RtmpModule.Library.Resumable
import RtmpModule.Common.StreamUtil
import RtmpModule.Sna
import RtmpModule.Sna.Comparison
import RtmpModule.Sna.Unrolling
import RtmpModule.Protocol.AMF0Serializer
import RtmpModule.Network.Segmentation
import RtmpModule.Logic.ReplyHeaders
import RtmpModule.Protocol.ByteCount
import RtmpModule.Protocol.Rollover
import RtmpModule.Protocol.Isolation
import RtmpModule.Protocol.Epoch
import RtmpModule.Protocol.Provenance
import RtmpModule.Protocol.ControlMessages
import RtmpModule.Protocol.MessageRoundTrip
import RtmpModule.Logic.FrameQueue
import RtmpModule.Logic.EndOfPublish
import RtmpModule.Protocol.Reassembly
import RtmpModule.Protocol.HeaderRoundTrip
import RtmpModule.Protocol.HeaderCuts
import RtmpModule.Media.AacHeaders
import RtmpModule.Streamer.CodecInfo
import RtmpModule.Logic.NalLengthSize
import RtmpModule.Media.ReadSafety
import RtmpModule.Media.CheckedParsers
import RtmpModule.Streamer.BodySafety
import RtmpModule.Streamer.FlvDump
import RtmpModule.Logic.KeyFrames
import RtmpModule.Library.FlvFile
import RtmpModule.Logic.WriteFlv
import RtmpModule.Logic.Recordings
import RtmpModule.Protocol.AMF0Skipping
import RtmpModule.Protocol.AMF0Writer
import RtmpModule.Protocol.CommandReads
import RtmpModule.Protocol.ConnectFields
import RtmpModule.Logic.ReplyBodies
import RtmpModule.Logic.ContextLog
import RtmpModule.Network.DigestHandshake
import RtmpModule.Protocol.AMF0Values
import RtmpModule.Protocol.AMF0Errors
import RtmpModule.Protocol.AMF0Unsupported
import RtmpModule.Protocol.AMF0Positions
import RtmpModule.Protocol.AMF0Grammar
import RtmpModule.Library.Amf0
import RtmpModule.Network.ConnectionReplies
import RtmpModule.Logic.LiveSession
import RtmpModule.Logic.CodecTexts
import RtmpModule.Network.ClientFiles
