import RtmpModule.Protocol.Message
import RtmpModule.Library.History
import RtmpModule.Streamer.PublishToStreamer

/-!
# The request handler

`RtmpHandler::handle_request` dispatches on the class of a message. A command is
answered by replies that are pushed to the send queue of the connection and, as a
rule, by a signal to send them; a media message goes to the streamer. A handler is
modelled by the context it leaves behind and by its calls on the sender, in order.
The meta data of `handle_play`, all constants, is left out, and so are the files
media messages are recorded in.
-/

namespace Rtmp

/-- `OnStatusCode::type`. -/
inductive OnStatusCode where
  | publishStart
  | playStart
  | playReset
  deriving DecidableEq, Repr

/-- A number in a reply: a double, or what is left of one that went through
`unsigned int`. -/
inductive ReplyNumber where
  | double (bits : UInt64)
  | unsignedOf (bits : UInt64)
  deriving DecidableEq, Repr

/-- The class of a reply with the fields of that class. -/
inductive ReplyBody where
  | control (body : MessageBody)
  | connectResult (transactionId objectEncoding : UInt64)
  | simpleResult (transactionId : UInt64) (secondObject : Option ReplyNumber)
  | onFCPublish (transactionId : UInt64) (streamName : List UInt8)
  | onStatus (transactionId : UInt64) (code : OnStatusCode) (streamName clientId : List UInt8)
  | rtmpSampleAccess
  | onMetaData
  deriving DecidableEq, Repr

/-- A message in the send queue; `msg_length_` is set when it is written. -/
structure Reply where
  header : RtmpHeader
  body : ReplyBody
  writeChunkSize : UInt32 := 128
  deriving DecidableEq, Repr

namespace Reply

variable (formatType : FormatType) (chunkStreamId msgStreamId : UInt32)

def ofControl (msg : RtmpMessage) : Reply :=
  { header := msg.header, body := .control msg.body, writeChunkSize := msg.writeChunkSize }

/-- What the constructors of the command replies set in their headers. -/
def command (writeChunkSize : UInt32) (body : ReplyBody) : Reply where
  header := { formatType, chunkStreamId, msgStreamId, msgTypeId := .commandAmf0 }
  body := body
  writeChunkSize := writeChunkSize

/-- What the constructors of the data replies set in their headers. -/
def data (writeChunkSize : UInt32) (body : ReplyBody) : Reply where
  header := { formatType, chunkStreamId, msgStreamId, msgTypeId := .dataAmf0 }
  body := body
  writeChunkSize := writeChunkSize

end Reply

/-- What a handler calls on its sender. -/
inductive SenderCall where
  | pushToSendQueue (message : Reply)
  | signalSendMessage
  | changeContinuousSendState (state : Bool)
  deriving DecidableEq, Repr

namespace RtmpHandler

open SenderCall

def newStreamId : UInt32 := 3555

/-- The double 3555. -/
def newStreamIdNumber : UInt64 := 0x40abc60000000000

def defaultWinAckSize : UInt32 := 5000000

def chunkSize : UInt32 := 128

def clientIdText : List UInt8 := ascii ['9', '_', '1', '_', '3', '8', '5', '6', '7', '5', '2', '0']

/-- A `SimpleResult` on the chunk stream and message stream of the request. -/
def simpleResult (header : RtmpHeader) (transactionId : UInt64)
    (secondObject : Option ReplyNumber) : Reply :=
  Reply.command .sameStream header.chunkStreamId header.msgStreamId chunkSize
    (.simpleResult transactionId secondObject)

section Handlers

variable (context : MediaPublishEsContext) (header : RtmpHeader) (transactionId : UInt64)

/-- `ConnectResult` keeps the format of a new header, which is `FULL`. -/
def handleConnectMessage (app : List UInt8) : MediaPublishEsContext × List SenderCall :=
  ({ context with provider := app },
    [pushToSendQueue (.ofControl (.windowAcknowledgementSize defaultWinAckSize)),
      pushToSendQueue (.ofControl (.setPeerBandwidth defaultWinAckSize .dynamic)),
      pushToSendQueue (.ofControl (.streamBegin 0)),
      pushToSendQueue (Reply.command .full header.chunkStreamId header.msgStreamId chunkSize
        (.connectResult transactionId 0x4008000000000000)),
      signalSendMessage])

def handleReleaseStream : MediaPublishEsContext × List SenderCall :=
  (context, [pushToSendQueue (simpleResult header transactionId none), signalSendMessage])

def handleFcPublish (streamName : List UInt8) : MediaPublishEsContext × List SenderCall :=
  (context,
    [pushToSendQueue (simpleResult header transactionId none),
      pushToSendQueue (Reply.command .sameStream header.chunkStreamId header.msgStreamId chunkSize
        (.onFCPublish 0 streamName)),
      signalSendMessage])

/-- `handle_fc_unpublish` pushes its reply and does not signal. -/
def handleFcUnpublish : MediaPublishEsContext × List SenderCall :=
  (context, [pushToSendQueue (simpleResult header transactionId none)])

def handleCreateStream : MediaPublishEsContext × List SenderCall :=
  ({ context with streamId := newStreamId, readyToEndOfStream := false },
    [pushToSendQueue (simpleResult header transactionId (some (.double newStreamIdNumber))),
      signalSendMessage])

def handleDeleteStream (streamId : UInt64) : MediaPublishEsContext × List SenderCall :=
  ({ context with readyToEndOfStream := true },
    [pushToSendQueue (simpleResult header transactionId (some (.unsignedOf streamId))),
      signalSendMessage])

/-- `handle_publish` answers on chunk stream 5 and message stream 1, whatever the request. -/
def handlePublish (streamName streamType : List UInt8) :
    MediaPublishEsContext × List SenderCall :=
  ({ context with streamName, streamType, clientId := clientIdText },
    [pushToSendQueue (Reply.command .full 5 1 chunkSize
        (.onStatus transactionId .publishStart streamName clientIdText)),
      signalSendMessage])

def handlePlay : MediaPublishEsContext × List SenderCall :=
  let streamName := ascii ['l', 'i', 'v', 'e', 's', 't', 'r', 'e', 'a', 'm']
  (context,
    [changeContinuousSendState true,
      pushToSendQueue (.ofControl (.streamBegin 1)),
      pushToSendQueue (Reply.command .full 20 1 chunkSize
        (.onStatus 0 .playReset streamName clientIdText)),
      pushToSendQueue (Reply.command .full 20 1 chunkSize
        (.onStatus 0 .playStart streamName clientIdText)),
      pushToSendQueue (Reply.data .full 20 1 chunkSize .rtmpSampleAccess),
      pushToSendQueue (Reply.data .full 20 1 chunkSize .onMetaData),
      signalSendMessage])

/-- The branches of `handle_request` that do not reach the streamer; `handle_set_chunk_size`
and `handle_on_metadata` do nothing. -/
def answer : MessageBody → MediaPublishEsContext × List SenderCall
  | .connectMessage transactionId fields =>
      handleConnectMessage context header transactionId fields.app
  | .releaseStream transactionId _ => handleReleaseStream context header transactionId
  | .fcPublish transactionId streamName => handleFcPublish context header transactionId streamName
  | .fcUnPublish transactionId _ => handleFcUnpublish context header transactionId
  | .createStream transactionId => handleCreateStream context header transactionId
  | .deleteStream transactionId streamId =>
      handleDeleteStream context header transactionId streamId
  | .publish transactionId streamName streamType =>
      handlePublish context transactionId streamName streamType
  | .play _ _ => handlePlay context
  | _ => (context, [])

end Handlers

section Requests

variable (http : List PublishCall → HttpRequest → HttpResult)
variable (json : List UInt8 → JsonDocument) (p : Publisher)

/-- `handle_media_message`, without the recording. -/
def handleMediaMessage (header : RtmpHeader) (data : List UInt8) :
    Except StreamerFault (Publisher × List SenderCall) :=
  match p.publishMessage http json header.msgTypeId.code header.absTimestamp data with
  | .error fault => .error fault
  | .ok p => .ok (p, [])

/-- `handle_request`. -/
def handleRequest (request : RtmpMessage) : Except StreamerFault (Publisher × List SenderCall) :=
  match request.body with
  | .audioMessage data => handleMediaMessage http json p request.header data
  | .videoMessage data => handleMediaMessage http json p request.header data
  | body =>
      let answered := answer p.context request.header body
      .ok ({ p with context := answered.1 }, answered.2)

/-- `notify_disconnect`. -/
def notifyDisconnect : Except StreamerFault Publisher :=
  Publisher.publishToStreamer http json
    { p with context := { p.context with readyToEndOfStream := true } }

/-- What reaches the handler of a connection. -/
inductive Event where
  | request (request : RtmpMessage)
  | disconnect

/-- The handler on one event, without its calls on the sender. -/
def onEvent : Event → Except StreamerFault Publisher
  | .request request =>
      match handleRequest http json p request with
      | .error fault => .error fault
      | .ok (p, _) => .ok p
  | .disconnect => notifyDisconnect http json p

/-- The handler of a new connection after a list of events. -/
def run (events : List Event) : Except StreamerFault Publisher :=
  History.run (onEvent http json) {} events

end Requests

end RtmpHandler

end Rtmp
