import RtmpModule.Protocol.RtmpParser

/-!
# Reading from the socket

After the handshake every completed read appends its bytes to `request_streambuf_`
and parses until the parser asks for more. A parse failure disconnects; an
exception leaves `handle_read` and with it the event loop.
-/

namespace Rtmp

open AMF0Serializer

/-- Whether another read is outstanding on the socket. -/
inductive ReadStatus where
  | reading
  | disconnected
  | aborted (fault : Fault)
  deriving DecidableEq, Repr

/-- The receiving side of `Connection`: `handled` are the messages passed to
`handle_request`, `writeQueue` the acknowledgements the parser has queued. -/
structure Connection where
  parser : RtmpParser := {}
  requestStreambuf : List UInt8 := []
  status : ReadStatus := .reading
  handled : List RtmpMessage := []
  writeQueue : List RtmpMessage := []

namespace Connection

/-- `set_base_timestamp`, called with the time value of C1. -/
def setBaseTimestamp (c : Connection) (timestamp : UInt32) : Connection :=
  { c with parser := { c.parser with payloadParser := { c.parser.payloadParser with
      context := { c.parser.payloadParser.context with lastMessageTimestamp := timestamp } } } }

/-- The loop of `handle_read`; `bufSize` is `buffer_size - total_read_in_parse`. -/
def handleReadLoop (c : Connection) (uninit : Uninit) (bufSize : Nat) : Connection :=
  if bufSize = 0 then c
  else
    let r := c.parser.parse uninit c.requestStreambuf bufSize
    let c := { c with
      parser := r.parser, requestStreambuf := r.stream, writeQueue := c.writeQueue ++ r.pushed }
    match _hr : r.result with
    | .ok .true =>
        handleReadLoop { c with handled := c.handled ++ r.parser.parsedMsg.toList } uninit
          (bufSize - r.totalReadedSize)
    | .ok .false => { c with status := .disconnected }
    | .ok .indeterminate => c
    | .error fault => { c with status := .aborted fault }
termination_by c.parser.measure bufSize
decreasing_by exact RtmpParser.parse_measure _hr

/-- `handle_read` with the bytes of one read. -/
def handleRead (uninit : Uninit) (c : Connection) (bytes : List UInt8) : Connection :=
  if c.status = .reading then
    if 0 < bytes.length then
      let c := { c with requestStreambuf := c.requestStreambuf ++ bytes }
      c.handleReadLoop uninit c.requestStreambuf.length
    else c
  else c

/-- The connection after a sequence of reads. -/
def run (uninit : Uninit) (c : Connection) (reads : List (List UInt8)) : Connection :=
  reads.foldl (handleRead uninit) c

end Connection

end Rtmp
