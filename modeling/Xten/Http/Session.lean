import Xten.Http.Parser
import Xten.Stream.Transfer

/-!
# HTTP sessions

`HttpSession`. A round of the loop that reads a header takes a byte of the stream or ends it,
so that the bytes there are bound its rounds.
-/

namespace Xten.http

/-- `"\r\n"`. -/
def lineEnd : List Byte :=
  [13, 10]

/-- The search of `GetLastRN(begin, len)`, below an index. -/
def lastRNBelow (begin : List Byte) : Nat → Option Nat
  | 0 => none
  | index + 1 =>
      if (begin.drop index).take 2 = lineEnd then some (index + 2) else lastRNBelow begin index

/-- `GetLastRN(begin, len)`, or none where it returns -1. -/
def getLastRN (begin : List Byte) : Option Nat :=
  if begin.length < 2 then none else lastRNBelow begin (begin.length - 1)

/-- The sizes that are configured for requests and for streams. A buffer's is one that the
`int`s of the code can count to. -/
structure Sizes where
  request : Nat
  requestBody : Nat
  stream : Nat
  request_lt : request < 2 ^ 31
  requestBody_lt : requestBody < 2 ^ 32
  stream_pos : 0 < stream

namespace HttpSession

/-- `Close()`. -/
def close (socket : Socket) : Socket :=
  { socket with connected := false }

section RecvRequest

variable {machine : HttpParser} (sizes : Sizes)

/-- The loop of `RecvRequest` that parses the header, with the bytes in the buffer. -/
def recvHeader : Nat → List Byte → HttpRequestParser machine → Socket →
    Option (List Byte × HttpRequestParser machine) × Socket
  | 0, _, _, socket => (none, close socket)
  | rounds + 1, data, parser, socket =>
      let ((len, bytes), socket) :=
        SocketStream.readBuffer (sizes.request - data.length) socket
      if len ≤ 0 then
        (none, close socket)
      else
        let data := data ++ bytes
        match getLastRN data with
        | none => recvHeader rounds data parser socket
        | some stdLen =>
            let ((_, data), parser) := parser.execute data stdLen
            if parser.hasError then
              (none, close socket)
            else if sizes.request ≤ data.length then
              (none, close socket)
            else if parser.isFinished = 1 then
              (some (data, parser), socket)
            else
              recvHeader rounds data parser socket

/-- The answer of `RecvRequest` to a request that expects one before it sends its body. -/
def sendContinue (request : HttpRequest) (socket : Socket) : Option HttpRequest × Socket :=
  if foldCase (request.getHeader (ascii "Expect")) = foldCase (ascii "100-continue") then
    let (ret, socket) :=
      Stream.writeFixBuffer sizes.stream (ascii "HTTP/1.1 100 Continue\r\n\r\n") socket
    if ret ≤ 0 then (none, close socket) else (some (request.delHeader (ascii "Expect")), socket)
  else
    (some request, socket)

/-- The body of a request, of which the bytes behind the header in the buffer come first. -/
def recvBody (bodySize : Nat) (data : List Byte) (request : HttpRequest) (socket : Socket) :
    Option HttpRequest × Socket :=
  if 0 < bodySize then
    let copied := if bodySize < data.length then data.take bodySize else data
    let left := bodySize - copied.length
    if 0 < left then
      let ((ret, rest), socket) := Stream.readFixBuffer sizes.stream left socket
      if ret ≤ 0 then (none, close socket)
      else (some { request with body := copied ++ rest }, socket)
    else
      (some { request with body := copied }, socket)
  else
    (some request, socket)

variable (machine)

/-- `RecvRequest()`. -/
def recvRequest (socket : Socket) : Option HttpRequest × Socket :=
  let parser : HttpRequestParser machine := {}
  match recvHeader sizes (socket.incoming.length + 1) [] parser socket with
  | (none, socket) => (none, socket)
  | (some (data, parser), socket) =>
      let bodySize := (parser.getBodyLength.setWidth 32).toNat
      if sizes.requestBody < bodySize then
        (none, close socket)
      else
        match sendContinue sizes parser.request socket with
        | (none, socket) => (none, socket)
        | (some request, socket) =>
            match recvBody sizes bodySize data request socket with
            | (none, socket) => (none, socket)
            | (some request, socket) => (some request.init.initParam, socket)

end RecvRequest

/-- `SendResponse(response)`, given the text of the response. -/
def sendResponse (sizes : Sizes) (response : List Byte) (socket : Socket) : Int × Socket :=
  Stream.writeFixBuffer sizes.stream response socket

end HttpSession

end Xten.http
