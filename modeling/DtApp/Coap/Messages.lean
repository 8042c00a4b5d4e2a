import DtApp.Coap.Endpoint

/-!
# Answers and handlers

The three encoders that answer a received packet, the request handler of `main.c` and the
response handler of `coap_endpoint_post`.
-/
namespace DtApp.Coap

/-- What handlers of the application other than those of the repository do with the
endpoint: the packets a response handler sends, the answers a resource method gives through
`coap_endpoint_respond` and its result. -/
structure App where
  responseHandler : Nat → HandlerData → Int → Option CoapPacket → List (CoapPacket × SockAddr)
  method : Nat → CoapPacket → SockAddr → List (UInt8 × Option (List UInt8)) × Int

variable (z : Zephyr) (app : App) (env : Env)

/-! ## Encoders of answers -/

/-- `sendto` for an answer; the result is what the caller returns. -/
def sendAnswer (ep : CoapEndpoint) (packet : CoapPacket) (addr : SockAddr) : Int × List Output :=
  let sent := env.sendto packet addr
  -- `-errno` on failure; how many bytes were sent does not matter
  (if sent < 0 then sent else 0, [.sendto none ep.sock packet addr])

/-- An empty message of the given type with the packet's id. -/
def emptyAnswer (type : CoapType) (packet : CoapPacket) : Int × CoapPacket :=
  z.coapPacketInit stackBuffer 4 1 type [] coapCodeEmpty (z.coapHeaderGetId packet)

def coapEndpointAcknowledge (ep : CoapEndpoint) (packet : CoapPacket) (addr : SockAddr) :
    Int × List Output :=
  -- only a confirmable packet is acknowledged
  if z.coapHeaderGetType packet ≠ .con then (0, [])
  else
    let ack := emptyAnswer z .ack packet
    if ack.1 < 0 then (ack.1, []) else sendAnswer env ep ack.2 addr

def coapEndpointReset (ep : CoapEndpoint) (packet : CoapPacket) (addr : SockAddr) :
    Int × List Output :=
  -- must not be called for these
  if z.coapHeaderGetType packet = .ack ∨ z.coapHeaderGetType packet = .reset then (-einval, [])
  else
    let reset := emptyAnswer z .reset packet
    if reset.1 < 0 then (reset.1, []) else sendAnswer env ep reset.2 addr

/-- The marker and the payload, when there is one. The length is passed on as `u16_t`. -/
def appendPayload (packet : CoapPacket) (payload : Option (List UInt8)) (payloadLen : Int) :
    Int × CoapPacket :=
  match payload with
  | none => (0, packet)
  | some bytes =>
    -- without a payload there is no marker either
    if payloadLen > 0 then
      let marked := z.coapPacketAppendPayloadMarker packet
      if marked.1 < 0 then marked
      else z.coapPacketAppendPayload marked.2 (bytes.take (payloadLen % 2 ^ 16).toNat)
    else (0, packet)

/-- A response to a confirmable request is piggybacked on its acknowledgement. -/
def respondType (request : CoapPacket) : CoapType :=
  if z.coapHeaderGetType request = .nonCon then .nonCon else .ack

def coapEndpointRespond (ep : CoapEndpoint) (request : CoapPacket) (code : UInt8)
    (payload : Option (List UInt8)) (payloadLen : Int) (addr : SockAddr) : Int × List Output :=
  let response := z.coapPacketInit stackBuffer maxCoapMsgLen 1 (respondType z request)
    (z.coapHeaderGetToken request) code (z.coapHeaderGetId request)
  if response.1 < 0 then (response.1, [])
  else
    -- the parameter is a `u16_t`
    let response := appendPayload z response.2 payload (payloadLen % 2 ^ 16)
    if response.1 < 0 then (response.1, []) else sendAnswer env ep response.2 addr

/-! ## Request handlers -/

/-- `message_post` copies the payload to a fresh string, without looking at the result of
the allocation, and answers with 2.01. It returns 0 whatever `coap_endpoint_respond` says. -/
def messagePost (ep : CoapEndpoint) (request : CoapPacket) (addr : SockAddr) : Int × List Output :=
  -- the payload is copied to the NULL that a failed `k_calloc` returns
  let copied := if env.calloc 0 then [] else [Output.fault]
  let responded := coapEndpointRespond z env ep request coapResponseCodeCreated none 0 addr
  (0, .messagePost request (z.coapPacketGetPayload request) addr :: copied ++ responded.2)

/-- Another method answers with a list of codes and payloads. -/
def otherMethod (ep : CoapEndpoint) (f : Nat) (request : CoapPacket) (addr : SockAddr) :
    Int × List Output :=
  let result := app.method f request addr
  (result.2, .otherMethod f request addr :: result.1.flatMap fun answer =>
    (coapEndpointRespond z env ep request answer.1 answer.2
      (answer.2.elim 0 fun bytes => bytes.length) addr).2)

/-- The library picks a method of the resource table, or fails. -/
def coapHandleRequest (ep : CoapEndpoint) (rx : PacketRxDataItem) : Int × List Output :=
  match z.coapHandleRequest rx.packet ep.resources rx.options with
  | .method .messagePost => messagePost z env ep rx.packet rx.addr
  | .method (.other f) => otherMethod z app env ep f rx.packet rx.addr
  | .result err => (err, [])

/-! ## Response handlers -/

/-- `post_handler` stores the result in its caller's frame, acknowledges a response to the
address the request went to, and wakes the caller. -/
def postHandler (ep : CoapEndpoint) (data : HandlerData) (err : Int)
    (response : Option CoapPacket) : List Output :=
  if err ≠ 0 then [.ret data.frame err, .semGive data.frame]
  else
    -- without an error there is a response
    let response := response.getD .null
    .ret data.frame (z.coapHeaderGetCode response).toNat ::
      (coapEndpointAcknowledge z env ep response data.addr).2 ++ [.semGive data.frame]

/-- A call of a response handler, and what the handler does. -/
def invokeHandler (ep : CoapEndpoint) (call : Nat) (handler : ResponseHandler) (data : HandlerData)
    (err : Int) (response : Option CoapPacket) : List Output :=
  .invoked call handler data err response ::
    match handler with
    | .postHandler => postHandler z env ep data err response
    | .other f => (app.responseHandler f data err response).map fun sent =>
        .sendto none ep.sock sent.1 sent.2

end DtApp.Coap
