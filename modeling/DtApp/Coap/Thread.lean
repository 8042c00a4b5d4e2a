import DtApp.Library.Machine
import DtApp.Coap.Messages

/-!
# Posting, transmitting and receiving

`coap_endpoint_post_async`, which any thread may call, the steps of `txrx_thread` and the
loop of `recv_thread`. The threads share nothing but the queues, so a call and a step of
the loop are one event each.
-/
namespace DtApp.Coap

variable (z : Zephyr) (app : App) (env : Env)

/-! ## Posting -/

/-- The arguments of `coap_endpoint_post_async`: a path may be NULL or a list of C strings,
a payload NULL or the bytes behind the pointer. -/
structure PostArgs where
  addr : SockAddr
  path : Option (List (List UInt8))
  payload : Option (List UInt8)
  payloadLen : Int
  responseHandler : ResponseHandler
  responseHandlerData : HandlerData

/-- The loop over the path. A segment's length is passed on as `u16_t`. -/
def appendPath (packet : CoapPacket) : List (List UInt8) → Int × CoapPacket
  | [] => (0, packet)
  | segment :: rest =>
    let appended := z.coapPacketAppendOption packet coapOptionUriPath
      (segment.take (segment.length % 2 ^ 16))
    if appended.1 < 0 then appended else appendPath appended.2 rest

/-- The request, in a buffer that belongs to the call. -/
def encodePost (call : Nat) (args : PostArgs) : Int × CoapPacket :=
  let packet := z.coapPacketInit ⟨some call, []⟩ maxCoapMsgLen 1 .con env.nextToken.val
    coapMethodPost env.nextId
  -- each encoder that fails goes to the error label with its own code
  if packet.1 < 0 then packet
  else
    let packet := appendPath z packet.2 (args.path.getD [])
    if packet.1 < 0 then packet else appendPayload z packet.2 args.payload args.payloadLen

def txItem (call : Nat) (args : PostArgs) (packet : CoapPacket) : PacketTxDataItem :=
  { packet, addr := args.addr, responseHandler := args.responseHandler,
    responseHandlerData := args.responseHandlerData, call }

/-- The result, the item put on `tx_fifo` and the buffer released on an error. -/
def coapEndpointPostAsync (call : Nat) (args : PostArgs) :
    Int × Option PacketTxDataItem × List Output :=
  -- first the buffer for the message is allocated, then the item
  if !env.calloc 0 then (-enomem, none, [])
  else if !env.calloc 1 then (-enomem, none, [.freed call])
  else
    let encoded := encodePost z env call args
    if encoded.1 < 0 then (encoded.1, none, [.freed call])
    else (0, some (txItem call args encoded.2), [])

/-- The call that `coap_endpoint_post` makes: its own handler, and data in its own frame. -/
def coapEndpointPostArgs (call : Nat) (addr : SockAddr) (path : Option (List (List UInt8)))
    (payload : Option (List UInt8)) (payloadLen : Int) : PostArgs :=
  { addr, path, payload, payloadLen, responseHandler := .postHandler
    responseHandlerData := ⟨call, addr⟩ }

/-! ## The steps of `txrx_thread` -/

def transmitPacket (ep : CoapEndpoint) (tx : PacketTxDataItem) : CoapEndpoint × List Output :=
  match newInflightPacket z env ep tx with
  | none =>
    -- the request never gets in flight: its handler is told, and its buffer released
    (ep, invokeHandler z app env ep tx.call tx.responseHandler tx.responseHandlerData (-enomem) none
      ++ kFree tx.packet)
  | some ⟨grown, inflight⟩ =>
    let armed := if (grown.inflight.get inflight).retransmit then
      [Output.armed tx.call env.uptime env.rand] else []
    -- a failure of `sendto` is logged and changes nothing
    let sent := armed ++ [.sendto (some tx.call) ep.sock tx.packet tx.addr]
    if z.coapHeaderGetType tx.packet ≠ .con then
      -- the request test below reads the packet after its data pointer was cleared
      let cleared := { tx.packet with data := none }
      if !isRequest z cleared then
        let freed := freeInflightPacket grown inflight
        (freed.1, sent ++ kFree tx.packet ++ freed.2)
      else (grown, sent ++ kFree tx.packet)
    else (grown, sent)

def retransmitted (inflight : InflightPacket) : InflightPacket :=
  let timeout := s32 (inflight.timeout * 2)
  -- the count is a `u8_t`; the next deadline is reckoned from the last one, not from the clock
  { inflight with
    retransmissionCount := (inflight.retransmissionCount + 1) % 2 ^ 8
    timeout := timeout, deadline := s32 (inflight.deadline + timeout) }

def maxRetransmissionCount : Nat := 4

def retransmitPacket (ep : CoapEndpoint) (i : Fin ep.inflight.len) : CoapEndpoint × List Output :=
  let inflight := retransmitted (ep.inflight.get i)
  let changed := { ep with inflight := ep.inflight.set i inflight }
  -- the limit is looked at after counting: the fifth timeout gives up without sending
  if inflight.retransmissionCount > maxRetransmissionCount then
    let freed := freeInflightPacket changed (ep.inflight.keep i inflight i)
    (freed.1, invokeHandler z app env ep inflight.call inflight.responseHandler
      inflight.responseHandlerData (-eagain) none ++ freed.2)
  else (changed, [.sendto (some inflight.call) ep.sock inflight.packet inflight.addr])

def responseCodeForError (err : Int) : UInt8 :=
  if -err = enoent then coapResponseCodeNotFound
  else if -err = eperm then coapResponseCodeNotAllowed
  else if -err = einval then coapResponseCodeBadRequest
  else coapResponseCodeInternalError

/-- The branch for requests. The inner `int err` is in scope in its own initialiser, so
`response_code_for_error` is applied to what the stack holds, not to the outer `err`. -/
def receiveRequest (ep : CoapEndpoint) (rx : PacketRxDataItem) : List Output :=
  let handled := coapHandleRequest z app env ep rx
  if handled.1 ≠ 0 then
    handled.2 ++ (coapEndpointRespond z env ep rx.packet (responseCodeForError env.staleErr) none 0
      rx.addr).2
  else handled.2

/-- The end of `receive_packet`: a confirmable packet is rejected. -/
def rejectPacket (ep : CoapEndpoint) (rx : PacketRxDataItem) : List Output :=
  if z.coapHeaderGetType rx.packet = .con then
    (coapEndpointReset z env ep rx.packet rx.addr).2
  else []

/-- The entry is given up after its handler was called. -/
def completeInflight (ep : CoapEndpoint) (i : Fin ep.inflight.len) (err : Int)
    (response : Option CoapPacket) : CoapEndpoint × List Output :=
  let inflight := ep.inflight.get i
  let freed := freeInflightPacket ep i
  (freed.1, invokeHandler z app env ep inflight.call inflight.responseHandler
    inflight.responseHandlerData err response ++ freed.2)

def receivePacket (ep : CoapEndpoint) (rx : PacketRxDataItem) : CoapEndpoint × List Output :=
  -- the code is looked at before the type
  if isRequest z rx.packet then (ep, receiveRequest z app env ep rx)
  else
    match getInflightPacket z ep rx with
    | some i =>
      let inflight := ep.inflight.get i
      if z.coapHeaderGetType rx.packet = .reset then
        completeInflight z app env ep i (-ecanceled) none
      else if isResponse z rx.packet then completeInflight z app env ep i 0 (some rx.packet)
      -- what is left is taken for an empty acknowledgement
      else if isRequest z inflight.packet then
        ({ ep with inflight := ep.inflight.set i { inflight with retransmit := false } }, [])
      else if isResponse z inflight.packet then freeInflightPacket ep i
      -- an entry that is neither falls through to the end
      else (ep, rejectPacket z env ep rx)
    | none => (ep, rejectPacket z env ep rx)

/-- The timeout that the loop passes to `k_poll` at the given uptime. -/
def pollTimeout (ep : CoapEndpoint) (uptime : Nat) : Int :=
  match nextRetransmission ep with
  | none => kForever
  -- signed difference of a deadline and a clock that both wrap around
  | some i => s32 ((ep.inflight.get i).deadline - uptime % 2 ^ 32)

/-! ## The receiving thread -/

/-- How an iteration of `recv_thread` ends: the thread returns, drops the item or puts it on
`rx_fifo`. -/
inductive Receipt where
  | returned
  | dropped
  | queued (rx : PacketRxDataItem)

/-- The zeroed `rx->data` after `recvfrom` wrote a datagram to it. -/
def rxData (datagram : List UInt8) : List UInt8 :=
  datagram.take maxCoapMsgLen ++ List.replicate (maxCoapMsgLen - datagram.length) 0

/-- One iteration. `recvfrom` fails, or gives a datagram and its source. -/
def recvThread (calloc : Bool) (recvfrom : Option (List UInt8 × SockAddr)) : Receipt :=
  if !calloc then .returned
  else
    match recvfrom with
    | none => .returned
    | some (datagram, addr) =>
      -- `sizeof(rx->data)` is the size of the array, not what was received
      let parsed := z.coapPacketParse (rxData datagram) maxCoapMsgLen maxCoapOptions
      if parsed.1 < 0 then .dropped
      else .queued { packet := parsed.2.1, options := parsed.2.2, addr }

/-! ## The endpoint as a machine -/

structure EndpointState where
  ep : CoapEndpoint
  txFifo : List PacketTxDataItem
  /-- ghost: how often `coap_endpoint_post_async` was called -/
  posts : Nat

inductive Event where
  | post (env : Env) (args : PostArgs)
  | transmit (env : Env)
  /-- `k_poll` timed out at `env.uptime`; its timeout was computed at `polledAt`. -/
  | timeout (env : Env) (polledAt : Nat)
  | receive (env : Env) (rx : PacketRxDataItem)

/-- A call of `coap_endpoint_post_async`, numbered by the calls before it. -/
def postStep (s : EndpointState) (args : PostArgs) : EndpointState × List Output :=
  let posted := coapEndpointPostAsync z env s.posts args
  ({ s with txFifo := s.txFifo ++ posted.2.1.toList, posts := s.posts + 1 },
    posted.2.2 ++ posted.2.1.toList.map .queued ++
      [.posted s.posts args.responseHandler args.responseHandlerData posted.1])

/-- `tx_fifo` is only read when it is not empty. -/
def transmitStep (s : EndpointState) : EndpointState × List Output :=
  match s.txFifo with
  | [] => (s, [])
  | tx :: rest =>
    -- the item is released by the loop; its message lives on in the table
    let transmitted := transmitPacket z app env s.ep tx
    ({ s with ep := transmitted.1, txFifo := rest }, transmitted.2)

/-- Without a selected entry `k_poll` waits for ever and does not time out. -/
def timeoutStep (s : EndpointState) : EndpointState × List Output :=
  match nextRetransmission s.ep with
  | none => (s, [])
  | some i =>
    -- `k_poll` fails with `-EAGAIN` for the entry that was selected before the wait
    let retransmitted := retransmitPacket z app env s.ep i
    ({ s with ep := retransmitted.1 }, .expired (s.ep.inflight.get i).call :: retransmitted.2)

def receiveStep (s : EndpointState) (rx : PacketRxDataItem) : EndpointState × List Output :=
  let received := receivePacket z app env s.ep rx
  ({ s with ep := received.1 }, .received rx :: received.2)

def step (s : EndpointState) : Event → EndpointState × List Output
  | .post env args => postStep z env s args
  | .transmit env => transmitStep z app env s
  | .timeout env _ => timeoutStep z app env s
  | .receive env rx => receiveStep z app env s rx

/-- An endpoint as `coap_endpoint_init` leaves it: nothing in flight, nothing queued. -/
def endpoint (sock : Int) (resources : List CoapResource) : Machine EndpointState Event Output where
  init := ⟨⟨sock, resources, .empty⟩, [], 0⟩
  step := step z app

abbrev EndpointConfig := Machine.Config EndpointState Output

/-- No restriction on the events of a run. -/
def anyEvent : EndpointConfig → Event → Prop := fun _ _ => True

end DtApp.Coap
