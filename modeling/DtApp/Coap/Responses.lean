import DtApp.Coap.Encoding
import DtApp.Coap.Sends

/-!
# One response to each request

`coap_endpoint_respond` sends the response that it is asked for when that fits the buffer, and
nothing when it does not. `receive_packet` comes to exactly one such call for each request.
-/
namespace DtApp.Coap

/-! ## What is sent as a response -/

/-- The response to a confirmable or non-confirmable request, as it was asked for. -/
def responseMessage (z : Zephyr) (request : CoapPacket) (code : UInt8) (payload : List UInt8) :
    Rfc7252.Message :=
  ⟨1, ⟨if z.coapHeaderGetType request = .con then .ack else .nonCon, code, z.coapHeaderGetId request,
    z.coapHeaderGetToken request⟩, [], payload⟩

/-- A request that a response is due to. -/
structure Respondable (z : Zephyr) (request : CoapPacket) : Prop where
  type : z.coapHeaderGetType request = .con ∨ z.coapHeaderGetType request = .nonCon
  token : (z.coapHeaderGetToken request).length ≤ 8

/-- The bytes that a response takes: header and token, and a marker before a payload. -/
def responseSize (z : Zephyr) (request : CoapPacket) (payload : Option (List UInt8))
    (payloadLen : Int) : Int :=
  4 + (z.coapHeaderGetToken request).length +
    if payload.isSome ∧ payloadLen > 0 then 1 + payloadLen else 0

/-- The arguments for the payload: a length of 16 bits, and as many bytes behind the pointer. -/
structure PayloadArgs (payload : Option (List UInt8)) (payloadLen : Int) : Prop where
  nonneg : 0 ≤ payloadLen
  short : payloadLen < 2 ^ 16
  readable : ∀ bytes, payload = some bytes → payloadLen ≤ bytes.length

/-- The payload that these arguments stand for. -/
def payloadOf (payload : Option (List UInt8)) (payloadLen : Int) : List UInt8 :=
  (payload.getD []).take payloadLen.toNat

theorem PayloadArgs.length {payload : Option (List UInt8)} {payloadLen : Int}
    (valid : PayloadArgs payload payloadLen) :
    ((payloadOf payload payloadLen).length : Int) =
      if payload.isSome ∧ payloadLen > 0 then payloadLen else 0 := by
  have nonneg := valid.nonneg
  cases payload with
  | none => simp [payloadOf]
  | some bytes =>
    have length := take_payload_length (valid.readable bytes rfl)
    simp only [payloadOf, Option.getD_some, length, Option.isSome_some, true_and]
    split <;> omega

section

variable {z : Zephyr} (encodes : z.EncodesBytes) (env : Env) (ep : CoapEndpoint)
  {request : CoapPacket} (respondable : Respondable z request) (code : UInt8)
  {payload : Option (List UInt8)} {payloadLen : Int} (valid : PayloadArgs payload payloadLen)
  (addr : SockAddr)

theorem Respondable.header (respondable : Respondable z request) (code : UInt8) :
    responseHeader z request code = (responseMessage z request code []).header := by
  rcases respondable.type with con | nonCon
  · simp [responseHeader, responseMessage, respondType, con]
  · simp [responseHeader, responseMessage, respondType, nonCon]

/-- The two encoders of `coap_endpoint_respond`. -/
def encodeResponse (z : Zephyr) (request : CoapPacket) (code : UInt8) (payload : Option (List UInt8))
    (payloadLen : Int) : Int × CoapPacket :=
  let response := z.coapPacketInit stackBuffer maxCoapMsgLen 1 (respondType z request)
    (z.coapHeaderGetToken request) code (z.coapHeaderGetId request)
  if response.1 < 0 then response else appendPayload z response.2 payload (payloadLen % 2 ^ 16)

/-- What is encoded is sent, and an error of an encoder is returned. -/
theorem coapEndpointRespond_eq :
    coapEndpointRespond z env ep request code payload payloadLen addr =
      let encoded := encodeResponse z request code payload payloadLen
      if encoded.1 < 0 then (encoded.1, []) else sendAnswer env ep encoded.2 addr := by
  simp only [coapEndpointRespond, encodeResponse]
  split <;> rfl

include encodes respondable valid

theorem encodeResponse_writes :
    Writes maxCoapMsgLen [] (Rfc7252.encode (responseMessage z request code (payloadOf payload payloadLen)))
      (encodeResponse z request code payload payloadLen) := by
  have nonneg := valid.nonneg
  have short := valid.short
  have same : payloadLen % 2 ^ 16 = payloadLen := Int.emod_eq_of_lt nonneg short
  have cut : wrappedPayload (payloadOf payload payloadLen) =
      Rfc7252.encodePayload (payloadOf payload payloadLen) := by
    have length := valid.length
    rw [wrappedPayload, wrapped_eq (by split at length <;> omega)]
    rfl
  have init := (encodes.init stackBuffer maxCoapMsgLen (respondType z request)
    (z.coapHeaderGetToken request) code (z.coapHeaderGetId request) respondable.token).1
  have bytes : Rfc7252.encode (responseMessage z request code (payloadOf payload payloadLen)) =
      Rfc7252.encodeHeader 1 (responseHeader z request code) ++
        wrappedPayload (payloadOf payload payloadLen) := by
    rw [respondable.header code, cut]
    simp only [Rfc7252.encode, responseMessage, Rfc7252.encodeOptions, List.append_nil]
  rw [bytes]
  simp only [encodeResponse, same]
  apply init.append
  intro started
  exact appendPayload_writes encodes maxCoapMsgLen _ _ (init.holds started) payload payloadLen
    valid.readable

end

theorem responseMessage_size (z : Zephyr) (request : CoapPacket) (code : UInt8)
    {payload : Option (List UInt8)} {payloadLen : Int} (valid : PayloadArgs payload payloadLen) :
    ((Rfc7252.encode (responseMessage z request code (payloadOf payload payloadLen))).length : Int) =
      responseSize z request payload payloadLen := by
  have length := valid.length
  have written := Rfc7252.encodePayload_length (payloadOf payload payloadLen)
  simp only [Rfc7252.encode, responseMessage, Rfc7252.encodeOptions, List.append_nil,
    List.length_append, Rfc7252.encodeHeader_length, written, responseSize]
  by_cases present : payload.isSome ∧ payloadLen > 0
  · rw [if_pos present] at length
    have nonempty : payloadOf payload payloadLen ≠ [] := List.ne_nil_of_length_pos (by omega)
    rw [if_pos present, if_neg nonempty]
    omega
  · rw [if_neg present] at length
    have empty : payloadOf payload payloadLen = [] := List.eq_nil_of_length_eq_zero (by omega)
    rw [if_neg present, if_pos empty]
    omega

/-- The response is sent when it fits the buffer, and only an error is returned when it does not. -/
structure RespondsExactly (z : Zephyr) (env : Env) (ep : CoapEndpoint) (request : CoapPacket)
    (code : UInt8) (payload : Option (List UInt8)) (payloadLen : Int) (addr : SockAddr) : Prop where
  sent : responseSize z request payload payloadLen ≤ maxCoapMsgLen →
    ∃ q, sends (coapEndpointRespond z env ep request code payload payloadLen addr).2 = [(q, addr)] ∧
      Rfc7252.decode q.wire = some (responseMessage z request code (payloadOf payload payloadLen))
  refused : maxCoapMsgLen < responseSize z request payload payloadLen →
    (coapEndpointRespond z env ep request code payload payloadLen addr).1 < 0 ∧
      sends (coapEndpointRespond z env ep request code payload payloadLen addr).2 = []

theorem coapEndpointRespond_exact {z : Zephyr} (encodes : z.EncodesBytes) (env : Env)
    (ep : CoapEndpoint) {request : CoapPacket} (respondable : Respondable z request) (code : UInt8)
    {payload : Option (List UInt8)} {payloadLen : Int} (valid : PayloadArgs payload payloadLen)
    (addr : SockAddr) : RespondsExactly z env ep request code payload payloadLen addr := by
  have writes := encodeResponse_writes encodes respondable code valid
  have size := responseMessage_size z request code valid
  have fits := writes.fits
  rw [List.length_nil, Nat.zero_add] at fits
  constructor
  · intro room
    have fine : 0 ≤ (encodeResponse z request code payload payloadLen).1 := fits.mpr (by omega)
    refine ⟨(encodeResponse z request code payload payloadLen).2, ?_, ?_⟩
    · rw [coapEndpointRespond_eq]
      simp only [if_neg (Int.not_lt.mpr fine), sends_sendAnswer]
    · have wire := (writes.holds fine).wire
      rw [wire, List.nil_append]
      exact Rfc7252.decode_encode _ (show 1 < 4 by decide) respondable.token trivial
  · intro full
    have failed : (encodeResponse z request code payload payloadLen).1 < 0 := by
      by_contra fine
      have room := fits.mp (Int.not_lt.mp fine)
      omega
    rw [coapEndpointRespond_eq]
    simp only [if_pos failed]
    exact ⟨failed, rfl⟩

/-! ## Requests -/

/-- Nothing but a response with a response code goes out, and no null pointer is followed. -/
structure AnsweredOnce (z : Zephyr) (app : App) (env : Env) (ep : CoapEndpoint)
    (rx : PacketRxDataItem) : Prop where
  answer : ∃ q code, responseCode code = true ∧
    sends (receivePacket z app env ep rx).2 = [(q, rx.addr)] ∧
    Rfc7252.decode q.wire = some (responseMessage z rx.packet code [])
  sound : Output.fault ∉ (receivePacket z app env ep rx).2

theorem payloadArgs_none : PayloadArgs none 0 :=
  ⟨Int.le_refl 0, by decide, fun _ absurd => by cases absurd⟩

/-- A response without payload always fits. -/
theorem coapEndpointRespond_bare {z : Zephyr} (encodes : z.EncodesBytes) (env : Env)
    (ep : CoapEndpoint) {request : CoapPacket} (respondable : Respondable z request) (code : UInt8)
    (addr : SockAddr) :
    ∃ q, sends (coapEndpointRespond z env ep request code none 0 addr).2 = [(q, addr)] ∧
      Rfc7252.decode q.wire = some (responseMessage z request code []) := by
  have short := respondable.token
  apply (coapEndpointRespond_exact encodes env ep respondable code payloadArgs_none addr).sent
  simp only [responseSize, Option.isSome_none, Bool.false_eq_true, false_and, if_false, maxCoapMsgLen]
  omega

theorem coapEndpointRespond_sound (z : Zephyr) (env : Env) (ep : CoapEndpoint) (request : CoapPacket)
    (code : UInt8) (payload : Option (List UInt8)) (payloadLen : Int) (addr : SockAddr) :
    Output.fault ∉ (coapEndpointRespond z env ep request code payload payloadLen addr).2 := by
  rw [coapEndpointRespond_eq]
  dsimp only
  split <;> simp [sendAnswer]

/-- What a request comes to when the resources are served by `message_post`: one call of
`coap_endpoint_respond`, in the method or after the dispatcher failed. -/
theorem receivePacket_served {z : Zephyr} (app : App) (dispatches : z.Dispatches) (env : Env)
    {ep : CoapEndpoint} (served : Served ep.resources) {rx : PacketRxDataItem}
    (request : isRequest z rx.packet = true) :
    (z.coapHandleRequest rx.packet ep.resources rx.options = .method .messagePost ∧
      (receivePacket z app env ep rx).2 = (messagePost z env ep rx.packet rx.addr).2) ∨
    ∃ err, z.coapHandleRequest rx.packet ep.resources rx.options = .result err ∧
      (receivePacket z app env ep rx).2 = (coapEndpointRespond z env ep rx.packet
        (responseCodeForError env.staleErr) none 0 rx.addr).2 := by
  have outs : (receivePacket z app env ep rx).2 = receiveRequest z app env ep rx := by
    rw [receivePacket, if_pos request]
  rw [outs]
  rcases handled : z.coapHandleRequest rx.packet ep.resources rx.options with m | err
  · obtain ⟨resource, member, post⟩ := dispatches.method _ _ _ _ handled
    have main := served resource member m post
    subst main
    have called : coapHandleRequest z app env ep rx = messagePost z env ep rx.packet rx.addr := by
      rw [coapHandleRequest, handled]
    left
    simp [receiveRequest, called, messagePost]
  · have failed := dispatches.result _ _ _ _ request handled
    have called : coapHandleRequest z app env ep rx = (err, []) := by
      rw [coapHandleRequest, handled]
    right
    exact ⟨err, rfl, by simp [receiveRequest, called, failed]⟩

theorem request_answered {z : Zephyr} (app : App) (encodes : z.EncodesBytes)
    (dispatches : z.Dispatches) (env : Env) {ep : CoapEndpoint} (served : Served ep.resources)
    {rx : PacketRxDataItem} (request : isRequest z rx.packet = true)
    (respondable : Respondable z rx.packet) (memory : env.calloc 0 = true) :
    AnsweredOnce z app env ep rx := by
  rcases receivePacket_served app dispatches env served request with
    ⟨_, outs⟩ | ⟨err, _, outs⟩
  · have responded := coapEndpointRespond_bare encodes env ep respondable coapResponseCodeCreated rx.addr
    have sound := coapEndpointRespond_sound z env ep rx.packet coapResponseCodeCreated none 0 rx.addr
    obtain ⟨q, sent, decoded⟩ := responded
    refine ⟨⟨q, _, by decide, ?_, decoded⟩, ?_⟩
    · rw [outs]
      simpa [messagePost, memory, sends] using sent
    · rw [outs]
      simpa [messagePost, memory] using sound
  · -- whatever the stack held, the code is an error's
    obtain ⟨class_, _⟩ := responseCodeForError_negative env.staleErr
    obtain ⟨q, sent, decoded⟩ := coapEndpointRespond_bare encodes env ep respondable
      (responseCodeForError env.staleErr) rx.addr
    refine ⟨⟨q, _, class_, ?_, decoded⟩, ?_⟩
    · rw [outs, sent]
    · rw [outs]
      exact coapEndpointRespond_sound z env ep rx.packet _ none 0 rx.addr

/-- Each request is answered with exactly one response, and every response is sent as it was asked
for if it fits. -/
theorem one_response {z : Zephyr} (encodes : z.EncodesBytes) (dispatches : z.Dispatches) (app : App)
    (env : Env) (ep : CoapEndpoint) :
    (∀ rx, Served ep.resources → isRequest z rx.packet = true → Respondable z rx.packet →
      env.calloc 0 = true → AnsweredOnce z app env ep rx) ∧
    ∀ request, Respondable z request → ∀ code payload payloadLen, PayloadArgs payload payloadLen →
      ∀ addr, RespondsExactly z env ep request code payload payloadLen addr := by
  constructor
  · intro rx served request respondable memory
    exact request_answered app encodes dispatches env served request respondable memory
  · intro request respondable code payload payloadLen valid addr
    exact coapEndpointRespond_exact encodes env ep respondable code valid addr

theorem messageRequest_respondable : Respondable rfcZephyr (messageRequest .con).packet :=
  ⟨by decide +kernel, by decide +kernel⟩

theorem one_response_message :
    AnsweredOnce rfcZephyr plainApp (calmEnv 3 9) twoInflight.state.ep (messageRequest .con) ∧
      RespondsExactly rfcZephyr (calmEnv 3 9) twoInflight.state.ep (messageRequest .con).packet
        coapResponseCodeCreated (some [111, 107]) 2 clientAddr := by
  have both := one_response rfcZephyr_encodesBytes rfcZephyr_dispatches plainApp (calmEnv 3 9)
    twoInflight.state.ep
  have resources : twoInflight.state.ep.resources = mainResources :=
    reachable_resources twoInflight_viaPost
  have served : Served twoInflight.state.ep.resources := by
    rw [resources]
    exact mainResources_served
  have request := (isRequest_of_header (messageRequest_header .con)).trans requestCode_post
  refine ⟨both.1 (messageRequest .con) served request messageRequest_respondable rfl, ?_⟩
  have valid : PayloadArgs (some [111, 107]) 2 := by
    refine ⟨by decide, by decide, ?_⟩
    rintro bytes ⟨⟩
    decide
  exact both.2 _ messageRequest_respondable coapResponseCodeCreated _ _ valid clientAddr

end DtApp.Coap
