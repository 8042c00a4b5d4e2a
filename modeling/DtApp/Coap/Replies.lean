import DtApp.Coap.Matching
import DtApp.Coap.Sends

/-!
# What a received packet provokes

Error responses, the settling of confirmable messages, silence towards acknowledgements
and resets, and the end of every chain of replies.
-/
namespace DtApp.Coap

variable {z : Zephyr} {app : App}

/-! ## Error responses -/

/-- After whatever the handler sent, the error goes back to the source under its own code. -/
def AnswersFaithfully (z : Zephyr) (app : App) (env : Env) (ep : CoapEndpoint)
    (rx : PacketRxDataItem) : Prop :=
  ∃ q, sends (receivePacket z app env ep rx).2 =
      sends (coapHandleRequest z app env ep rx).2 ++ [(q, rx.addr)] ∧
    z.coapHeaderGetCode q = responseCodeForError (coapHandleRequest z app env ep rx).1

/-- A failed request is answered under the code of what the inner `err` holds before it is
initialised, which is the right code only when that has the code of the error. -/
theorem error_answered_iff (laws : z.Encodes) (env : Env) (ep : CoapEndpoint) (rx : PacketRxDataItem)
    (request : isRequest z rx.packet = true) (failed : (coapHandleRequest z app env ep rx).1 ≠ 0) :
    AnswersFaithfully z app env ep rx ↔
      env.staleErr = (coapHandleRequest z app env ep rx).1 ∨
        (env.staleErr ∉ mappedErrors ∧ (coapHandleRequest z app env ep rx).1 ∉ mappedErrors) := by
  obtain ⟨_, used, _⟩ := responseCodeForError_negative env.staleErr
  obtain ⟨q, built, sent⟩ := coapEndpointRespond_sends env laws ep rx.packet
    (responseCodeForError env.staleErr) 0 rx.addr (laws.codes _ used)
  have code : z.coapHeaderGetCode q = responseCodeForError env.staleErr :=
    congrArg Rfc7252.Header.code (laws.header _ _ _ built).1
  have all : sends (receivePacket z app env ep rx).2 =
      sends (coapHandleRequest z app env ep rx).2 ++ [(q, rx.addr)] := by
    simp only [receivePacket, request, if_true, receiveRequest, if_pos failed, sends_append, sent]
  rw [← responseCodeForError_eq_iff, ← code]
  constructor
  · -- there is one response, so it is the one that was sent
    rintro ⟨q', sent', code'⟩
    rw [all] at sent'
    have same := List.append_cancel_left sent'
    cases same
    exact code'
  · intro same
    exact ⟨q, all, same⟩

theorem strayRequest_isRequest : isRequest rfcZephyr (strayRequest .con).packet = true :=
  (isRequest_of_header (strayRequest_header .con)).trans requestCode_post

theorem strayRequest_unhandled :
    coapHandleRequest rfcZephyr plainApp (calmEnv 3 9) sampleEndpoint.start.state.ep
      (strayRequest .con) = (-enoent, []) := by
  decide +kernel

/-- The stack holds 0: a request that names no resource is answered with 5.00. -/
theorem error_misreported :
    isRequest rfcZephyr (strayRequest .con).packet = true ∧
      (coapHandleRequest rfcZephyr plainApp (calmEnv 3 9) sampleEndpoint.start.state.ep
        (strayRequest .con)).1 = -enoent ∧
      ¬AnswersFaithfully rfcZephyr plainApp (calmEnv 3 9) sampleEndpoint.start.state.ep
        (strayRequest .con) := by
  refine ⟨strayRequest_isRequest, congrArg Prod.fst strayRequest_unhandled, ?_⟩
  rintro ⟨q, sent, code⟩
  -- 5.00 goes out where 4.04 is due
  have actual : (sends (receivePacket rfcZephyr plainApp (calmEnv 3 9) sampleEndpoint.start.state.ep
      (strayRequest .con)).2).map (fun s => rfcZephyr.coapHeaderGetCode s.1) =
        [coapResponseCodeInternalError] := by decide +kernel
  have expected : responseCodeForError (-enoent) = coapResponseCodeNotFound := by decide
  rw [strayRequest_unhandled] at sent code
  rw [sent, sends_nil, List.nil_append, List.map_cons, code, expected] at actual
  exact absurd actual (by decide)

theorem error_answered_iff_stray :
    AnswersFaithfully rfcZephyr plainApp (calmEnv 3 9) sampleEndpoint.start.state.ep
        (strayRequest .con) ↔
      (0 : Int) = -enoent ∨ ((0 : Int) ∉ mappedErrors ∧ -enoent ∉ mappedErrors) := by
  have stray : (coapHandleRequest rfcZephyr plainApp (calmEnv 3 9) sampleEndpoint.start.state.ep
      (strayRequest .con)).1 = -enoent := by
    rw [strayRequest_unhandled]
  have failed : (coapHandleRequest rfcZephyr plainApp (calmEnv 3 9) sampleEndpoint.start.state.ep
      (strayRequest .con)).1 ≠ 0 := by
    rw [stray]
    decide
  rw [← stray]
  exact error_answered_iff rfcZephyr_encodes (calmEnv 3 9) sampleEndpoint.start.state.ep
    (strayRequest .con) strayRequest_isRequest failed

/-! ## Confirmable messages -/

/-- Exactly one empty message goes back to the source, with the packet's id: an
acknowledgement of a response that matched a request, a reset of anything else. -/
def Settles (z : Zephyr) (app : App) (env : Env) (ep : CoapEndpoint) (rx : PacketRxDataItem) : Prop :=
  ∃ q dest, sends (receivePacket z app env ep rx).2 = [(q, dest)] ∧ dest.peer = rx.addr.peer ∧
    z.header q = emptyHeader z
      (if isResponse z rx.packet = true ∧ (getInflightPacket z ep rx).isSome then .ack else .reset)
      rx.packet

/-- No request in flight to the packet's source has its id or its token. -/
def Unmatched (z : Zephyr) (ep : CoapEndpoint) (rx : PacketRxDataItem) : Prop :=
  ∀ e ∈ ep.inflight.items, SameAddr rx e → ¬SameId z rx e ∧ ¬SameToken z rx e

theorem unmatched_iff (ep : CoapEndpoint) (rx : PacketRxDataItem) :
    getInflightPacket z ep rx = none ↔ Unmatched z ep rx := by
  simp only [getInflightPacket, Bag.find?_none, ← Bool.not_eq_true, matchesInflight_iff, Unmatched,
    SameAddr, SameId, SameToken, not_and, not_or]

/-- A confirmable message that is not a request is settled if it is a response or matches
nothing. An empty one that matches a request is not answered. -/
theorem settles_iff (laws : z.Encodes) {sock : Int} {resources : List CoapResource}
    {c : EndpointConfig} (reach : (endpoint z app sock resources).Reachable viaPost c) (env : Env)
    (rx : PacketRxDataItem) (con : z.coapHeaderGetType rx.packet = .con)
    (noRequest : isRequest z rx.packet = false) :
    Settles z app env c.state.ep rx ↔
      isResponse z rx.packet = true ∨ Unmatched z c.state.ep rx := by
  rw [← unmatched_iff, Settles, receivePacket_sends env laws c.state.ep rx (reachable_allSync laws reach)
    (reachable_allRequests laws reach) noRequest, if_pos con]
  cases found : getInflightPacket z c.state.ep rx with
  | none =>
    -- rejected, be it a late response or a ping
    refine iff_of_true ⟨_, _, rfl, rfl, ?_⟩ (.inr rfl)
    simp [emptyAnswer_header laws]
  | some i =>
    have addr := ((getInflightPacket_eq_some_iff z _ rx i).mp found).1.1
    by_cases response : isResponse z rx.packet = true
    · -- `post_handler` acknowledges to the address of its request, which is the source
      simp only [response, if_true]
      refine iff_of_true ⟨_, _, rfl, addr, ?_⟩ (.inl trivial)
      simp [emptyAnswer_header laws]
    · simp [response]

theorem pingWithId_noRequest : isRequest rfcZephyr pingWithId.packet = false :=
  (isRequest_of_header pingWithId_header).trans (by decide)

/-- A ping with the id of a request in flight is not answered. -/
theorem ping_unanswered :
    sampleEndpoint.Reachable viaPost twoInflight ∧
      rfcZephyr.coapHeaderGetType pingWithId.packet = .con ∧
      isRequest rfcZephyr pingWithId.packet = false ∧
      ¬Settles rfcZephyr plainApp (calmEnv 3 9) twoInflight.state.ep pingWithId := by
  refine ⟨twoInflight_viaPost, pingWithId_con, pingWithId_noRequest, ?_⟩
  rintro ⟨q, dest, sent, _⟩
  have silent : sends (receivePacket rfcZephyr plainApp (calmEnv 3 9) twoInflight.state.ep
      pingWithId).2 = [] := by decide +kernel
  rw [silent] at sent
  cases sent

theorem settles_iff_ping :
    Settles rfcZephyr plainApp (calmEnv 3 9) twoInflight.state.ep pingWithId ↔
      isResponse rfcZephyr pingWithId.packet = true ∨
        Unmatched rfcZephyr twoInflight.state.ep pingWithId :=
  settles_iff rfcZephyr_encodes twoInflight_viaPost (calmEnv 3 9) pingWithId pingWithId_con
    pingWithId_noRequest

/-! ## Acknowledgements and resets -/

theorem messagePost_answered (laws : z.Encodes) (env : Env) (ep : CoapEndpoint)
    (request : CoapPacket) (addr : SockAddr) : sends (messagePost z env ep request addr).2 ≠ [] := by
  obtain ⟨q, _, sent⟩ := coapEndpointRespond_sends env laws ep request coapResponseCodeCreated 0 addr
    (laws.codes _ (by decide))
  rw [messagePost, sends_append, sent]
  exact List.append_ne_nil_of_right_ne_nil _ (List.cons_ne_nil _ _)

/-- A request is always answered when the resources are served by `message_post`. -/
theorem receivePacket_answered (laws : z.Encodes) (dispatches : z.Dispatches) (env : Env)
    (ep : CoapEndpoint) (served : Served ep.resources) (rx : PacketRxDataItem)
    (request : isRequest z rx.packet = true) : sends (receivePacket z app env ep rx).2 ≠ [] := by
  simp only [receivePacket, request, if_true, receiveRequest]
  split
  · -- the error response is sent whatever the handler did
    obtain ⟨_, used, _⟩ := responseCodeForError_negative env.staleErr
    obtain ⟨q, _, sent⟩ := coapEndpointRespond_sends env laws ep rx.packet
      (responseCodeForError env.staleErr) 0 rx.addr (laws.codes _ used)
    rw [sends_append, sent]
    exact List.append_ne_nil_of_right_ne_nil _ (List.cons_ne_nil _ _)
  · next succeeded =>
    unfold coapHandleRequest at succeeded ⊢
    split
    · exact messagePost_answered laws env ep rx.packet rx.addr
    · next f handled =>
      obtain ⟨resource, member, post⟩ := dispatches.method _ _ _ _ handled
      cases served resource member _ post
    · next err handled =>
      rw [handled] at succeeded
      exact absurd (dispatches.result _ _ _ _ request handled) succeeded

/-- An acknowledgement or a reset is answered exactly when its code is a request's. -/
theorem silent_iff (laws : z.Encodes) (dispatches : z.Dispatches) {sock : Int}
    {resources : List CoapResource} (served : Served resources) {c : EndpointConfig}
    (reach : (endpoint z app sock resources).Reachable viaPost c) (env : Env) (rx : PacketRxDataItem)
    (type : z.coapHeaderGetType rx.packet = .ack ∨ z.coapHeaderGetType rx.packet = .reset) :
    sends (receivePacket z app env c.state.ep rx).2 = [] ↔ isRequest z rx.packet = false := by
  constructor
  · intro silent
    -- a request is answered whatever its type
    by_contra request
    rw [← reachable_resources reach] at served
    exact receivePacket_answered laws dispatches env c.state.ep served rx
      (Bool.not_eq_false _ ▸ request) silent
  · intro noRequest
    have notCon : z.coapHeaderGetType rx.packet ≠ .con := by
      rcases type with ack | reset
      · rw [ack]
        decide
      · rw [reset]
        decide
    rw [receivePacket_sends env laws c.state.ep rx (reachable_allSync laws reach)
      (reachable_allRequests laws reach) noRequest, if_neg notCon]

/-- An acknowledgement with the code of a request is answered. -/
theorem ack_request_answered :
    sampleEndpoint.Reachable viaPost sampleEndpoint.start ∧
      rfcZephyr.coapHeaderGetType (messageRequest .ack).packet = .ack ∧
      sends (receivePacket rfcZephyr plainApp (calmEnv 3 9) sampleEndpoint.start.state.ep
        (messageRequest .ack)).2 ≠ [] :=
  ⟨.refl, type_of_header (messageRequest_header .ack), by decide +kernel⟩

theorem silent_iff_ack_request :
    sends (receivePacket rfcZephyr plainApp (calmEnv 3 9) twoInflight.state.ep
        (messageRequest .ack)).2 = [] ↔ isRequest rfcZephyr (messageRequest .ack).packet = false :=
  silent_iff rfcZephyr_encodes rfcZephyr_dispatches mainResources_served twoInflight_viaPost
    (calmEnv 3 9) (messageRequest .ack)
    (.inl (type_of_header (messageRequest_header .ack)))

/-! ## Chains of replies -/

/-- A datagram that an endpoint sends while it processes the first packet is parsed to the
second one. The endpoint may have any requests of `coap_endpoint_post` in flight. -/
def Provokes (z : Zephyr) (rx rx' : PacketRxDataItem) : Prop :=
  ∃ app sock resources c env, Answers z app ∧
    (endpoint z app sock resources).Reachable viaPost c ∧
    ∃ q dest, (q, dest) ∈ sends (receivePacket z app env c.state.ep rx).2 ∧
      z.Parsed q.wire rx'.packet

/-- A reply is not a request and not confirmable. -/
theorem provoked_quiet (laws : z.Encodes) (parses : z.ParsesBack) (rx rx' : PacketRxDataItem)
    (provokes : Provokes z rx rx') :
    isRequest z rx'.packet = false ∧ z.coapHeaderGetType rx'.packet ≠ .con := by
  obtain ⟨app, sock, resources, c, env, answers, reach, q, dest, sent, parsed⟩ := provokes
  have reply := receivePacket_replies env laws c.state.ep rx (answers.here c.state.ep rx)
    (reachable_allSync laws reach) (reachable_allRequests laws reach) q dest sent
  cases reply with
  | response code request class_ built ran =>
    have header := parses _ _ _ built _ parsed
    have code' : z.coapHeaderGetCode rx'.packet = code := congrArg Rfc7252.Header.code header
    have type' : z.coapHeaderGetType rx'.packet = respondType z rx.packet :=
      congrArg Rfc7252.Header.type header
    constructor
    · exact isRequest_of_isResponse z rx'.packet (by rw [isResponse, code']; exact class_)
    · rw [type', respondType]
      split <;> decide
  | empty type noRequest kind built =>
    have header := parses _ _ _ built _ parsed
    have code' : z.coapHeaderGetCode rx'.packet = coapCodeEmpty := congrArg Rfc7252.Header.code header
    have type' : z.coapHeaderGetType rx'.packet = type := congrArg Rfc7252.Header.type header
    constructor
    · rw [isRequest, code']
      decide
    · rw [type']
      rcases kind with rfl | rfl <;> decide

theorem provoked_silent (laws : z.Encodes) (parses : z.ParsesBack) (rx rx' : PacketRxDataItem)
    (provokes : Provokes z rx rx') {sock : Int} {resources : List CoapResource} {c : EndpointConfig}
    (reach : (endpoint z app sock resources).Reachable viaPost c) (env : Env) :
    sends (receivePacket z app env c.state.ep rx').2 = [] := by
  obtain ⟨noRequest, notCon⟩ := provoked_quiet laws parses rx rx' provokes
  rw [receivePacket_sends env laws c.state.ep rx' (reachable_allSync laws reach)
    (reachable_allRequests laws reach) noRequest, if_neg notCon]

/-- A reply provokes nothing at any endpoint, so a chain of replies has at most one link. -/
theorem no_reply_storm (laws : z.Encodes) (parses : z.ParsesBack) :
    (∀ rx rx', Provokes z rx rx' → ∀ app sock resources c env,
      (endpoint z app sock resources).Reachable viaPost c →
        sends (receivePacket z app env c.state.ep rx').2 = []) ∧
    ∀ rx chain, List.IsChain (Provokes z) (rx :: chain) → chain.length ≤ 1 := by
  constructor
  · intro rx rx' provokes app sock resources c env reach
    exact provoked_silent laws parses rx rx' provokes reach env
  · intro rx chain links
    match chain, links with
    | [], _ => exact Nat.zero_le 1
    | [_], _ => exact Nat.le_refl 1
    | first :: second :: rest, links =>
      -- the first reply would have to provoke the second one
      rw [List.isChain_cons_cons] at links
      have provokes := links.1
      have links := List.isChain_cons_cons.mp links.2
      obtain ⟨app, sock, resources, c, env, _, reach, q, dest, sent, _⟩ := links.1
      rw [provoked_silent laws parses rx first provokes reach env] at sent
      cases sent

/-- The response to a POST, as the client parses it. -/
def createdResponse : PacketRxDataItem :=
  sampleRx ⟨.ack, coapResponseCodeCreated, 9, [7]⟩ serverAddr

theorem createdResponse_provoked :
    Provokes rfcZephyr (messageRequest .con) createdResponse := by
  refine ⟨plainApp, 3, mainResources, sampleEndpoint.start, calmEnv 3 9, ?_, .refl,
    (rfcZephyr.coapPacketInit stackBuffer maxCoapMsgLen 1 .ack [7] coapResponseCodeCreated 9).2,
    clientAddr, by decide +kernel, ?_⟩
  · intro f request addr answer member
    cases member
  · exact received_parsed (Rfc7252.encodeHeader 1 ⟨.ack, coapResponseCodeCreated, 9, [7]⟩) serverAddr
      (by decide) (encodeHeader_accepted _ (by decide))

theorem no_reply_storm_created :
    sends (receivePacket rfcZephyr plainApp (calmEnv 3 9) twoInflight.state.ep
      createdResponse).2 = [] :=
  (no_reply_storm rfcZephyr_encodes rfcZephyr_parsesBack).1 (messageRequest .con) createdResponse
    createdResponse_provoked plainApp 3 mainResources twoInflight (calmEnv 3 9) twoInflight_viaPost

end DtApp.Coap
