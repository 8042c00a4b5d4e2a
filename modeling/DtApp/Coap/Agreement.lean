import DtApp.Library.Interleave
import DtApp.Coap.Sends

/-!
# Two endpoints over a network

Two endpoints run the same code and post requests to each other, over a network that loses,
duplicates, delays and reorders datagrams, but neither forges nor alters them. Whoever
completes a request with a response agrees with the other side on what was asked.
-/
namespace DtApp.Coap

/-! ## Where a datagram comes from -/

/-- An empty message that an endpoint built to answer something. -/
def IsEmptyAnswer (z : Zephyr) (q : CoapPacket) : Prop :=
  ∃ h, h.code = coapCodeEmpty ∧ z.Built h none q

/-- The contract of `coap_response_handler`: a handler acknowledges or rejects the response,
and sends nothing else. -/
def SettlesOnly (z : Zephyr) (app : App) : Prop :=
  ∀ f data err response, ∀ sent ∈ app.responseHandler f data err response, IsEmptyAnswer z sent.1

/-- The response to a request that was received, which is only 2.01 when `message_post` ran. -/
def IsResponseTo (z : Zephyr) (outs : List Output) (rx : PacketRxDataItem) (q : CoapPacket) : Prop :=
  isRequest z rx.packet = true ∧ ∃ code, responseCode code = true ∧
    z.Built (responseHeader z rx.packet code) none q ∧
    (code = coapResponseCodeCreated →
      Output.messagePost rx.packet (z.coapPacketGetPayload rx.packet) rx.addr ∈ outs)

variable {z : Zephyr} {app : App}

section sources

variable (laws : z.Encodes) (dispatches : z.Dispatches) (handlers : SettlesOnly z app)

include laws in
theorem emptyAnswer_isEmptyAnswer (type : CoapType) (packet : CoapPacket) :
    IsEmptyAnswer z (emptyAnswer z type packet).2 :=
  ⟨_, rfl, (emptyAnswer_built laws type packet).2⟩

include laws handlers in
/-- Response handlers send empty messages only. -/
theorem invokeHandler_sends (env : Env) (ep : CoapEndpoint) (call : Nat) (handler : ResponseHandler)
    (data : HandlerData) (err : Int) (response : Option CoapPacket) (q : CoapPacket) (dest : SockAddr)
    (sent : (q, dest) ∈ sends (invokeHandler z app env ep call handler data err response)) :
    IsEmptyAnswer z q := by
  cases handler with
  | postHandler =>
    by_cases fine : err = 0
    · have acked : (q, dest) ∈ sends (coapEndpointAcknowledge z env ep (response.getD .null)
          data.addr).2 := by
        simpa [invokeHandler, postHandler, fine, sends] using sent
      rw [coapEndpointAcknowledge_sends env laws] at acked
      split at acked
      · cases List.mem_singleton.mp acked
        exact emptyAnswer_isEmptyAnswer laws _ _
      · cases acked
    · simp [invokeHandler, postHandler, fine, sends] at sent
  | other f =>
    -- by the contract of handlers
    obtain ⟨request, sock, member⟩ := (mem_sends_iff _ q dest).mp sent
    simp only [invokeHandler, List.mem_cons, reduceCtorEq, false_or, List.mem_map] at member
    obtain ⟨given, member, eq⟩ := member
    cases eq
    exact handlers f data err response given member

theorem receiveRequest_noOther (env : Env) (ep : CoapEndpoint) (rx : PacketRxDataItem)
    (dispatches : z.Dispatches) (served : Served ep.resources) (f : Nat) :
    Output.otherMethod f rx.packet rx.addr ∉ receiveRequest z app env ep rx := by
  have responded : ∀ code, Output.otherMethod f rx.packet rx.addr ∉
      (coapEndpointRespond z env ep rx.packet code none 0 rx.addr).2 := by
    intro code
    unfold coapEndpointRespond
    dsimp only
    split
    · simp
    · split
      · simp
      · simp [sendAnswer]
  have handled : Output.otherMethod f rx.packet rx.addr ∉ (coapHandleRequest z app env ep rx).2 := by
    unfold coapHandleRequest
    split
    · have faultless : Output.otherMethod f rx.packet rx.addr ∉
          (if env.calloc 0 then [] else [Output.fault]) := by split <;> simp
      simp [messagePost, responded, faultless]
    · next g handled =>
      obtain ⟨resource, member, post⟩ := dispatches.method _ _ _ _ handled
      cases served resource member _ post
    · simp
  unfold receiveRequest
  dsimp only
  split
  · exact fun member => (List.mem_append.mp member).elim handled (responded _)
  · exact handled

theorem Served.here {ep : CoapEndpoint} (served : Served ep.resources) (dispatches : z.Dispatches)
    (rx : PacketRxDataItem) : AnswersHere z app ep rx := by
  intro f handled
  obtain ⟨resource, member, post⟩ := dispatches.method _ _ _ _ handled
  cases served resource member _ post

include laws dispatches handlers in
/-- What a received packet makes an endpoint send. -/
theorem receivePacket_sources (env : Env) (ep : CoapEndpoint) (rx : PacketRxDataItem)
    (served : Served ep.resources) (q : CoapPacket) (dest : SockAddr)
    (sent : (q, dest) ∈ sends (receivePacket z app env ep rx).2) :
    IsEmptyAnswer z q ∨ IsResponseTo z (receivePacket z app env ep rx).2 rx q := by
  have rejected : (q, dest) ∈ sends (rejectPacket z env ep rx) → IsEmptyAnswer z q := by
    intro sent
    rw [rejectPacket_sends env laws] at sent
    split at sent
    · cases List.mem_singleton.mp sent
      exact emptyAnswer_isEmptyAnswer laws _ _
    · cases sent
  have completed : ∀ i err response, (q, dest) ∈ sends (completeInflight z app env ep i err response).2 →
      IsEmptyAnswer z q := by
    intro i err response sent
    simp only [completeInflight, freeInflightPacket, sends_append, sends_kFree, List.append_nil] at sent
    exact invokeHandler_sends laws handlers env ep _ _ _ _ _ q dest sent
  have cases := receivePacket_cases z app env ep rx
  generalize (receivePacket z app env ep rx).1 = ep' at cases
  generalize (receivePacket z app env ep rx).2 = outs at cases sent ⊢
  cases cases with
  | request request =>
    have reply := receiveRequest_replies env laws ep rx (served.here dispatches rx) request q dest sent
    cases reply with
    | response code _ class_ built ran =>
      refine .inr ⟨request, code, class_, built, fun created => ?_⟩
      rcases ran created with message | ⟨f, other⟩
      · exact message
      · exact absurd other (receiveRequest_noOther env ep rx dispatches served f)
    | empty type noRequest =>
      rw [request] at noRequest
      cases noRequest
  | canceled i => exact .inl (completed i _ _ sent)
  | completed i => exact .inl (completed i _ _ sent)
  | acknowledged => cases sent
  | answered i =>
    simp only [freeInflightPacket, sends_kFree] at sent
    cases sent
  | unclaimed => exact .inl (rejected sent)
  | unmatched => exact .inl (rejected sent)

include laws dispatches handlers in
/-- Whatever an endpoint sends on its own account is an empty answer, or the response to the
request that it receives in this step. -/
theorem step_sources (s : EndpointState) (served : Served s.ep.resources)
    (event : Event) (sock : Int) (q : CoapPacket) (dest : SockAddr)
    (sent : Output.sendto none sock q dest ∈ (step z app s event).2) :
    IsEmptyAnswer z q ∨ ∃ env rx, event = .receive env rx ∧
      Output.received rx ∈ (step z app s event).2 ∧ IsResponseTo z (step z app s event).2 rx q := by
  have asSent : ∀ outs, Output.sendto none sock q dest ∈ outs → (q, dest) ∈ sends outs :=
    fun outs member => (mem_sends_iff outs q dest).mpr ⟨none, sock, member⟩
  by_cases receive : ∃ env rx, event = .receive env rx
  · obtain ⟨env, rx, rfl⟩ := receive
    simp only [step, receiveStep, List.mem_cons, reduceCtorEq, false_or] at sent ⊢
    rcases receivePacket_sources laws dispatches handlers env s.ep rx served q dest (asSent _ sent) with
      empty | ⟨request, code, class_, built, ran⟩
    · exact .inl empty
    · exact .inr ⟨env, rx, rfl, .inl rfl, request, code, class_, built,
        fun created => List.mem_cons_of_mem _ (ran created)⟩
  · -- nothing is received, so a handler sent it
    have effects : Effects z app (fun _ => False) (step z app s event).2 :=
      step_effects_other s event fun env rx eq => receive ⟨env, rx, eq⟩
    obtain ⟨env, ep, call, handler, data, err, response, handled⟩ :=
      (effects.sendto sent).resolve_left id
    exact .inl (invokeHandler_sends laws handlers env ep call handler data err response q dest
      (asSent _ handled))

end sources

/-- The origin of a datagram in the history of its sender. -/
inductive Source (z : Zephyr) (log : List Output) (q : CoapPacket) : Prop
  | request (tx : PacketTxDataItem) : Output.queued tx ∈ log → q = tx.packet → Source z log q
  | empty : IsEmptyAnswer z q → Source z log q
  | response (rx : PacketRxDataItem) : Output.received rx ∈ log → IsResponseTo z log rx q →
      Source z log q

theorem IsResponseTo.mono {outs log : List Output} {rx : PacketRxDataItem} {q : CoapPacket}
    (response : IsResponseTo z outs rx q) (more : outs ⊆ log) : IsResponseTo z log rx q := by
  obtain ⟨request, code, class_, built, ran⟩ := response
  exact ⟨request, code, class_, built, fun created => more (ran created)⟩

/-- Every datagram of a run is a posted request, an empty answer or the response to a request
that was received before. -/
theorem reachable_source (laws : z.Encodes) (dispatches : z.Dispatches)
    (handlers : SettlesOnly z app) {sock : Int} {resources : List CoapResource}
    (served : Served resources) {c : EndpointConfig}
    (reach : (endpoint z app sock resources).Reachable anyEvent c) (request : Option Nat) (via : Int)
    (q : CoapPacket) (dest : SockAddr) (sent : Output.sendto request via q dest ∈ c.log) :
    Source z c.log q := by
  obtain ⟨d, event, reached, _, leads, sent⟩ := reach.origin_of_mem sent
  have all := reachable_allPosts laws reached
  have older : d.log ⊆ c.log := fun o member =>
    leads.log_prefix.subset (List.mem_append_left _ member)
  have newer : (step z app d.state event).2 ⊆ c.log := fun o member =>
    leads.log_prefix.subset (List.mem_append_right _ member)
  cases request with
  | some call =>
    -- sent for a request: the first time from the queue, then from the table
    rcases (step_refines app laws d.state event all).sendto sent with
      ⟨_, _, tx, queued, _, eq⟩ | ⟨_, _, _, e, member, _, eq⟩
    · exact .request tx (older ((reachable_origins laws reached).queue tx queued)) eq
    · obtain ⟨tx, queued, of⟩ := (reachable_origins laws reached).table e member
      exact .request tx (older queued) (eq.trans of.packet)
  | none =>
    rw [← reachable_resources reached] at served
    rcases step_sources laws dispatches handlers d.state served event via q dest sent with
      empty | ⟨env, rx, rfl, received, response⟩
    · exact .empty empty
    · exact .response rx (newer received) (response.mono newer)

/-! ## The network -/

inductive Side where
  | a
  | b
  deriving DecidableEq

def Side.other : Side → Side
  | .a => .b
  | .b => .a

/-- Two endpoints with the same library, each with its own application. -/
def network (z : Zephyr) (app : Side → App) (sock : Side → Int) (resources : Side → List CoapResource) :
    Machine (Side → EndpointState) (Side × Event) (Side × Output) :=
  .interleave fun side => endpoint z (app side) (sock side) (resources side)

abbrev NetworkConfig := Machine.Config (Side → EndpointState) (Side × Output)

/-- Requests go to the other side, and what is received is parsed from a datagram that the
other side has sent before, any number of times and in any order. -/
def delivered (z : Zephyr) (addr : Side → SockAddr) (c : NetworkConfig) : Side × Event → Prop
  | (side, .post _ args) => args.addr.peer = (addr side.other).peer
  | (side, .receive _ rx) => rx.addr.peer = (addr side.other).peer ∧
      ∃ request sock q dest, (side.other, Output.sendto request sock q dest) ∈ c.log ∧
        z.Parsed q.wire rx.packet
  | _ => True

/-- The requests that were queued. -/
def requests (log : List Output) : List PacketTxDataItem :=
  log.filterMap fun
    | .queued tx => some tx
    | _ => none

/-- `coap_next_id` and `coap_next_token` repeat nothing. -/
structure FreshIds (z : Zephyr) (log : List Output) : Prop where
  ids : ((requests log).map fun tx => z.coapHeaderGetId tx.packet).Nodup
  tokens : ((requests log).map fun tx => z.coapHeaderGetToken tx.packet).Nodup

theorem mem_requests (log : List Output) (tx : PacketTxDataItem) :
    tx ∈ requests log ↔ Output.queued tx ∈ log := by
  simp only [requests, List.mem_filterMap]
  constructor
  · rintro ⟨o, member, eq⟩
    cases o with
    | queued tx' =>
      cases eq
      exact member
    | _ => cases eq
  · intro member
    exact ⟨_, member, rfl⟩

/-- Two requests with the same id or the same token are one. -/
theorem FreshIds.unique {log : List Output} (fresh : FreshIds z log) {tx tx' : PacketTxDataItem}
    (queued : Output.queued tx ∈ log) (queued' : Output.queued tx' ∈ log)
    (same : z.coapHeaderGetId tx.packet = z.coapHeaderGetId tx'.packet ∨
      z.coapHeaderGetToken tx.packet = z.coapHeaderGetToken tx'.packet) : tx = tx' := by
  rw [← mem_requests] at queued queued'
  rcases same with ids | tokens
  · exact List.inj_on_of_nodup_map fresh.ids queued queued' ids
  · exact List.inj_on_of_nodup_map fresh.tokens queued queued' tokens

/-! ## Agreement -/

/-- What a received packet is, in the history of its sender. -/
inductive Copy (z : Zephyr) (log : List Output) (p : CoapPacket) : Prop
  | request (tx : PacketTxDataItem) : Output.queued tx ∈ log → z.Parsed tx.packet.wire p →
      z.header p = z.header tx.packet → isResponse z p = false → Copy z log p
  | empty : z.coapHeaderGetCode p = coapCodeEmpty → Copy z log p
  | response (rx : PacketRxDataItem) : Output.received rx ∈ log → isRequest z rx.packet = true →
      isResponse z p = true → z.coapHeaderGetId p = z.coapHeaderGetId rx.packet →
      z.coapHeaderGetToken p = z.coapHeaderGetToken rx.packet →
      (z.coapHeaderGetCode p = coapResponseCodeCreated →
        Output.messagePost rx.packet (z.coapPacketGetPayload rx.packet) rx.addr ∈ log) → Copy z log p

/-- A handler that is called without an error gets the packet that was received. -/
theorem Move.answered {v v' : View} {event : Event} {outs : List Output} (move : Move z v event outs v')
    {call : Nat} {handler : ResponseHandler} {data : HandlerData} {response : CoapPacket}
    (invoked : Output.invoked call handler data 0 (some response) ∈ outs) :
    ∃ env rx e, event = .receive env rx ∧ e ∈ v.table ∧ e.call = call ∧
      matchesInflight z rx e = true ∧ isResponse z rx.packet = true ∧ response = rx.packet := by
  cases move.explained _ invoked with
  | handler absurd => cases absurd
  | completed member matched isResponse_ => exact ⟨_, _, _, rfl, member, rfl, matched, isResponse_, rfl⟩

/-- Only a receive step reports a received packet. -/
theorem Move.received {v v' : View} {event : Event} {outs : List Output} (move : Move z v event outs v')
    {rx : PacketRxDataItem} (received : Output.received rx ∈ outs) :
    ∃ env, event = .receive env rx := by
  cases move.explained _ received with
  | handler absurd => cases absurd
  | received => exact ⟨_, rfl⟩

section agreement

variable {apps : Side → App} {sock : Side → Int} {resources : Side → List CoapResource}
  {addr : Side → SockAddr} {c : NetworkConfig}
  (laws : z.Encodes) (parses : z.ParsesBack) (dispatches : z.Dispatches)
  (handlers : ∀ side, SettlesOnly z (apps side)) (served : ∀ side, Served (resources side))

include laws dispatches handlers served

include parses

/-- What is received was sent by the other side. -/
theorem delivered_copy (reach : (network z apps sock resources).Reachable (delivered z addr) c)
    (side : Side) (env : Env) (rx : PacketRxDataItem) (ok : delivered z addr c (side, .receive env rx)) :
    Copy z (Machine.entries side.other c.log) rx.packet := by
  obtain ⟨_, request, via, q, dest, sent, parsed⟩ := ok
  have other := Machine.Reachable.at reach side.other
  have source := reachable_source laws dispatches (handlers side.other) (served side.other) other request
    via q dest (by simpa [Machine.Config.at] using sent)
  -- parsing recovers the header that was encoded
  cases source with
  | request tx queued eq =>
    subst eq
    obtain ⟨id, token, built⟩ := ((reachable_origins laws other).posted tx queued).1
    have header := parses _ _ _ built _ parsed
    have code : z.coapHeaderGetCode rx.packet = coapMethodPost := congrArg Rfc7252.Header.code header
    refine .request tx queued parsed (header.trans (laws.header _ _ _ built).1.symm) ?_
    rw [isResponse, code]
    decide
  | empty answer =>
    obtain ⟨h, code, built⟩ := answer
    exact .empty ((congrArg Rfc7252.Header.code (parses _ _ _ built _ parsed)).trans code)
  | response rx' received response =>
    obtain ⟨request, code, class_, built, ran⟩ := response
    have read := parses _ _ _ built _ parsed
    simp only [Zephyr.header, responseHeader, Rfc7252.Header.mk.injEq] at read
    refine .response rx' received request ?_ read.2.2.1 read.2.2.2 ?_
    · rw [isResponse, read.2.1]
      exact class_
    · rw [read.2.1]
      exact ran

/-- A request that one side received was posted by the other. -/
theorem request_source (reach : (network z apps sock resources).Reachable (delivered z addr) c)
    (side : Side) (rx : PacketRxDataItem) (received : (side, Output.received rx) ∈ c.log)
    (request : isRequest z rx.packet = true) :
    ∃ tx, (side.other, Output.queued tx) ∈ c.log ∧ z.Parsed tx.packet.wire rx.packet ∧
      z.header rx.packet = z.header tx.packet := by
  -- go back to the step in which it was received
  obtain ⟨d, ⟨side', event⟩, reached, ok, leads, received⟩ := reach.origin_of_mem received
  obtain ⟨same, out⟩ := Machine.mem_interleave_step _ _ _ _ _ _ received
  subst side'
  have all := reachable_allPosts laws (Machine.Reachable.at reached side)
  have move := step_refines (apps side) laws (d.state side) event all
  obtain ⟨env, rfl⟩ := move.received out
  cases delivered_copy laws parses dispatches handlers served reached side env rx ok with
  | request tx queued copy header =>
    rw [Machine.mem_entries] at queued
    exact ⟨tx, leads.log_prefix.subset (List.mem_append_left _ queued), copy, header⟩
  | empty empty =>
    rw [isRequest, empty] at request
    cases request
  | response _ _ _ response =>
    rw [isRequest_of_isResponse z rx.packet response] at request
    cases request

/-- A response that one side receives answers a request that it has posted itself: the other
side has received a copy, and ran `message_post` on it if the response is 2.01. -/
theorem response_source (reach : (network z apps sock resources).Reachable (delivered z addr) c)
    (side : Side) (env : Env) (rx : PacketRxDataItem) (ok : delivered z addr c (side, .receive env rx))
    (response : isResponse z rx.packet = true) :
    ∃ tx rx', (side, Output.queued tx) ∈ c.log ∧
      z.coapHeaderGetToken rx.packet = z.coapHeaderGetToken tx.packet ∧
      z.coapHeaderGetId rx.packet = z.coapHeaderGetId tx.packet ∧
      (side.other, Output.received rx') ∈ c.log ∧ z.Parsed tx.packet.wire rx'.packet ∧
      (z.coapHeaderGetCode rx.packet = coapResponseCodeCreated →
        (side.other, Output.messagePost rx'.packet (z.coapPacketGetPayload rx'.packet) rx'.addr) ∈
          c.log) := by
  cases delivered_copy laws parses dispatches handlers served reach side env rx ok with
  | request _ _ _ _ noResponse =>
    rw [response] at noResponse
    cases noResponse
  | empty empty =>
    rw [isResponse, empty] at response
    cases response
  | response rx' received request _ id token ran =>
    simp only [Machine.mem_entries] at received ran
    -- what the other side answered came from this side
    obtain ⟨tx, queued, copy, header⟩ := request_source laws parses dispatches handlers served reach
      side.other rx' received request
    simp only [Zephyr.header, Rfc7252.Header.mk.injEq] at header
    have back : side.other.other = side := by cases side <;> rfl
    rw [back] at queued
    exact ⟨tx, rx', queued, token.trans header.2.2.2, id.trans header.2.2.1, received, copy, ran⟩

/-- Two-party agreement: when the handler of a request is called without an error, the
response has the request's token and id, the other side has received a copy of the request
before, and if the response is 2.01 `message_post` ran on this copy. -/
theorem agreement (reach : (network z apps sock resources).Reachable (delivered z addr) c)
    (fresh : ∀ side, FreshIds z (Machine.entries side c.log)) (side : Side) (call : Nat)
    (handler : ResponseHandler) (data : HandlerData) (response : CoapPacket)
    (pre post : List (Side × Output))
    (split : c.log = pre ++ (side, Output.invoked call handler data 0 (some response)) :: post) :
    ∃ tx rx, (side, Output.queued tx) ∈ pre ∧ tx.call = call ∧
      z.coapHeaderGetToken response = z.coapHeaderGetToken tx.packet ∧
      z.coapHeaderGetId response = z.coapHeaderGetId tx.packet ∧
      (side.other, Output.received rx) ∈ pre ∧ z.Parsed tx.packet.wire rx.packet ∧
      (z.coapHeaderGetCode response = coapResponseCodeCreated →
        (side.other, Output.messagePost rx.packet (z.coapPacketGetPayload rx.packet) rx.addr) ∈ pre) := by
  -- go back to the step in which the handler was called
  obtain ⟨d, ⟨side', event⟩, before, after, reached, ok, leads, outs, rfl⟩ := reach.origin split
  have out : (side, Output.invoked call handler data 0 (some response)) ∈
      ((network z apps sock resources).step d.state (side', event)).2 := by
    rw [outs]
    exact List.mem_append_right _ List.mem_cons_self
  obtain ⟨same, invoked⟩ := Machine.mem_interleave_step _ _ _ _ _ _ out
  subst side'
  have local_ := Machine.Reachable.at reached side
  have move := step_refines (apps side) laws (d.state side) event (reachable_allPosts laws local_)
  obtain ⟨env, rx, e, rfl, member, rfl, matched, isResponse_, rfl⟩ := move.answered invoked
  obtain ⟨tx, queued, of⟩ := (reachable_origins laws local_).table e member
  obtain ⟨tx', rx', queued', token, id, received, copy, ran⟩ :=
    response_source laws parses dispatches handlers served reached side env rx ok isResponse_
  have inLog : ∀ o, (side, o) ∈ d.log → o ∈ Machine.entries side c.log := fun o member =>
    (Machine.mem_entries side o c.log).mpr (leads.log_prefix.subset (List.mem_append_left _ member))
  have queued : (side, Output.queued tx) ∈ d.log := (Machine.mem_entries side _ d.log).mp queued
  -- the id or the token of the response picks out the request that was answered
  have one : tx = tx' := by
    have ids := ((matchesInflight_iff z rx e).mp matched).2
    rw [of.packet, id, token] at ids
    exact (fresh side).unique (inLog _ queued) (inLog _ queued') ids
  subst one
  have kept : ∀ o ∈ d.log, o ∈ d.log ++ before := fun o member => List.mem_append_left _ member
  exact ⟨tx, rx', kept _ queued, of.call.symm, token, id, kept _ received, copy,
    fun created => kept _ (ran created)⟩

end agreement

/-! ## A request and its response -/

def sampleAddr : Side → SockAddr
  | .a => clientAddr
  | .b => serverAddr

def sampleNetwork : Machine (Side → EndpointState) (Side × Event) (Side × Output) :=
  network rfcZephyr (fun _ => plainApp) (fun _ => 3) fun _ => mainResources

def messageArgs (frame : Nat) : PostArgs :=
  coapEndpointPostArgs frame serverAddr (some [[109, 101, 115, 115, 97, 103, 101]]) (some [104, 105]) 2

def messageWire : List UInt8 := (encodePost rfcZephyr (calmEnv 1 0) 0 (messageArgs 0)).2.wire

theorem messageWire_accepted :
    0 ≤ (rfcZephyr.coapPacketParse (rxData messageWire) maxCoapMsgLen maxCoapOptions).1 := by
  have encoded : messageWire = Rfc7252.encode ⟨1, ⟨.con, coapMethodPost, 1, [0, 1, 0, 0, 0, 0, 0, 0]⟩,
      [⟨coapOptionUriPath, [109, 101, 115, 115, 97, 103, 101]⟩], [104, 105]⟩ := by decide +kernel
  rw [encoded]
  exact encode_accepted _ (by decide) (by decide) ⟨by decide, by decide, by decide, trivial⟩ (by decide)

/-- The request as the other side receives it. -/
def messageCopy : PacketRxDataItem := received messageWire clientAddr

def messageResponseWire : List UInt8 :=
  Rfc7252.encodeHeader 1 ⟨.ack, coapResponseCodeCreated, 1, [0, 1, 0, 0, 0, 0, 0, 0]⟩

theorem messageResponseWire_accepted :
    0 ≤ (rfcZephyr.coapPacketParse (rxData messageResponseWire) maxCoapMsgLen maxCoapOptions).1 := by
  rw [messageResponseWire]
  exact encodeHeader_accepted _ (by decide)

def messageResponse : PacketRxDataItem := received messageResponseWire serverAddr

def answeredRun : NetworkConfig :=
  sampleNetwork.run sampleNetwork.start
    [(.a, .post (calmEnv 1 0) (messageArgs 0)), (.a, .transmit (calmEnv 1 5)),
      (.b, .receive (calmEnv 2 6) messageCopy), (.a, .receive (calmEnv 3 9) messageResponse)]

theorem answeredRun_reachable : sampleNetwork.Reachable (delivered rfcZephyr sampleAddr) answeredRun := by
  have request : rfcZephyr.Parsed messageWire messageCopy.packet :=
    received_parsed messageWire clientAddr (by decide +kernel) messageWire_accepted
  have response : rfcZephyr.Parsed messageResponseWire messageResponse.packet :=
    received_parsed messageResponseWire serverAddr (by decide) messageResponseWire_accepted
  apply Machine.reachable_run
  refine ⟨rfl, trivial, ⟨congrArg SockAddr.peer (received_addr _ _), some 0, 3,
      (encodePost rfcZephyr (calmEnv 1 0) 0 (messageArgs 0)).2, serverAddr, ?_, request⟩,
    ⟨congrArg SockAddr.peer (received_addr _ _), none, 3,
      (rfcZephyr.coapPacketInit stackBuffer maxCoapMsgLen 1 .ack [0, 1, 0, 0, 0, 0, 0, 0]
        coapResponseCodeCreated 1).2, clientAddr, ?_, response⟩, trivial⟩
  · decide +kernel
  · decide +kernel

theorem answeredRun_fresh (side : Side) :
    FreshIds rfcZephyr (Machine.entries side answeredRun.log) := by
  cases side
  · exact ⟨by decide +kernel, by decide +kernel⟩
  · exact ⟨by decide +kernel, by decide +kernel⟩

theorem plainApp_settlesOnly : SettlesOnly rfcZephyr plainApp := by
  intro f data err response sent member
  cases member

theorem agreement_created :
    ∃ tx rx, (Side.a, Output.queued tx) ∈ answeredRun.log.take 8 ∧ tx.call = 0 ∧
      rfcZephyr.coapHeaderGetToken messageResponse.packet = rfcZephyr.coapHeaderGetToken tx.packet ∧
      rfcZephyr.coapHeaderGetId messageResponse.packet = rfcZephyr.coapHeaderGetId tx.packet ∧
      (Side.b, Output.received rx) ∈ answeredRun.log.take 8 ∧
      rfcZephyr.Parsed tx.packet.wire rx.packet ∧
      (rfcZephyr.coapHeaderGetCode messageResponse.packet = coapResponseCodeCreated →
        (Side.b, Output.messagePost rx.packet (rfcZephyr.coapPacketGetPayload rx.packet) rx.addr) ∈
          answeredRun.log.take 8) :=
  agreement rfcZephyr_encodes rfcZephyr_parsesBack rfcZephyr_dispatches (fun _ => plainApp_settlesOnly)
    (fun _ => mainResources_served) answeredRun_reachable answeredRun_fresh .a 0 .postHandler
    ⟨0, serverAddr⟩ messageResponse.packet (answeredRun.log.take 8) (answeredRun.log.drop 9)
    (by decide +kernel)

end DtApp.Coap
