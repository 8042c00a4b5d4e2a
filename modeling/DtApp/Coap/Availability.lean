import DtApp.Coap.Delivery
import DtApp.Coap.Responses
import DtApp.Coap.Waiting

/-!
# Requests that can still be answered

Whether a request can be answered with 2.01 is settled when it is posted. While both sides receive, no
state that they come to keeps it from being answered: with memory, and a network that delivers, the
requests before it in `tx_fifo` are transmitted, `message_post` runs for it on the other side, and the
response completes it.
-/
namespace DtApp.Coap

variable {z : Zephyr}

/-- In the search of `coap_handle_request`, the first resource with the path decides. -/
def Zephyr.Finds (z : Zephyr) : Prop :=
  ∀ p resources options m, z.coapHeaderGetCode p = coapMethodPost →
    (z.coapHandleRequest p resources options = .method m ↔
      ∃ resource, (resources.find? fun resource => resource.path == uriPath options) = some resource ∧
        resource.post = some m)

/-- The other side serves the path with `message_post`, and the request is still one for this path
with the zeros behind it. -/
structure Answerable (resources : List CoapResource) (args : PostArgs) : Prop where
  served : ∃ resource, (resources.find? fun resource => resource.path == args.segments) = some resource ∧
    resource.post = some .messagePost
  fits : postSize id args ≤ maxCoapMsgLen
  given : args.given ≠ [] ∨ postSize id args = maxCoapMsgLen

/-! ## The request on the other side -/

/-- Without a change by the zeros the options are those of the path. -/
theorem padded_options {env : Env} {args : PostArgs} {k : Nat} (present : args.given ≠ [] ∨ k = 0) :
    ((postMessage env args).padded k).options = pathOptions args.segments := by
  rw [Rfc7252.Message.padded]
  split
  · next empty =>
    have none : k = 0 := present.resolve_left (absurd empty)
    subst none
    exact List.append_nil _
  · rfl

section dispatch

variable {judge : Rfc7252.Message → Bool} (interprets : z.Interprets judge) (finds : z.Finds)

include interprets finds in
/-- A post that was received is for `message_post` exactly when it can be answered. -/
theorem dispatched_iff {table : List CoapResource} (plain : ∀ resource ∈ table, PlainPath resource.path)
    {env : Env} {args : PostArgs} (short : ShortLengths args) (fits : postSize id args ≤ maxCoapMsgLen)
    {rx : PacketRxDataItem} (code : z.coapHeaderGetCode rx.packet = coapMethodPost)
    (received : recvThread z true (some (Rfc7252.encode (postMessage env args), rx.addr)) = .queued rx) :
    z.coapHandleRequest rx.packet table rx.options = .method .messagePost ↔ Answerable table args := by
  have size := postMessage_size env args
  have within : (Rfc7252.encode (postMessage env args)).length ≤ maxCoapMsgLen := by rwa [size]
  have padded := Rfc7252.decode_padded _ _ (maxCoapMsgLen - postSize id args) (short.decodes env)
  rw [← size, ← rxData_eq _ within, size] at padded
  have options := (queued_message interprets _ rx.addr within rx received).2 _ padded
  rw [finds _ _ _ _ code, options]
  constructor
  · rintro ⟨resource, found, post⟩
    have named := List.find?_some found
    rw [beq_iff_eq] at named
    obtain ⟨path, present⟩ := (plain resource (List.mem_of_find?_eq_some found)).padded named
    rw [← named, ← path] at found
    exact ⟨⟨resource, found, post⟩, fits, present.imp id fun full => by omega⟩
  · rintro ⟨⟨resource, found, post⟩, _, given⟩
    have path := List.find?_some found
    rw [beq_iff_eq] at path
    have few := (plain resource (List.mem_of_find?_eq_some found)).short
    rw [path] at few
    -- the path fits the options that `recv_thread` has room for
    have whole : args.segments.take maxCoapOptions = args.segments := List.take_of_length_le (by omega)
    rw [padded_options (given.imp id fun full => by omega), pathOptions_take, whole, uriPath_pathOptions]
    exact ⟨resource, found, post⟩

end dispatch

/-! ## What is in flight was sent -/

theorem Move.sent {v v' : View} {event : Event} {outs log : List Output} (laws : z.Encodes)
    (all : v.AllPosts z) (move : Move z v event outs v')
    (sent : ∀ e ∈ v.table, ∃ sock, Output.sendto (some e.call) sock e.packet e.addr ∈ log) :
    ∀ e ∈ v'.table, ∃ sock, Output.sendto (some e.call) sock e.packet e.addr ∈ log ++ outs := by
  have older : ∀ e ∈ v.table, ∃ sock, Output.sendto (some e.call) sock e.packet e.addr ∈ log ++ outs :=
    fun e member => (sent e member).imp fun _ old => List.mem_append_left _ old
  intro e member
  cases move.remains e member with
  | kept old => exact older e old
  | @resent _ _ e old => exact older e old
  | @acknowledged _ _ e old => exact older e old
  | @stored env tx waiting =>
    have of := InflightPacket.Of.con env ((all.queue tx waiting).header laws).1
    cases move with
    | idle => exact older _ member
    | dropped => exact older _ member
    | @stored _ tx' queue table posts sock =>
      rcases Multiset.mem_cons.mp member with same | old
      · have of' := InflightPacket.Of.con env ((all.queue tx' List.mem_cons_self).header laws).1
        rw [same, of'.call, of'.packet, of'.addr]
        exact ⟨sock, by simp⟩
      · exact older _ old

theorem reachable_sent (laws : z.Encodes) {app : App} {sock : Int} {resources : List CoapResource}
    {ok : EndpointConfig → Event → Prop} {c : EndpointConfig}
    (reach : (endpoint z app sock resources).Reachable ok c) (e : InflightPacket)
    (member : e ∈ c.state.ep.inflight.items) :
    ∃ sock, Output.sendto (some e.call) sock e.packet e.addr ∈ c.log := by
  have all : ∀ e ∈ c.state.view.table,
      ∃ sock, Output.sendto (some e.call) sock e.packet e.addr ∈ c.log := by
    apply reachable_invariant laws
      (fun v log => ∀ e ∈ v.table, ∃ sock, Output.sendto (some e.call) sock e.packet e.addr ∈ log) _ _ reach
    · exact fun _ absurd => by simp at absurd
    · exact fun v log event outs v' all move before => move.sent laws all before
  exact all e (Multiset.mem_coe.mpr member)

section network

variable {apps : Side → App} {sock : Side → Int} {resources : Side → List CoapResource}
  {addr : Side → SockAddr} {c d : NetworkConfig}

/-! ## Continuations without new requests -/

variable (apps sock resources) in
theorem next_state_self (c : NetworkConfig) (side : Side) (event : Event) :
    ((network z apps sock resources).next c (side, event)).state side =
      (step z (apps side) (c.state side) event).1 :=
  Function.update_self _ _ _

variable (apps sock resources) in
theorem next_state_other (c : NetworkConfig) {side side' : Side} (different : side' ≠ side)
    (event : Event) : ((network z apps sock resources).next c (side, event)).state side' = c.state side' :=
  Function.update_of_ne different _ _

variable (apps sock resources) in
theorem mem_next (c : NetworkConfig) (side : Side) (event : Event) {o : Output}
    (out : o ∈ (step z (apps side) (c.state side) event).2) :
    (side, o) ∈ ((network z apps sock resources).next c (side, event)).log :=
  List.mem_append_right _ (List.mem_map_of_mem out)

variable (z apps sock resources addr) in
/-- A run goes on without a request that is queued. -/
structure Follows (c d : NetworkConfig) : Prop where
  leads : (network z apps sock resources).Leads (carries z addr) c d
  requests : ∀ side, requests (Machine.entries side d.log) = requests (Machine.entries side c.log)

theorem Follows.trans {d' : NetworkConfig} (first : Follows z apps sock resources addr c d)
    (second : Follows z apps sock resources addr d d') : Follows z apps sock resources addr c d' :=
  ⟨first.leads.trans second.leads, fun side => (second.requests side).trans (first.requests side)⟩

theorem Follows.refl (c : NetworkConfig) : Follows z apps sock resources addr c c := ⟨.refl, fun _ => rfl⟩

theorem Follows.fresh (follows : Follows z apps sock resources addr c d)
    (fresh : ∀ side, FreshIds z (Machine.entries side c.log)) (side : Side) :
    FreshIds z (Machine.entries side d.log) := by
  have same := follows.requests side
  exact ⟨by rw [same]; exact (fresh side).ids, by rw [same]; exact (fresh side).tokens⟩

theorem Follows.kept (follows : Follows z apps sock resources addr c d) {entry : Side × Output}
    (member : entry ∈ c.log) : entry ∈ d.log := follows.leads.log_prefix.subset member

variable (laws : z.Encodes)

include laws in
/-- A step that is no post. -/
theorem follows_next (reach : (network z apps sock resources).Reachable (carries z addr) c) (side : Side)
    (event : Event) (ok : carries z addr c (side, event)) (noPost : ∀ env args, event ≠ .post env args) :
    Follows z apps sock resources addr c ((network z apps sock resources).next c (side, event)) := by
  have move := step_refines (apps side) laws (c.state side) event
    (reachable_allPosts laws (Machine.Reachable.at reach side))
  have none : requests (step z (apps side) (c.state side) event).2 = [] := by
    refine List.eq_nil_iff_forall_not_mem.mpr fun tx member => ?_
    obtain ⟨env, args, _, post, _⟩ := move.queues tx ((mem_requests _ _).mp member)
    exact noPost env args post
  refine ⟨.single ⟨(side, event), ok, rfl⟩, fun side' => ?_⟩
  have log : ((network z apps sock resources).next c (side, event)).log =
      c.log ++ (step z (apps side) (c.state side) event).2.map (Prod.mk side) := rfl
  rw [log, Machine.entries_append]
  by_cases same : side' = side
  · subst same
    rw [Machine.entries_map_self]
    simp only [requests, List.filterMap_append] at none ⊢
    rw [none, List.append_nil]
  · rw [Machine.entries_map_other _ _ (Ne.symm same), List.append_nil]

/-! ## Transmission -/

/-- With memory the first request of `tx_fifo` gets in flight. -/
theorem transmitStep_con (app : App) {s : EndpointState} {tx : PacketTxDataItem}
    {rest : List PacketTxDataItem} (queue : s.txFifo = tx :: rest)
    (con : z.coapHeaderGetType tx.packet = .con) :
    (step z app s (.transmit (calmEnv 0 0))).1 =
      { s with ep := { s.ep with inflight := s.ep.inflight.push (fillInflight z (calmEnv 0 0) tx) },
               txFifo := rest } := by
  simp only [step, transmitStep, queue, transmitPacket_con z app (calmEnv 0 0) s.ep tx con]
  rfl

include laws in
theorem transmits_first (reach : (network z apps sock resources).Reachable (carries z addr) c) {side : Side}
    {tx : PacketTxDataItem} {rest : List PacketTxDataItem} (queue : (c.state side).txFifo = tx :: rest) :
    ∃ d, Follows z apps sock resources addr c d ∧ (d.state side).txFifo = rest ∧
      ∃ e ∈ (d.state side).ep.inflight.items, e.Of tx := by
  have all := reachable_allPosts laws (Machine.Reachable.at reach side)
  have first : tx ∈ (c.state side).txFifo := by rw [queue]; exact List.mem_cons_self
  have con := ((all.queue tx first).header laws).1
  have stored := transmitStep_con (apps side) queue con
  have follows := follows_next laws reach side (.transmit (calmEnv 0 0)) trivial (by simp)
  refine ⟨_, follows, ?_, fillInflight z (calmEnv 0 0) tx, ?_, .con _ con⟩
  · rw [next_state_self apps sock resources, stored]
  · rw [next_state_self apps sock resources, stored]
    simp

include laws in
/-- The requests before one in `tx_fifo` can be transmitted, and then it can. -/
theorem transmits (reach : (network z apps sock resources).Reachable (carries z addr) c) {side : Side}
    {tx : PacketTxDataItem} (waiting : tx ∈ (c.state side).txFifo) :
    ∃ d, Follows z apps sock resources addr c d ∧ ∃ e ∈ (d.state side).ep.inflight.items, e.Of tx := by
  obtain ⟨before, after, queue⟩ := List.append_of_mem waiting
  clear waiting
  induction before generalizing c with
  | nil =>
    obtain ⟨d, follows, _, entry⟩ := transmits_first laws reach queue
    exact ⟨d, follows, entry⟩
  | cons first before ih =>
    obtain ⟨d, follows, queue', _⟩ := transmits_first laws reach queue
    obtain ⟨d', later, entry⟩ := ih (follows.leads.reachable reach) queue'
    exact ⟨d', follows.trans later, entry⟩

/-! ## Request and response -/

variable (parses : z.ParsesBack) {judge : Rfc7252.Message → Bool} (interprets : z.Interprets judge)
  (accepts : ∀ m, m.version = 1 → judge m = true)

include interprets accepts in
/-- What one side has sent can arrive, if it is a message of version 1 and fits the buffer. -/
theorem arrives_sent {side : Side} {request : Option Nat} {via : Int} {q : CoapPacket} {dest : SockAddr}
    (sent : (side.other, Output.sendto request via q dest) ∈ c.log) (fits : q.wire.length ≤ maxCoapMsgLen)
    {m : Rfc7252.Message} (decoded : Rfc7252.decode q.wire = some m) (version : m.version = 1) :
    ∃ rx, rx.addr = addr side.other ∧ arrives z addr c side rx ∧
      recvThread z true (some (q.wire, rx.addr)) = .queued rx := by
  have padded := Rfc7252.decode_padded _ _ (maxCoapMsgLen - q.wire.length) decoded
  rw [← rxData_eq _ fits] at padded
  have formed : WellFormed judge (rxData q.wire) :=
    ⟨_, padded, accepts _ ((m.padded_version _).trans version)⟩
  obtain ⟨rx, received⟩ := (queued_iff interprets q.wire (addr side.other) fits).mpr formed
  have source : rx.addr = addr side.other := by
    obtain ⟨_, rfl⟩ := (recvThread_eq_queued z _ _ rx).mp received
    rfl
  rw [← source] at received
  exact ⟨rx, source, ⟨congrArg SockAddr.peer source, request, via, q, dest, sent, fits, received⟩, received⟩

/-- What `message_post` was called for is answered with 2.01. -/
theorem receivePacket_created (laws : z.Encodes) (encodes : z.EncodesBytes) (app : App) (env : Env)
    (ep : CoapEndpoint) {rx : PacketRxDataItem} (request : isRequest z rx.packet = true)
    (con : z.coapHeaderGetType rx.packet = .con)
    (handled : z.coapHandleRequest rx.packet ep.resources rx.options = .method .messagePost) :
    ∃ q, Output.sendto none ep.sock q rx.addr ∈ (receivePacket z app env ep rx).2 ∧
      z.Built (responseHeader z rx.packet coapResponseCodeCreated) none q ∧
      q.wire = Rfc7252.encode (responseMessage z rx.packet coapResponseCodeCreated []) ∧
      q.wire.length ≤ maxCoapMsgLen := by
  have respondable : Respondable z rx.packet := ⟨.inl con, laws.token _⟩
  have writes := encodeResponse_writes encodes respondable coapResponseCodeCreated payloadArgs_none
  have size := responseMessage_size z rx.packet coapResponseCodeCreated payloadArgs_none
  have fine : 0 ≤ (encodeResponse z rx.packet coapResponseCodeCreated none 0).1 := by
    have short := respondable.token
    simp only [responseSize, Option.isSome_none, Bool.false_eq_true, false_and, if_false] at size
    rw [writes.fits, List.length_nil, maxCoapMsgLen]
    omega
  have holds := writes.holds fine
  have sent : Output.sendto none ep.sock (encodeResponse z rx.packet coapResponseCodeCreated none 0).2
      rx.addr ∈ (coapEndpointRespond z env ep rx.packet coapResponseCodeCreated none 0 rx.addr).2 := by
    rw [coapEndpointRespond_eq]
    simp only [if_neg (Int.not_lt.mpr fine), sendAnswer, List.mem_singleton]
  have built := (coapEndpointRespond_built env laws ep rx.packet coapResponseCodeCreated none 0 rx.addr
    (laws.codes _ (by simp [usedCodes])) _ _ ((mem_sends_iff _ _ _).mpr ⟨_, _, sent⟩)).2
  have called : coapHandleRequest z app env ep rx = messagePost z env ep rx.packet rx.addr := by
    rw [coapHandleRequest, handled]
  refine ⟨_, ?_, built, holds.wire, ?_⟩
  · rw [receivePacket, if_pos request]
    simp only [receiveRequest, called, messagePost]
    simp [sent]
  · rw [holds.wire]
    exact holds.fits

include laws in
/-- A request goes to the other side. -/
theorem queued_peer (reach : (network z apps sock resources).Reachable (carries z addr) c) {side : Side}
    {tx : PacketTxDataItem} (queued : (side, Output.queued tx) ∈ c.log) :
    tx.addr.peer = (addr side.other).peer := by
  obtain ⟨d, ⟨side', event⟩, reached, ok, _, member⟩ := reach.origin_of_mem queued
  obtain ⟨same, out⟩ := Machine.mem_interleave_step _ _ _ _ _ _ member
  subst side'
  have move := step_refines (apps side) laws (d.state side) event
    (reachable_allPosts laws (Machine.Reachable.at reached side))
  obtain ⟨env, args, packet, rfl, rfl, _⟩ := move.queues tx out
  exact ok.peer

include laws in
/-- A response with the token of a request in flight completes it. -/
theorem step_completes (reach : (network z apps sock resources).Reachable (carries z addr) c)
    (fresh : ∀ side, FreshIds z (Machine.entries side c.log)) {side : Side} {tx : PacketTxDataItem}
    (queued : (side, Output.queued tx) ∈ c.log) {e : InflightPacket}
    (inflight : e ∈ (c.state side).ep.inflight.items) (of : e.Of tx) (env : Env) {rx : PacketRxDataItem}
    (source : rx.addr = addr side.other) (response : isResponse z rx.packet = true)
    (notReset : z.coapHeaderGetType rx.packet ≠ .reset)
    (token : z.coapHeaderGetToken rx.packet = z.coapHeaderGetToken tx.packet)
    (id : z.coapHeaderGetId rx.packet = z.coapHeaderGetId tx.packet) :
    Output.invoked tx.call tx.responseHandler tx.responseHandlerData 0 (some rx.packet) ∈
      (step z (apps side) (c.state side) (.receive env rx)).2 := by
  have here := Machine.Reachable.at reach side
  have only : OnlyFor z (c.state side).ep rx e := by
    refine ⟨?_, ?_, fun e' member different _ => ?_⟩
    · rw [SameAddr, of.addr, source]
      exact queued_peer laws reach queued
    · rw [SameToken, of.packet, token]
    · -- another entry is of another request, with another token and another id
      obtain ⟨tx', queued', of'⟩ := (reachable_origins laws here).table e' (Multiset.mem_coe.mpr member)
      have unique := fun same => (fresh side).unique ((Machine.mem_entries _ _ _).mpr queued) queued' same
      have apart : tx ≠ tx' := by
        rintro rfl
        exact different (entries_unique laws here e e' inflight member (of'.call.trans of.call.symm))
      rw [SameToken, SameId, of'.packet, token, id]
      exact ⟨fun same => apart (unique (.inr same.symm)), fun same => apart (unique (.inl same.symm))⟩
  have calls := (response_completes (apps side) env (c.state side).ep rx e inflight response notReset
    only).1
  simp only [step, receiveStep]
  apply List.mem_cons_of_mem
  rw [← mem_handlerCalls, calls, of.call, of.handler, of.data]
  exact List.mem_singleton_self _

/-- The handler of a request was given a response of 2.01. -/
def Created (z : Zephyr) (c : NetworkConfig) (side : Side) (tx : PacketTxDataItem) : Prop :=
  ∃ response, (side, Output.invoked tx.call tx.responseHandler tx.responseHandlerData 0
    (some response)) ∈ c.log ∧ z.coapHeaderGetCode response = coapResponseCodeCreated

variable (encodes : z.EncodesBytes) (finds : z.Finds)
  (plain : ∀ side, ∀ resource ∈ resources side, PlainPath resource.path)

include laws parses interprets accepts finds plain in
/-- A request in flight that can be answered can reach `message_post` on the other side. -/
theorem request_arrives (reach : (network z apps sock resources).Reachable (carries z addr) c)
    {side : Side} {tx : PacketTxDataItem} (queued : (side, Output.queued tx) ∈ c.log) {e : InflightPacket}
    (inflight : e ∈ (c.state side).ep.inflight.items) (of : e.Of tx) {env : Env} {args : PostArgs}
    (short : ShortLengths args) (asked : tx.packet.wire = Rfc7252.encode (postMessage env args))
    (answerable : Answerable (resources side.other) args) :
    ∃ rx, arrives z addr c side.other rx ∧ z.header rx.packet = z.header tx.packet ∧
      z.coapHandleRequest rx.packet (c.state side.other).ep.resources rx.options =
        .method .messagePost := by
  have here := Machine.Reachable.at reach side
  have back : side.other.other = side := by cases side <;> rfl
  obtain ⟨id, token, post⟩ := ((reachable_origins laws here).posted tx
    ((Machine.mem_entries _ _ _).mpr queued)).1
  obtain ⟨via, sent⟩ := reachable_sent laws here e inflight
  have sent : (side.other.other, Output.sendto (some e.call) via e.packet e.addr) ∈ c.log := by
    rw [back]
    exact (Machine.mem_entries _ _ _).mp sent
  rw [of.packet] at sent
  have fits : tx.packet.wire.length ≤ maxCoapMsgLen := by
    rw [asked, postMessage_size]
    exact answerable.fits
  have decoded : Rfc7252.decode tx.packet.wire = some (postMessage env args) := by
    rw [asked, short.decodes]
  obtain ⟨rx, _, ok, received⟩ := arrives_sent interprets accepts sent fits decoded rfl
  have header := parses _ _ _ post _ (recvThread_parsed z _ _ fits rx received)
  rw [asked] at received
  have table : (c.state side.other).ep.resources = resources side.other :=
    reachable_resources (Machine.Reachable.at reach side.other)
  refine ⟨rx, ok, header.trans (laws.header _ _ _ post).1.symm, ?_⟩
  rw [table]
  exact (dispatched_iff interprets finds (plain side.other) short answerable.fits (code_of_header header)
    received).mpr answerable

variable (apps sock resources addr) in
include laws encodes parses interprets accepts in
/-- The response of 2.01 can reach the side that made the request. -/
theorem response_arrives {side : Side} {rx : PacketRxDataItem}
    (request : isRequest z rx.packet = true) (con : z.coapHeaderGetType rx.packet = .con)
    (handled : z.coapHandleRequest rx.packet (c.state side.other).ep.resources rx.options =
      .method .messagePost) :
    ∃ rx', rx'.addr = addr side.other ∧
      arrives z addr ((network z apps sock resources).next c (side.other, .receive (calmEnv 0 0) rx))
        side rx' ∧
      z.header rx'.packet = responseHeader z rx.packet coapResponseCodeCreated := by
  obtain ⟨q, out, built, wire, fits⟩ := receivePacket_created laws encodes (apps side.other) (calmEnv 0 0)
    _ request con handled
  have sent := mem_next apps sock resources c side.other (.receive (calmEnv 0 0) rx)
    (List.mem_cons_of_mem _ out)
  have decoded : Rfc7252.decode q.wire = some (responseMessage z rx.packet coapResponseCodeCreated []) := by
    rw [wire]
    exact Rfc7252.decode_encode _ (show 1 < 4 by decide) (laws.token _) trivial
  obtain ⟨rx', source, ok, received⟩ := arrives_sent interprets accepts sent fits decoded rfl
  exact ⟨rx', source, ok, parses _ _ _ built _ (recvThread_parsed z _ _ fits rx' received)⟩

include laws encodes parses interprets accepts finds plain in
/-- A request in flight that can be answered is, once it and the response arrive. -/
theorem inflight_created (reach : (network z apps sock resources).Reachable (carries z addr) c)
    (fresh : ∀ side, FreshIds z (Machine.entries side c.log)) {side : Side} {tx : PacketTxDataItem}
    (queued : (side, Output.queued tx) ∈ c.log) {e : InflightPacket}
    (inflight : e ∈ (c.state side).ep.inflight.items) (of : e.Of tx) {env : Env} {args : PostArgs}
    (short : ShortLengths args) (asked : tx.packet.wire = Rfc7252.encode (postMessage env args))
    (answerable : Answerable (resources side.other) args) :
    ∃ d, Follows z apps sock resources addr c d ∧ Created z d side tx := by
  have apart : side ≠ side.other := by cases side <;> decide
  have post := ((reachable_origins laws (Machine.Reachable.at reach side)).posted tx
    ((Machine.mem_entries _ _ _).mpr queued)).1
  obtain ⟨rx, ok, header, handled⟩ := request_arrives laws parses interprets accepts finds plain reach
    queued inflight of short asked answerable
  have type := (type_of_header header).trans (post.header laws).1
  have request : isRequest z rx.packet = true := (isRequest_of_header header).trans (post.isRequest laws)
  obtain ⟨rx', source, ok', header'⟩ := response_arrives apps sock resources addr laws parses interprets
    accepts encodes request type handled
  have follows := follows_next laws reach side.other (.receive (calmEnv 0 0) rx) ok (by simp)
  have reach' := follows.leads.reachable reach
  simp only [Zephyr.header, Rfc7252.Header.mk.injEq] at header
  simp only [Zephyr.header, responseHeader, Rfc7252.Header.mk.injEq, respondType, type] at header'
  have response : isResponse z rx'.packet = true := by
    rw [isResponse, header'.2.1]
    decide
  have invoked := step_completes laws reach' (follows.fresh fresh) (follows.kept queued)
    (by rwa [next_state_other apps sock resources c apart]) of (calmEnv 0 0) source response
    (by rw [header'.1]; decide) (header'.2.2.2.trans header.2.2.2) (header'.2.2.1.trans header.2.2.1)
  have answered := follows_next laws reach' side (.receive (calmEnv 0 0) rx') ok' (by simp)
  exact ⟨_, follows.trans answered, rx'.packet, mem_next apps sock resources _ _ _ invoked, header'.2.1⟩

/-! ## Which requests can be answered -/

include laws in
/-- A request that was accepted and whose handler was not called is in `tx_fifo` or in flight. -/
theorem waiting_place (reach : (network z apps sock resources).Reachable (carries z addr) c) {side : Side}
    {tx : PacketTxDataItem} (queued : (side, Output.queued tx) ∈ c.log)
    (waiting : ∀ handler data err response,
      (side, Output.invoked tx.call handler data err response) ∉ c.log) :
    tx ∈ (c.state side).txFifo ∨ ∃ e ∈ (c.state side).ep.inflight.items, e.Of tx := by
  have here := Machine.Reachable.at reach side
  have queued := (Machine.mem_entries side (.queued tx) c.log).mpr queued
  have origins := reachable_origins laws here
  have conserved := reachable_conserves laws here tx.call
  have accepted := accepts_eq laws here (origins.posted tx queued).2
  have uncalled : (Machine.Config.at c side).log.countP (Output.invokes tx.call) = 0 := by
    refine List.countP_eq_zero.mpr fun o member => ?_
    cases o with
    | invoked call handler data err response =>
      simp only [Output.invokes, beq_iff_eq]
      rintro rfl
      exact waiting handler data err response ((Machine.mem_entries _ _ _).mp member)
    | _ => simp [Output.invokes]
  rw [if_pos rfl] at accepted
  by_cases fifo : 0 < queuedFor tx.call (Machine.Config.at c side).state.view.queue
  · obtain ⟨tx', member, same⟩ := List.countP_pos_iff.mp fifo
    have eq := queued_unique laws here (origins.queue tx' member) queued (by simpa using same)
    subst eq
    exact .inl member
  · have table : 0 < inflightFor tx.call (Machine.Config.at c side).state.view.table := by omega
    obtain ⟨e, member, same⟩ := Multiset.countP_pos.mp table
    obtain ⟨tx', queued', of⟩ := origins.table e member
    have eq := queued_unique laws here queued' queued (of.call.symm.trans same)
    subst eq
    exact .inr ⟨e, Multiset.mem_coe.mp member, of⟩

variable (dispatches : z.Dispatches) (handlers : ∀ side, SettlesOnly z (apps side))
  (served : ∀ side, Served (resources side))

include laws parses interprets finds plain dispatches handlers served in
/-- Only a request that can be answered is answered with 2.01. -/
theorem created_answerable (reach : (network z apps sock resources).Reachable (carries z addr) c)
    (fresh : ∀ side, FreshIds z (Machine.entries side c.log)) {side : Side} {tx : PacketTxDataItem}
    (queued : (side, Output.queued tx) ∈ c.log) {env : Env} {args : PostArgs} (short : ShortLengths args)
    (asked : tx.packet.wire = Rfc7252.encode (postMessage env args)) (created : Created z c side tx) :
    Answerable (resources side.other) args := by
  obtain ⟨response, invoked, code⟩ := created
  have here := Machine.Reachable.at reach side
  have queued := (Machine.mem_entries side (.queued tx) c.log).mpr queued
  obtain ⟨tx', rx, _, _, _, pre, post, own, split, before, fits, received, runs⟩ :=
    created_source laws parses dispatches handlers served reach fresh invoked code
  have queued' : (side, Output.queued tx') ∈ c.log := by
    rw [split]
    exact List.mem_append_left _ before
  have eq := queued_unique laws here ((Machine.mem_entries _ _ _).mpr queued') queued own
  subst eq
  obtain ⟨_, _, post⟩ := ((reachable_origins laws here).posted _ queued).1
  have header := parses _ _ _ post _ (recvThread_parsed z _ _ fits rx received)
  rw [asked] at received fits
  rw [postMessage_size] at fits
  exact (dispatched_iff interprets finds (plain side.other) short fits (code_of_header header) received).mp
    runs.handled

include laws parses interprets accepts encodes finds plain dispatches handlers served in
/-- A waiting request can still be answered with 2.01, with ids and tokens that stay fresh, exactly
when the other side serves its path, and it fits the buffer with a payload or fills it without one. What
happened before, and how many requests wait, does not matter. -/
theorem created_possible_iff (reach : (network z apps sock resources).Reachable (carries z addr) c)
    (fresh : ∀ side, FreshIds z (Machine.entries side c.log)) {side : Side} {tx : PacketTxDataItem}
    (queued : (side, Output.queued tx) ∈ c.log)
    (waiting : ∀ handler data err response,
      (side, Output.invoked tx.call handler data err response) ∉ c.log)
    {env : Env} {args : PostArgs} (short : ShortLengths args)
    (asked : tx.packet.wire = Rfc7252.encode (postMessage env args)) :
    (∃ d, (network z apps sock resources).Leads (carries z addr) c d ∧
        (∀ side, FreshIds z (Machine.entries side d.log)) ∧ Created z d side tx) ↔
      Answerable (resources side.other) args := by
  constructor
  · rintro ⟨d, leads, fresh', created⟩
    exact created_answerable laws parses interprets finds plain dispatches handlers served
      (leads.reachable reach) fresh' (leads.log_prefix.subset queued) short asked created
  · intro answerable
    -- first it is transmitted, unless it is in flight already
    obtain ⟨d, follows, e, inflight, of⟩ : ∃ d, Follows z apps sock resources addr c d ∧
        ∃ e ∈ (d.state side).ep.inflight.items, e.Of tx := by
      rcases waiting_place laws reach queued waiting with fifo | entry
      · exact transmits laws reach fifo
      · exact ⟨c, .refl c, entry⟩
    obtain ⟨d', later, created⟩ := inflight_created laws parses interprets accepts encodes finds plain
      (follows.leads.reachable reach) (follows.fresh fresh) (follows.kept queued) inflight of short asked
      answerable
    have whole := follows.trans later
    exact ⟨d', whole.leads, whole.fresh fresh, created⟩

end network

/-! ## A request that waits -/

theorem rfcZephyr_finds : rfcZephyr.Finds := by
  intro p resources options m code
  have raw : (Rfc7252.header p.bytes).code = coapMethodPost := by
    simp only [rfcZephyr] at code
    split at code
    · exact code
    · cases code
  simp only [rfcZephyr, raw, if_true]
  constructor
  · intro handled
    split at handled
    · cases handled
    · next resource found =>
      split at handled
      · next m' post =>
        cases handled
        exact ⟨resource, found, post⟩
      · cases handled
  · rintro ⟨resource, found, post⟩
    rw [found]
    simp only [post]

/-- A request in `tx_fifo`, behind another one. -/
def waitingRun : NetworkConfig :=
  sampleNetwork.run sampleNetwork.start
    [(.a, .post (calmEnv 7 0) (messageArgs 0)), (.a, .post (calmEnv 1 0) (messageArgs 0))]

def waitingItem : PacketTxDataItem :=
  txItem 1 (messageArgs 0) (encodePost rfcZephyr (calmEnv 1 0) 1 (messageArgs 0)).2

theorem waitingRun_reachable : sampleNetwork.Reachable (carries rfcZephyr sampleAddr) waitingRun := by
  apply Machine.reachable_run
  exact ⟨messageArgs_postable 0, messageArgs_postable 0, trivial⟩

theorem waitingRun_fresh (side : Side) : FreshIds rfcZephyr (Machine.entries side waitingRun.log) := by
  cases side
  · exact ⟨by decide +kernel, by decide +kernel⟩
  · exact ⟨by decide +kernel, by decide +kernel⟩

theorem messageArgs_answerable : Answerable mainResources (messageArgs 0) where
  served := ⟨_, rfl, rfl⟩
  fits := by decide
  given := .inl (by decide)

theorem created_possible_waiting :
    ∃ d, sampleNetwork.Leads (carries rfcZephyr sampleAddr) waitingRun d ∧
      (∀ side, FreshIds rfcZephyr (Machine.entries side d.log)) ∧ Created rfcZephyr d .a waitingItem :=
  have uncalled : ∀ entry ∈ waitingRun.log, Output.invokes 1 entry.2 = false := by decide +kernel
  have asked : waitingItem.packet.wire = Rfc7252.encode (postMessage (calmEnv 1 0) (messageArgs 0)) := by
    decide +kernel
  (created_possible_iff rfcZephyr_encodes rfcZephyr_parsesBack rfcZephyr_interprets (fun _ _ => rfl)
    rfcZephyr_encodesBytes rfcZephyr_finds (fun _ => mainResources_plain) rfcZephyr_dispatches
    (fun _ => plainApp_settlesOnly) (fun _ => mainResources_served) waitingRun_reachable waitingRun_fresh
    (by decide +kernel) (fun _ _ _ _ invoked => Bool.noConfusion (uncalled _ invoked))
    (messageArgs_postable 0).short asked).mpr messageArgs_answerable

end DtApp.Coap
