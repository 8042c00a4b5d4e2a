import DtApp.Coap.Agreement
import DtApp.Coap.Contract
import DtApp.Coap.Encoding
import DtApp.Coap.Receive

/-!
# What arrives

Between the call of `coap_endpoint_post` on one side and the run of `message_post` on the other stand
the encoders, the network, the zero-filled buffer of `recv_thread`, the parser and the resource
table.
-/
namespace DtApp.Coap

/-! ## When `message_post` runs -/

/-- `message_post` runs for a request that the library has dispatched to it, on its payload. -/
structure RunsMessage (z : Zephyr) (resources : List CoapResource) (rx : PacketRxDataItem)
    (p : CoapPacket) (bytes : List UInt8) (source : SockAddr) : Prop where
  request : isRequest z rx.packet = true
  handled : z.coapHandleRequest rx.packet resources rx.options = .method .messagePost
  packet : p = rx.packet
  payload : bytes = z.coapPacketGetPayload rx.packet
  addr : source = rx.addr

def Output.isMessage : Output → Bool
  | .messagePost .. => true
  | _ => false

variable {z : Zephyr} {app : App}

theorem sendAnswer_noMessage (env : Env) (ep : CoapEndpoint) (packet : CoapPacket) (addr : SockAddr) :
    ∀ o ∈ (sendAnswer env ep packet addr).2, o.isMessage = false := by
  simp [sendAnswer, Output.isMessage]

theorem coapEndpointRespond_noMessage (env : Env) (ep : CoapEndpoint) (request : CoapPacket)
    (code : UInt8) (payload : Option (List UInt8)) (payloadLen : Int) (addr : SockAddr) :
    ∀ o ∈ (coapEndpointRespond z env ep request code payload payloadLen addr).2,
      o.isMessage = false := by
  unfold coapEndpointRespond
  dsimp only
  split
  · simp
  · split
    · simp
    · exact sendAnswer_noMessage env ep _ addr

theorem rejectPacket_noMessage (env : Env) (ep : CoapEndpoint) (rx : PacketRxDataItem) :
    ∀ o ∈ rejectPacket z env ep rx, o.isMessage = false := by
  unfold rejectPacket coapEndpointReset
  split
  · split
    · simp
    · dsimp only
      split
      · simp
      · exact sendAnswer_noMessage env ep _ _
  · simp

theorem invokeHandler_noMessage (env : Env) (ep : CoapEndpoint) (call : Nat) (handler : ResponseHandler)
    (data : HandlerData) (err : Int) (response : Option CoapPacket) :
    ∀ o ∈ invokeHandler z app env ep call handler data err response, o.isMessage = false := by
  have acked : ∀ packet, ∀ o ∈ (coapEndpointAcknowledge z env ep packet data.addr).2,
      o.isMessage = false := by
    intro packet
    unfold coapEndpointAcknowledge
    split
    · simp
    · dsimp only
      split
      · simp
      · exact sendAnswer_noMessage env ep _ _
  intro o member
  rcases List.mem_cons.mp member with rfl | member
  · rfl
  · cases handler with
    | other f =>
      obtain ⟨sent, _, rfl⟩ := List.mem_map.mp member
      rfl
    | postHandler =>
      simp only [postHandler] at member
      split at member
      · rcases List.mem_cons.mp member with rfl | member
        · rfl
        · rw [List.mem_singleton.mp member]
          rfl
      · rcases List.mem_append.mp member with front | last
        · rcases List.mem_cons.mp front with rfl | sent
          · rfl
          · exact acked _ o sent
        · rw [List.mem_singleton.mp last]
          rfl

theorem plain_noMessage {outs : List Output} (plain : ∀ o ∈ outs, o.plain = true) :
    ∀ o ∈ outs, o.isMessage = false := by
  intro o member
  have flag := plain o member
  cases o <;> first | rfl | cases flag

theorem receiveRequest_message (env : Env) (ep : CoapEndpoint) (rx : PacketRxDataItem)
    (request : isRequest z rx.packet = true) {packet : CoapPacket} {payload : List UInt8}
    {addr : SockAddr} (ran : .messagePost packet payload addr ∈ receiveRequest z app env ep rx) :
    RunsMessage z ep.resources rx packet payload addr := by
  have silent : ∀ {code}, Output.messagePost packet payload addr ∉
      (coapEndpointRespond z env ep rx.packet code none 0 rx.addr).2 :=
    fun member => absurd (coapEndpointRespond_noMessage env ep _ _ _ _ _ _ member) (by simp [Output.isMessage])
  have dispatched : .messagePost packet payload addr ∈ (coapHandleRequest z app env ep rx).2 := by
    unfold receiveRequest at ran
    dsimp only at ran
    split at ran
    · exact (List.mem_append.mp ran).resolve_right silent
    · exact ran
  unfold coapHandleRequest at dispatched
  split at dispatched
  · next handled =>
    rcases List.mem_cons.mp dispatched with head | copied
    · cases head
      exact ⟨request, handled, rfl, rfl, rfl⟩
    · rcases List.mem_append.mp copied with fault | sent
      · split at fault <;> simp at fault
      · exact absurd sent silent
  · simp only [otherMethod, List.mem_cons, reduceCtorEq, false_or, List.mem_flatMap] at dispatched
    obtain ⟨answer, _, sent⟩ := dispatched
    exact absurd (coapEndpointRespond_noMessage env ep _ _ _ _ _ _ sent) (by simp [Output.isMessage])
  · cases dispatched

/-- No other step runs it. -/
theorem step_message (s : EndpointState) (event : Event) {packet : CoapPacket} {payload : List UInt8}
    {addr : SockAddr} (ran : .messagePost packet payload addr ∈ (step z app s event).2) :
    ∃ env rx, event = .receive env rx ∧ RunsMessage z s.ep.resources rx packet payload addr := by
  have never : ∀ {outs : List Output}, (∀ o ∈ outs, o.isMessage = false) →
      Output.messagePost packet payload addr ∉ outs :=
    fun silent member => absurd (silent _ member) (by simp [Output.isMessage])
  have handlerOnly : ∀ {env ep call handler data err response freed},
      Output.messagePost packet payload addr ∉
        invokeHandler z app env ep call handler data err response ++ kFree freed := by
    intro env ep call handler data err response freed member
    rcases List.mem_append.mp member with handled | released
    · exact never (invokeHandler_noMessage env ep _ _ _ _ _) handled
    · exact never (plain_noMessage (kFree_plain freed)) released
  cases event with
  | post env args => exact absurd ran (never (plain_noMessage (postStep_plain env s args)))
  | transmit env =>
    simp only [step, transmitStep] at ran
    split at ran
    · cases ran
    · next tx rest _ =>
      dsimp only at ran
      have cases := transmitPacket_cases z app env s.ep tx
      generalize (transmitPacket z app env s.ep tx).1 = ep' at cases
      generalize (transmitPacket z app env s.ep tx).2 = outs at cases ran
      cases cases with
      | dropped => exact absurd ran handlerOnly
      | stored => simp at ran
      | kept | forgotten =>
        rcases List.mem_cons.mp ran with absurd | released
        · cases absurd
        · exact absurd released (never (plain_noMessage (kFree_plain _)))
  | timeout env polledAt =>
    simp only [step, timeoutStep] at ran
    split at ran
    · cases ran
    · next i _ =>
      rcases List.mem_cons.mp ran with absurd | ran
      · cases absurd
      · rcases retransmitPacket_cases z app env s.ep i with ⟨_, _, outs⟩ | ⟨_, _, outs⟩
        · rw [outs] at ran
          exact absurd ran handlerOnly
        · rw [outs] at ran
          simp at ran
  | receive env rx =>
    refine ⟨env, rx, rfl, ?_⟩
    simp only [step, receiveStep, List.mem_cons, reduceCtorEq, false_or] at ran
    have cases := receivePacket_cases z app env s.ep rx
    generalize (receivePacket z app env s.ep rx).1 = ep' at cases
    generalize (receivePacket z app env s.ep rx).2 = outs at cases ran
    cases cases with
    | request request => exact receiveRequest_message env s.ep rx request ran
    | canceled i | completed i => exact absurd ran handlerOnly
    | acknowledged => cases ran
    | answered i => exact absurd ran (never (plain_noMessage (kFree_plain _)))
    | unclaimed | unmatched => exact absurd ran (never (rejectPacket_noMessage env s.ep rx))

/-! ## The resource that a request names -/

/-- `coap_handle_request` looks for a resource by the Uri-Path options that it is given. -/
def Zephyr.Routes (z : Zephyr) : Prop :=
  ∀ p resources options m, z.coapHandleRequest p resources options = .method m →
    ∃ resource ∈ resources, resource.post = some m ∧ resource.path = uriPath options

/-- A path that `recv_thread` has room for, with no empty segment. -/
structure PlainPath (path : List (List UInt8)) : Prop where
  nonempty : path ≠ []
  short : path.length < maxCoapOptions
  segments : [] ∉ path

@[simp] theorem uriPath_pathOptions (segments : List (List UInt8)) :
    uriPath (pathOptions segments) = segments := by
  induction segments with
  | nil => rfl
  | cons segment rest ih =>
    simp only [uriPath, pathOptions] at ih
    simp [uriPath, pathOptions, ih]

theorem pathOptions_append (segments more : List (List UInt8)) :
    pathOptions (segments ++ more) = pathOptions segments ++ pathOptions more :=
  List.map_append

theorem pathOptions_take (segments : List (List UInt8)) (n : Nat) :
    (pathOptions segments).take n = pathOptions (segments.take n) :=
  (List.map_take).symm

theorem lastNumber_pathOptions (segments : List (List UInt8)) (number : Nat) (nonempty : segments ≠ []) :
    Rfc7252.lastNumber number (pathOptions segments) = coapOptionUriPath := by
  induction segments generalizing number with
  | nil => exact absurd rfl nonempty
  | cons segment rest ih =>
    cases rest with
    | nil => rfl
    | cons second rest => exact ih coapOptionUriPath (by simp)

/-- A path that fits is taken whole. -/
theorem PlainPath.take {path segments : List (List UInt8)} (plain : PlainPath path)
    (same : path = segments.take maxCoapOptions) : segments = path := by
  have length := congrArg List.length same
  rw [List.length_take] at length
  have short := plain.short
  rw [same, List.take_of_length_le (by omega)]

/-- With zeros behind it a request still names a resource with a plain path only if the zeros go to
the payload, or there are none. -/
theorem PlainPath.padded {path segments : List (List UInt8)} {h : Header} {payload : List UInt8} {k : Nat}
    (plain : PlainPath path)
    (named : path = uriPath (((⟨1, h, pathOptions segments, payload⟩ : Rfc7252.Message).padded
      k).options.take maxCoapOptions)) :
    segments = path ∧ (payload ≠ [] ∨ k = 0) := by
  by_cases empty : payload = []
  · rw [Rfc7252.Message.padded, if_pos empty] at named
    dsimp only at named
    by_cases root : segments = []
    · -- without a segment the zeros read as options of number zero
      subst root
      have none : uriPath ((List.replicate k ⟨0, []⟩ : List CoapOption).take maxCoapOptions) = [] := by
        simp [uriPath, List.take_replicate, coapOptionUriPath]
      exact absurd (named.trans none) plain.nonempty
    · have zeros : List.replicate k (⟨Rfc7252.lastNumber 0 (pathOptions segments), []⟩ : CoapOption) =
          pathOptions (List.replicate k []) := by
        rw [lastNumber_pathOptions segments 0 root]
        simp [pathOptions]
      rw [zeros, ← pathOptions_append, pathOptions_take, uriPath_pathOptions] at named
      have whole := plain.take named
      have absent := plain.segments
      rw [← whole] at absent
      have zero : k = 0 := by
        by_contra more
        exact absent (List.mem_append_right _ (List.mem_replicate.mpr ⟨more, rfl⟩))
      subst zero
      rw [List.replicate_zero, List.append_nil] at whole
      exact ⟨whole, .inr rfl⟩
  · rw [Rfc7252.Message.padded, if_neg empty] at named
    dsimp only at named
    rw [pathOptions_take, uriPath_pathOptions] at named
    exact ⟨plain.take named, .inl empty⟩

/-! ## What a post puts on the wire -/

/-- An accepted post queues its message, which is as long as the message that was asked for. -/
theorem post_wire (encodes : z.EncodesBytes) (env : Env) (call : Nat) {args : PostArgs}
    (readable : args.Readable) (short : ShortLengths args) {tx : PacketTxDataItem}
    (queued : (coapEndpointPostAsync z env call args).2.1 = some tx) :
    tx.call = call ∧ tx.packet.wire = Rfc7252.encode (postMessage env args) := by
  simp only [coapEndpointPostAsync] at queued
  by_cases buffer : env.calloc 0 = true
  · by_cases item : env.calloc 1 = true
    · simp only [buffer, item, Bool.not_true, Bool.false_eq_true, if_false] at queued
      by_cases failed : (encodePost z env call args).1 < 0
      · rw [if_pos failed] at queued
        cases queued
      · rw [if_neg failed] at queued
        cases queued
        have holds := (encodePost_writes encodes env call args readable).holds (Int.not_lt.mp failed)
        exact ⟨rfl, holds.wire.trans (short.bytes env)⟩
    · simp [buffer, item] at queued
  · simp [buffer] at queued

theorem postStep_queued (env : Env) (s : EndpointState) (args : PostArgs) {tx : PacketTxDataItem}
    (queued : .queued tx ∈ (postStep z env s args).2) :
    (coapEndpointPostAsync z env s.posts args).2.1 = some tx := by
  have released : Output.queued tx ∉ (coapEndpointPostAsync z env s.posts args).2.2 := by
    unfold coapEndpointPostAsync
    split
    · simp
    · split
      · simp
      · dsimp only
        split <;> simp
  simpa [postStep, released] using queued

/-! ## Two endpoints -/

/-- What is posted goes to the other side, can be read, and has lengths of 16 bits. -/
structure Postable (addr : Side → SockAddr) (side : Side) (args : PostArgs) : Prop where
  peer : args.addr.peer = (addr side.other).peer
  readable : args.Readable
  short : ShortLengths args

/-- What is received is what `recv_thread` makes of a datagram of the other side. The network carries
nothing that is longer than its buffer. -/
def arrives (z : Zephyr) (addr : Side → SockAddr) (c : NetworkConfig) (side : Side)
    (rx : PacketRxDataItem) : Prop :=
  rx.addr.peer = (addr side.other).peer ∧
    ∃ request sock q dest, (side.other, Output.sendto request sock q dest) ∈ c.log ∧
      q.wire.length ≤ maxCoapMsgLen ∧ recvThread z true (some (q.wire, rx.addr)) = .queued rx

def carries (z : Zephyr) (addr : Side → SockAddr) (c : NetworkConfig) : Side × Event → Prop
  | (side, .post _ args) => Postable addr side args
  | (side, .receive _ rx) => arrives z addr c side rx
  | _ => True

theorem carries_delivered {addr : Side → SockAddr} {c : NetworkConfig} {e : Side × Event}
    (ok : carries z addr c e) : delivered z addr c e := by
  obtain ⟨side, event⟩ := e
  cases event with
  | post env args => exact ok.peer
  | receive env rx =>
    obtain ⟨source, request, sock, q, dest, sent, fits, queued⟩ := ok
    exact ⟨source, request, sock, q, dest, sent, recvThread_parsed z q.wire rx.addr fits rx queued⟩
  | transmit | timeout => trivial

section network

variable {apps : Side → App} {sock : Side → Int} {resources : Side → List CoapResource}
  {addr : Side → SockAddr} {c : NetworkConfig}

theorem reachable_delivered (reach : (network z apps sock resources).Reachable (carries z addr) c) :
    (network z apps sock resources).Reachable (delivered z addr) c :=
  reach.project id rfl fun _ e ok => .inr ⟨e, carries_delivered ok, rfl⟩

variable (laws : z.Encodes) (encodes : z.EncodesBytes)

include laws encodes in
/-- Every request on the wire is what a post asked for. -/
theorem queued_wire (reach : (network z apps sock resources).Reachable (carries z addr) c)
    {side : Side} {tx : PacketTxDataItem} (queued : (side, Output.queued tx) ∈ c.log) :
    ∃ env args, Postable addr side args ∧ tx.packet.wire = Rfc7252.encode (postMessage env args) := by
  obtain ⟨d, ⟨side', event⟩, reached, ok, _, member⟩ := reach.origin_of_mem queued
  obtain ⟨same, out⟩ := Machine.mem_interleave_step _ _ _ _ _ _ member
  subst side'
  have all := reachable_allPosts laws (Machine.Reachable.at reached side)
  have move := step_refines (apps side) laws (d.state side) event all
  cases move.explained _ out with
  | handler absurd => cases absurd
  | @queued env args =>
    have put := postStep_queued env (d.state side) args out
    exact ⟨env, args, ok, (post_wire encodes env _ ok.readable ok.short put).2⟩

variable (parses : z.ParsesBack) (dispatches : z.Dispatches)
  (handlers : ∀ side, SettlesOnly z (apps side)) (served : ∀ side, Served (resources side))

include laws parses dispatches handlers served in
/-- A request that arrives is one that the other side has queued. -/
theorem arrives_request (reach : (network z apps sock resources).Reachable (carries z addr) c)
    {side : Side} {rx : PacketRxDataItem} (ok : arrives z addr c side rx)
    (request : isRequest z rx.packet = true) :
    ∃ tx, (side.other, Output.queued tx) ∈ c.log ∧ tx.packet.wire.length ≤ maxCoapMsgLen ∧
      recvThread z true (some (tx.packet.wire, rx.addr)) = .queued rx := by
  obtain ⟨_, about, via, q, dest, sent, fits, received⟩ := ok
  have parsed := recvThread_parsed z q.wire rx.addr fits rx received
  have source := reachable_source laws dispatches (handlers side.other) (served side.other)
    (Machine.Reachable.at reach side.other) about via q dest (by simpa [Machine.Config.at] using sent)
  -- an answer is no request
  cases source with
  | request tx queued eq =>
    subst eq
    exact ⟨tx, (Machine.mem_entries _ _ _).mp queued, fits, received⟩
  | empty answer =>
    obtain ⟨h, code, built⟩ := answer
    have read := congrArg Rfc7252.Header.code (parses _ _ _ built _ parsed)
    rw [isRequest, show z.coapHeaderGetCode rx.packet = coapCodeEmpty from read.trans code] at request
    cases request
  | response rx' _ response =>
    obtain ⟨_, code, class_, built, _⟩ := response
    have read : z.coapHeaderGetCode rx.packet = code :=
      congrArg Rfc7252.Header.code (parses _ _ _ built _ parsed)
    rw [isRequest_of_isResponse z rx.packet (by rw [isResponse, read]; exact class_)] at request
    cases request

include laws parses dispatches handlers served in
/-- Every run of `message_post` is for a request that the other side queued before: what it is called
with is what `recv_thread` made of the datagram of that request. -/
theorem message_request (reach : (network z apps sock resources).Reachable (carries z addr) c)
    {pre post : List (Side × Output)} {side : Side} {request : CoapPacket} {payload : List UInt8}
    {source : SockAddr} (split : c.log = pre ++ (side, .messagePost request payload source) :: post) :
    ∃ tx rx, (side.other, Output.queued tx) ∈ pre ∧ tx.packet.wire.length ≤ maxCoapMsgLen ∧
      recvThread z true (some (tx.packet.wire, rx.addr)) = .queued rx ∧
      RunsMessage z (resources side) rx request payload source := by
  obtain ⟨d, ⟨side', event⟩, before, after, reached, ok, _, outs, rfl⟩ := reach.origin split
  have out : (side, Output.messagePost request payload source) ∈
      ((network z apps sock resources).step d.state (side', event)).2 := by
    rw [outs]
    exact List.mem_append_right _ List.mem_cons_self
  obtain ⟨same, ran⟩ := Machine.mem_interleave_step _ _ _ _ _ _ out
  subst side'
  obtain ⟨env, rx, rfl, runs⟩ := step_message (d.state side) event ran
  obtain ⟨tx, queued, fits, received⟩ :=
    arrives_request laws parses dispatches handlers served reached ok runs.request
  have table : (d.state side).ep.resources = resources side :=
    reachable_resources (Machine.Reachable.at reached side)
  rw [table] at runs
  exact ⟨tx, rx, List.mem_append_left _ queued, fits, received, runs⟩

/-- `message_post` ran for a post: one to a path that it serves, on the payload with the zeros that
`recv_thread` had behind it. Without a payload the zeros would have changed the path. -/
structure Ran (resources : List CoapResource) (args : PostArgs) (payload : List UInt8) : Prop where
  served : ∃ resource ∈ resources, resource.post = some .messagePost ∧ resource.path = args.segments
  payload : payload = args.given ++ List.replicate (maxCoapMsgLen - postSize id args) 0
  given : args.given ≠ [] ∨ postSize id args = maxCoapMsgLen

variable {judge : Rfc7252.Message → Bool} (interprets : z.Interprets judge) (routes : z.Routes)
  (plain : ∀ side, ∀ resource ∈ resources side, PlainPath resource.path)

include interprets routes in
/-- What `message_post` is called with, when a post arrives. -/
theorem RunsMessage.ran {table : List CoapResource} {rx : PacketRxDataItem} {request : CoapPacket}
    {payload : List UInt8} {source : SockAddr} (runs : RunsMessage z table rx request payload source)
    (plain : ∀ resource ∈ table, PlainPath resource.path) {env : Env} {args : PostArgs}
    (short : ShortLengths args) {wire : List UInt8} (asked : wire = Rfc7252.encode (postMessage env args))
    (fits : wire.length ≤ maxCoapMsgLen)
    (received : recvThread z true (some (wire, rx.addr)) = .queued rx) : Ran table args payload := by
  have size : wire.length = postSize id args := by rw [asked, postMessage_size]
  have decoded : Rfc7252.decode wire = some (postMessage env args) := by rw [asked, short.decodes]
  have padded := Rfc7252.decode_padded wire _ (maxCoapMsgLen - wire.length) decoded
  rw [← rxData_eq wire fits, size] at padded
  obtain ⟨message, options⟩ := queued_message interprets wire rx.addr fits rx received
  obtain ⟨resource, member, post, named⟩ := routes _ _ _ _ runs.handled
  rw [options _ padded] at named
  obtain ⟨path, present⟩ := (plain resource member).padded named
  have present : args.given ≠ [] ∨ maxCoapMsgLen - postSize id args = 0 := present
  refine ⟨⟨resource, member, post, path.symm⟩, ?_, present.imp id fun full => by omega⟩
  rw [runs.payload, interprets.payload _ _ (message.trans padded), Rfc7252.Message.padded]
  split
  · next empty =>
    have empty : args.given = [] := empty
    rw [present.resolve_left (absurd empty)]
    simp only [List.replicate_zero, List.append_nil]
    rfl
  · rfl

include laws encodes parses dispatches handlers served interprets routes plain in
/-- Every run of `message_post` is for a request that the other side posted before, to a path of the
resource table: it is called with what `recv_thread` makes of the datagram of that request, and sees its
payload with zeros up to the size of the buffer. -/
theorem message_post_payload (reach : (network z apps sock resources).Reachable (carries z addr) c)
    {pre post : List (Side × Output)} {side : Side} {request : CoapPacket} {payload : List UInt8}
    {source : SockAddr} (split : c.log = pre ++ (side, .messagePost request payload source) :: post) :
    ∃ tx env args, (side.other, Output.queued tx) ∈ pre ∧ Postable addr side.other args ∧
      tx.packet.wire = Rfc7252.encode (postMessage env args) ∧
      (∃ rx, recvThread z true (some (tx.packet.wire, source)) = .queued rx ∧ rx.packet = request) ∧
      Ran (resources side) args payload := by
  obtain ⟨tx, rx, queued, fits, received, runs⟩ :=
    message_request laws parses dispatches handlers served reach split
  have earlier : (side.other, Output.queued tx) ∈ c.log := by
    rw [split]
    exact List.mem_append_left _ queued
  obtain ⟨env, args, postable, wire⟩ := queued_wire laws encodes reach earlier
  have ran := runs.ran interprets routes (plain side) postable.short wire fits received
  rw [← runs.addr] at received
  exact ⟨tx, env, args, queued, postable, wire, ⟨rx, received, runs.packet.symm⟩, ran⟩

/-! ## Responses -/

/-- A request of this call was queued. -/
def Output.queues (call : Nat) : Output → Bool
  | .queued tx => tx.call == call
  | _ => false

/-- What a move queues it accepts. -/
theorem Move.countP_queues {v v' : View} {event : Event} {outs : List Output}
    (move : Move z v event outs v') (call : Nat) :
    outs.countP (Output.queues call) ≤ outs.countP (Output.accepts call) := by
  have silent : (∀ env args, event ≠ .post env args) → outs.countP (Output.queues call) = 0 := by
    intro other
    refine List.countP_eq_zero.mpr fun o member => ?_
    cases o with
    | queued tx =>
      obtain ⟨env, args, _, post, _⟩ := move.queues tx member
      exact absurd post (other env args)
    | _ => simp [Output.queues]
  cases move with
  | refused negative released => rcases released with rfl | rfl <;> simp [Output.queues]
  | queued => simp [List.countP_cons, Output.queues, Output.accepts, txItem]
  | idle => exact Nat.le_refl 0
  | _ => exact (silent (by simp)).trans_le (Nat.zero_le _)

/-- A call queues one request. -/
theorem queued_unique (laws : z.Encodes) {sock : Int} {table : List CoapResource}
    {ok : EndpointConfig → Event → Prop} {c : EndpointConfig}
    (reach : (endpoint z app sock table).Reachable ok c) {tx tx' : PacketTxDataItem}
    (first : Output.queued tx ∈ c.log) (second : Output.queued tx' ∈ c.log)
    (same : tx.call = tx'.call) : tx = tx' := by
  have most : c.log.countP (Output.queues tx'.call) ≤ c.log.countP (Output.accepts tx'.call) := by
    apply reachable_invariant laws
      (fun _ log => log.countP (Output.queues tx'.call) ≤ log.countP (Output.accepts tx'.call)) _ _ reach
    · exact Nat.le_refl 0
    · intro v log e outs v' _ move before
      have new := move.countP_queues tx'.call
      simp only [List.countP_append]
      omega
  have once : c.log.countP (Output.queues tx'.call) ≤ 1 := by
    have accepted := accepts_le_returns c.log tx'.call
    rw [reachable_returns laws reach] at accepted
    split at accepted <;> omega
  have eq := Machine.eq_of_countP_le_one once first second (by simp [Output.queues, same])
    (by simp [Output.queues])
  exact Output.queued.inj eq

include laws parses dispatches handlers served in
/-- Behind a response of 2.01 stands a run of `message_post` for the very request, after it was queued. -/
theorem created_source (reach : (network z apps sock resources).Reachable (carries z addr) c)
    (fresh : ∀ side, FreshIds z (Machine.entries side c.log)) {side : Side} {call : Nat}
    {handler : ResponseHandler} {data : HandlerData} {response : CoapPacket}
    (invoked : (side, Output.invoked call handler data 0 (some response)) ∈ c.log)
    (created : z.coapHeaderGetCode response = coapResponseCodeCreated) :
    ∃ tx rx request payload source pre post, tx.call = call ∧
      c.log = pre ++ (side.other, .messagePost request payload source) :: post ∧
      (side, Output.queued tx) ∈ pre ∧ tx.packet.wire.length ≤ maxCoapMsgLen ∧
      recvThread z true (some (tx.packet.wire, rx.addr)) = .queued rx ∧
      RunsMessage z (resources side.other) rx request payload source := by
  have back : side.other.other = side := by cases side <;> rfl
  obtain ⟨d, ⟨side', event⟩, reached, ok, leads, out⟩ := reach.origin_of_mem invoked
  obtain ⟨same, called⟩ := Machine.mem_interleave_step _ _ _ _ _ _ out
  subst side'
  have kept : ∀ o ∈ d.log, o ∈ c.log := fun o member =>
    leads.log_prefix.subset (List.mem_append_left _ member)
  -- the response came from the other side, and answers a request of this one
  have below := Machine.Reachable.at reached side
  have move := step_refines (apps side) laws (d.state side) event (reachable_allPosts laws below)
  obtain ⟨env, rx, e, rfl, member, rfl, matched, isResponse_, rfl⟩ := move.answered called
  obtain ⟨tx, queued, of⟩ := (reachable_origins laws below).table e member
  obtain ⟨tx', rx', queued', token, id, _, copy, ran⟩ :=
    response_source laws parses dispatches handlers served (reachable_delivered reached) side env rx
      (carries_delivered ok) isResponse_
  -- the run of `message_post` that 2.01 stands for
  obtain ⟨pre, post, split⟩ := List.append_of_mem (kept _ (ran created))
  obtain ⟨tx'', rx'', before, fits, received, runs⟩ :=
    message_request laws parses dispatches handlers served reach split
  rw [back] at before
  have queued : (side, Output.queued tx) ∈ c.log := kept _ ((Machine.mem_entries _ _ _).mp queued)
  have queued' := kept _ queued'
  have queued'' : (side, Output.queued tx'') ∈ c.log := by
    rw [split]
    exact List.mem_append_left _ before
  have unique : ∀ {one two : PacketTxDataItem}, (side, Output.queued one) ∈ c.log →
      (side, Output.queued two) ∈ c.log → z.coapHeaderGetId one.packet = z.coapHeaderGetId two.packet ∨
        z.coapHeaderGetToken one.packet = z.coapHeaderGetToken two.packet → one = two :=
    fun one two => (fresh side).unique ((Machine.mem_entries _ _ _).mpr one)
      ((Machine.mem_entries _ _ _).mpr two)
  have first : tx = tx' := by
    have ids := ((matchesInflight_iff z rx e).mp matched).2
    rw [of.packet, id, token] at ids
    exact unique queued queued' ids
  -- a copy has the header of what was posted
  have header : ∀ {one : PacketTxDataItem}, (side, Output.queued one) ∈ c.log → ∀ {p},
      z.Parsed one.packet.wire p → z.header p = z.header one.packet := by
    intro one member p parsed
    have origins := reachable_origins laws (Machine.Reachable.at reach side)
    obtain ⟨_, _, built⟩ := (origins.posted one ((Machine.mem_entries _ _ _).mpr member)).1
    rw [parses _ _ _ built _ parsed, (laws.header _ _ _ built).1]
  have second : tx' = tx'' := by
    have one := header queued' copy
    have two := header queued'' (recvThread_parsed z _ _ fits rx'' received)
    rw [← runs.packet, one] at two
    exact unique queued' queued'' (.inl (congrArg Rfc7252.Header.id two))
  subst first second
  exact ⟨tx, rx'', _, _, _, pre, post, of.call.symm, split, before, fits, received, runs⟩

end network

/-! ## A post that arrives -/

theorem rfcZephyr_routes : rfcZephyr.Routes := by
  intro p resources options m handled
  simp only [rfcZephyr] at handled
  split at handled
  · cases handled
  · next resource found =>
    have named := List.find?_some found
    split at handled
    · split at handled <;> cases handled
      exact ⟨resource, List.mem_of_find?_eq_some found, by assumption, by simpa using named⟩
    · cases handled

theorem mainResources_plain : ∀ resource ∈ mainResources, PlainPath resource.path := by
  intro resource member
  rw [List.mem_singleton.mp member]
  exact ⟨by decide, by decide, by decide⟩

theorem received_queued (datagram : List UInt8) (addr : SockAddr)
    (fine : 0 ≤ (rfcZephyr.coapPacketParse (rxData datagram) maxCoapMsgLen maxCoapOptions).1) :
    recvThread rfcZephyr true (some (datagram, (received datagram addr).addr)) =
      .queued (received datagram addr) := by
  have queued := (recvThread_eq_queued rfcZephyr datagram addr _).mpr ⟨fine, rfl⟩
  rw [received_addr, received, queued]

theorem messageArgs_postable (frame : Nat) : Postable sampleAddr .a (messageArgs frame) := by
  have lengths : ShortLengths (messageArgs 0) := ⟨by decide, by decide⟩
  refine ⟨rfl, ?_, ⟨lengths.path, lengths.payload⟩⟩
  rintro bytes ⟨⟩
  exact Int.le_refl 2

/-- The request of `messageArgs`, and the response of 2.01. -/
theorem messageCopy_arrives (c : NetworkConfig) (frame : Nat)
    (sent : (.a, .sendto (some frame) 3 (encodePost rfcZephyr (calmEnv 1 0) frame (messageArgs frame)).2
      serverAddr) ∈ c.log)
    (wire : (encodePost rfcZephyr (calmEnv 1 0) frame (messageArgs frame)).2.wire = messageWire) :
    arrives rfcZephyr sampleAddr c .b messageCopy := by
  refine ⟨congrArg SockAddr.peer (received_addr _ _), _, _, _, _, sent, ?_⟩
  rw [wire]
  exact ⟨by decide +kernel, received_queued messageWire clientAddr messageWire_accepted⟩

theorem messageResponse_arrives (c : NetworkConfig)
    (sent : (.b, .sendto none 3 (rfcZephyr.coapPacketInit stackBuffer maxCoapMsgLen 1 .ack
      [0, 1, 0, 0, 0, 0, 0, 0] coapResponseCodeCreated 1).2 clientAddr) ∈ c.log) :
    arrives rfcZephyr sampleAddr c .a messageResponse :=
  ⟨congrArg SockAddr.peer (received_addr _ _), _, _, _, _, sent, by decide +kernel,
    received_queued messageResponseWire serverAddr messageResponseWire_accepted⟩

def postedRun : NetworkConfig :=
  sampleNetwork.run sampleNetwork.start
    [(.a, .post (calmEnv 1 0) (messageArgs 0)), (.a, .transmit (calmEnv 1 5)),
      (.b, .receive (calmEnv 2 6) messageCopy)]

theorem postedRun_reachable : sampleNetwork.Reachable (carries rfcZephyr sampleAddr) postedRun := by
  apply Machine.reachable_run
  exact ⟨messageArgs_postable 0, trivial, messageCopy_arrives _ 0 (by decide +kernel) rfl, trivial⟩

theorem message_post_payload_posted :
    ∃ tx env args, (Side.a, Output.queued tx) ∈ postedRun.log.take 5 ∧ Postable sampleAddr .a args ∧
      tx.packet.wire = Rfc7252.encode (postMessage env args) ∧
      (∃ rx, recvThread rfcZephyr true (some (tx.packet.wire, messageCopy.addr)) = .queued rx ∧
        rx.packet = messageCopy.packet) ∧
      Ran mainResources args (rfcZephyr.coapPacketGetPayload messageCopy.packet) :=
  have split : postedRun.log = postedRun.log.take 5 ++
      (.b, .messagePost messageCopy.packet (rfcZephyr.coapPacketGetPayload messageCopy.packet)
        messageCopy.addr) :: postedRun.log.drop 6 := by decide +kernel
  message_post_payload rfcZephyr_encodes rfcZephyr_encodesBytes rfcZephyr_parsesBack
    rfcZephyr_dispatches (fun _ => plainApp_settlesOnly) (fun _ => mainResources_served)
    rfcZephyr_interprets rfcZephyr_routes (fun _ => mainResources_plain) postedRun_reachable split

/-! ## Calls on both sides -/

/-- The network with the threads that call `coap_endpoint_post`. -/
def callNetwork (z : Zephyr) (apps : Side → App) (sock : Side → Int)
    (resources : Side → List CoapResource) :
    Machine (Side → CallersState) (Side × CallersEvent) (Side × CallersOutput) :=
  .interleave fun side => callers z (apps side) (sock side) (resources side)

abbrev CallNetworkConfig := Machine.Config (Side → CallersState) (Side × CallersOutput)

def endpointEntry : Side × CallersOutput → Option (Side × Output)
  | (side, .endpoint o) => some (side, o)
  | (_, .returned ..) => none

/-- The endpoints below the calls. -/
def CallNetworkConfig.endpoints (c : CallNetworkConfig) : NetworkConfig :=
  ⟨fun side => (c.state side).endpoint, c.log.filterMap endpointEntry⟩

def carriesCalls (z : Zephyr) (addr : Side → SockAddr) (c : CallNetworkConfig) :
    Side × CallersEvent → Prop
  | (side, .post _ dest path payload payloadLen) =>
    Postable addr side (coapEndpointPostArgs (c.state side).endpoint.posts dest path payload payloadLen)
  | (side, .receive _ rx) => arrives z addr c.endpoints side rx
  | _ => True

/-- What a step of the calls is for the endpoint. -/
def CallersEvent.endpoint (s : CallersState) : CallersEvent → Option Event
  | .post env dest path payload payloadLen =>
    some (.post env (coapEndpointPostArgs s.endpoint.posts dest path payload payloadLen))
  | .transmit env => some (.transmit env)
  | .timeout env polledAt => some (.timeout env polledAt)
  | .receive env rx => some (.receive env rx)
  | .take _ | .leave _ => none

@[simp] theorem endpointEntry_endpoint (side : Side) (outs : List Output) :
    ((outs.map CallersOutput.endpoint).map (Prod.mk side)).filterMap endpointEntry =
      outs.map (Prod.mk side) := by
  induction outs with
  | nil => rfl
  | cons o outs ih => simpa [endpointEntry] using ih

section calls

variable {apps : Side → App} {sock : Side → Int} {resources : Side → List CoapResource}
  {addr : Side → SockAddr} {c d : CallNetworkConfig}

variable (z app) in
theorem callersStep_endpoint (s : CallersState) {e : CallersEvent} {event : Event}
    (is : e.endpoint s = some event) :
    (callersStep z app s e).1.endpoint = (step z app s.endpoint event).1 ∧
      (callersStep z app s e).2 = (step z app s.endpoint event).2.map .endpoint := by
  cases e with
  | take | leave => cases is
  | post | transmit | timeout | receive =>
    cases is
    exact ⟨rfl, rfl⟩

variable (z app) in
theorem callersStep_silent (s : CallersState) {e : CallersEvent} (is : e.endpoint s = none) (side : Side) :
    (callersStep z app s e).1.endpoint = s.endpoint ∧
      ((callersStep z app s e).2.map (Prod.mk side)).filterMap endpointEntry = [] := by
  cases e with
  | take call =>
    simp only [callersStep, kSemTake]
    split <;> exact ⟨rfl, rfl⟩
  | leave call =>
    simp only [callersStep, leave]
    split <;> exact ⟨rfl, rfl⟩
  | post | transmit | timeout | receive => cases is

theorem CallNetworkConfig.endpoints_state (c : CallNetworkConfig) (side : Side) (s : CallersState) :
    (fun other => (Function.update c.state side s other).endpoint) =
      Function.update c.endpoints.state side s.endpoint := by
  funext other
  exact Function.apply_update (fun _ s => s.endpoint) c.state side s other

theorem callNetwork_step (c : CallNetworkConfig) (side : Side) {e : CallersEvent} {event : Event}
    (is : e.endpoint (c.state side) = some event) :
    CallNetworkConfig.endpoints ((callNetwork z apps sock resources).next c (side, e)) =
      (network z apps sock resources).next c.endpoints (side, event) := by
  obtain ⟨state, outs⟩ := callersStep_endpoint z (apps side) (c.state side) is
  simp only [CallNetworkConfig.endpoints, Machine.next, callNetwork, network, Machine.interleave,
    callers, endpoint, c.endpoints_state, state, outs, List.filterMap_append, endpointEntry_endpoint]

theorem callNetwork_silent (c : CallNetworkConfig) (side : Side) {e : CallersEvent}
    (is : e.endpoint (c.state side) = none) :
    CallNetworkConfig.endpoints ((callNetwork z apps sock resources).next c (side, e)) = c.endpoints := by
  obtain ⟨state, silent⟩ := callersStep_silent z (apps side) (c.state side) is side
  have same : Function.update c.endpoints.state side (c.state side).endpoint = c.endpoints.state :=
    Function.update_eq_self side c.endpoints.state
  simp only [CallNetworkConfig.endpoints, Machine.next, callNetwork, Machine.interleave, callers,
    c.endpoints_state, state, List.filterMap_append, silent, List.append_nil]
  exact congrArg (Machine.Config.mk · _) same

/-- Seen from the endpoints, the calls are posts. -/
theorem callNetwork_network (reach : (callNetwork z apps sock resources).Reachable (carriesCalls z addr) c) :
    (network z apps sock resources).Reachable (carries z addr) c.endpoints := by
  apply reach.project CallNetworkConfig.endpoints rfl
  rintro c ⟨side, e⟩ ok
  cases e with
  | take | leave => exact .inl (callNetwork_silent c side rfl)
  | post | receive | transmit | timeout =>
    refine .inr ⟨(side, _), ?_, callNetwork_step c side rfl⟩
    exact ok

theorem endpoints_at (c : CallNetworkConfig) (side : Side) :
    Machine.entries side c.endpoints.log = endpointLog (Machine.entries side c.log) := by
  simp only [Machine.entries, endpointLog, CallNetworkConfig.endpoints, List.filterMap_filterMap]
  congr 1
  funext entry
  obtain ⟨side', o⟩ := entry
  cases o <;> by_cases same : side' = side <;> simp [endpointEntry, same]

theorem endpointEntry_eq_some (entry : Side × CallersOutput) (side : Side) (o : Output) :
    endpointEntry entry = some (side, o) ↔ entry = (side, .endpoint o) := by
  obtain ⟨side', o'⟩ := entry
  cases o' <;> simp [endpointEntry]

/-- What the endpoints put out stands in the log of the calls, in the same order. -/
theorem endpoints_split {pre post : List (Side × Output)} {side : Side} {o : Output}
    (split : c.endpoints.log = pre ++ (side, o) :: post) :
    ∃ before after, c.log = before ++ (side, .endpoint o) :: after ∧ before.filterMap endpointEntry = pre := by
  obtain ⟨first, second, whole, front, back⟩ := List.filterMap_eq_append_iff.mp split
  obtain ⟨between, entry, after, rest, silent, here, _⟩ := List.filterMap_eq_cons_iff.mp back
  rw [endpointEntry_eq_some] at here
  subst here rest
  refine ⟨first ++ between, after, ?_, ?_⟩
  · rw [whole, List.append_assoc]
  · rw [List.filterMap_append, front, List.filterMap_eq_nil_iff.mpr silent, List.append_nil]

/-- A call returns 2.01 for a response of 2.01 to its request. -/
theorem returned_created (laws : z.Encodes) {sock : Int} {table : List CoapResource} {c : CallersConfig}
    (reach : (callers z app sock table).Reachable anyCall c) {call : Nat}
    (returned : CallersOutput.returned call coapResponseCodeCreated.toNat ∈ c.log) :
    ∃ data response, Output.invoked call .postHandler data 0 (some response) ∈ endpointLog c.log ∧
      z.coapHeaderGetCode response = coapResponseCodeCreated ∧
      Output.posted call .postHandler data 0 ∈ endpointLog c.log := by
  have below := callers_endpoint reach
  obtain ⟨pre, post, split⟩ := List.append_of_mem returned
  have kept : endpointLog pre ⊆ endpointLog c.log := by
    rw [split, endpointLog_append]
    exact List.subset_append_left _ _
  have value : (coapResponseCodeCreated.toNat : Int) = 65 := by decide
  rw [value] at split
  cases returned_settled laws reach split with
  | refused data failed posted =>
    -- a refusal returns no positive number
    obtain ⟨d, event, reached, _, _, new⟩ := below.origin_of_mem (kept posted)
    have move := step_refines app laws d.state event (reachable_allPosts laws reached)
    have negative := move.posted_nonpos new
    omega
  | handled handled =>
    obtain ⟨data, err, response, posted, _, invoked, eq⟩ := handled
    have member := kept invoked
    obtain ⟨before, after, at_⟩ := List.append_of_mem member
    obtain ⟨d, outs, reached, _, invokes⟩ := invoked_origin laws below at_
    obtain ⟨tx, _, _, _, _, reported⟩ := invokes.reported laws reached
    generalize d.log ++ outs = history at reported
    cases reported with
    | timedOut | canceled | noMemory => simp [result, eagain, enomem, ecanceled] at eq
    | answered log rx =>
      refine ⟨data, rx.packet, member, ?_, kept posted⟩
      have number : (z.coapHeaderGetCode rx.packet).toNat = coapResponseCodeCreated.toNat := by
        simp only [result, ne_eq, not_true_eq_false, if_false, Option.getD_some] at eq
        omega
      exact UInt8.toNat_inj.mp number

variable (laws : z.Encodes) (encodes : z.EncodesBytes)

include laws encodes in
/-- A call queues what it asked for, or fails. -/
theorem call_queued {side : Side} {env : Env} {dest : SockAddr} {path : Option (List (List UInt8))}
    {payload : Option (List UInt8)} {payloadLen : Int}
    (ok : carriesCalls z addr d (side, .post env dest path payload payloadLen)) :
    let args := coapEndpointPostArgs (d.state side).endpoint.posts dest path payload payloadLen
    let log := (CallNetworkConfig.endpoints ((callNetwork z apps sock resources).next d
      (side, .post env dest path payload payloadLen))).log
    (∃ tx, tx.call = (d.state side).endpoint.posts ∧ (side, Output.queued tx) ∈ log ∧
      tx.packet.wire = Rfc7252.encode (postMessage env args)) ∨
    ∃ handler data ret, ret ≠ 0 ∧
      (side, Output.posted (d.state side).endpoint.posts handler data ret) ∈ log := by
  intro args log
  have stepped : log = _ := congrArg Machine.Config.log (callNetwork_step d side rfl)
  rw [stepped]
  have new : ∀ o, o ∈ (postStep z env (d.state side).endpoint args).2 →
      (side, o) ∈ ((network z apps sock resources).next d.endpoints (side, .post env args)).log :=
    fun o member => List.mem_append_right _ (List.mem_map_of_mem member)
  rcases coapEndpointPostAsync_cases z env laws (d.state side).endpoint.posts args with
    ⟨packet, built, put⟩ | ⟨err, freed, negative, _, put⟩
  · left
    obtain ⟨own, wire⟩ := post_wire encodes env (d.state side).endpoint.posts ok.readable ok.short
      (congrArg (·.2.1) put)
    exact ⟨_, own, new _ (by simp [postStep, put]), wire⟩
  · right
    exact ⟨args.responseHandler, args.responseHandlerData, err, by omega, new _ (by simp [postStep, put])⟩

variable (parses : z.ParsesBack) (dispatches : z.Dispatches)
  (handlers : ∀ side, SettlesOnly z (apps side)) (served : ∀ side, Served (resources side))
  {judge : Rfc7252.Message → Bool} (interprets : z.Interprets judge) (routes : z.Routes)
  (plain : ∀ side, ∀ resource ∈ resources side, PlainPath resource.path)

include laws encodes parses dispatches handlers served interprets routes plain in
/-- When a call returns 2.01, `message_post` ran on the other side for that very call, after it was made:
on what `recv_thread` makes of the datagram of the request that the call queued, for the path that it asked
for, and on its payload with zeros behind it. A call without a payload only returns 2.01 if its message
fills the buffer. -/
theorem created_delivered {side : Side} {env : Env} {dest : SockAddr}
    {path : Option (List (List UInt8))} {payload : Option (List UInt8)} {payloadLen : Int}
    (reach : (callNetwork z apps sock resources).Reachable (carriesCalls z addr) d)
    (ok : carriesCalls z addr d (side, .post env dest path payload payloadLen))
    (leads : (callNetwork z apps sock resources).Leads (carriesCalls z addr)
      ((callNetwork z apps sock resources).next d (side, .post env dest path payload payloadLen)) c)
    (fresh : ∀ side, FreshIds z (Machine.entries side c.endpoints.log))
    (returned : (side, CallersOutput.returned (d.state side).endpoint.posts
      coapResponseCodeCreated.toNat) ∈ c.log) :
    ∃ tx request bytes source before after,
      c.log = before ++ (side.other, .endpoint (.messagePost request bytes source)) :: after ∧
      (side, .endpoint (.queued tx)) ∈ before ∧ tx.call = (d.state side).endpoint.posts ∧
      (∃ rx, recvThread z true (some (tx.packet.wire, source)) = .queued rx ∧ rx.packet = request) ∧
      Ran (resources side.other)
        (coapEndpointPostArgs (d.state side).endpoint.posts dest path payload payloadLen) bytes := by
  have later := leads.reachable (reach.next ok)
  have whole := callNetwork_network later
  have here := Machine.Reachable.at whole side
  have inLog : ∀ {o}, o ∈ Machine.entries side c.endpoints.log → (side, o) ∈ c.endpoints.log :=
    fun member => (Machine.mem_entries _ _ _).mp member
  obtain ⟨data, response, invoked, created, posted⟩ := returned_created laws
    (Machine.Reachable.at later side) ((Machine.mem_entries _ _ _).mpr returned)
  change _ ∈ endpointLog (Machine.entries side c.log) at invoked posted
  rw [← endpoints_at] at invoked posted
  -- what the call queued is what was answered
  have kept : ∀ o, (side, o) ∈ (CallNetworkConfig.endpoints ((callNetwork z apps sock resources).next d
      (side, .post env dest path payload payloadLen))).log → o ∈ Machine.entries side c.endpoints.log :=
    fun o member => (Machine.mem_entries _ _ _).mpr ((leads.log_prefix.filterMap _).subset member)
  rcases call_queued laws encodes ok with ⟨tx, own, queued, wire⟩ | ⟨handler, data', ret, failed, refused⟩
  · obtain ⟨tx', rx, request, bytes, source, pre, post, own', split, queued', fits, received, runs⟩ :=
      created_source laws parses dispatches handlers served whole fresh (inLog invoked) created
    have earlier : (side, Output.queued tx') ∈ c.endpoints.log := by
      rw [split]
      exact List.mem_append_left _ queued'
    have same : tx' = tx := queued_unique laws here ((Machine.mem_entries _ _ _).mpr earlier)
      (kept _ queued) (own'.trans own.symm)
    subst same
    obtain ⟨before, after, log, front⟩ := endpoints_split split
    have first : (side, .endpoint (.queued tx')) ∈ before := by
      rw [← front] at queued'
      obtain ⟨entry, member, eq⟩ := List.mem_filterMap.mp queued'
      rwa [(endpointEntry_eq_some entry side _).mp eq] at member
    have ran := runs.ran interprets routes (plain side.other) ok.short wire fits received
    rw [← runs.addr] at received
    exact ⟨tx', request, bytes, source, before, after, log, first, own', ⟨rx, received, runs.packet.symm⟩, ran⟩
  · exact absurd (posted_unique laws here (kept _ refused) posted).2.2 failed

end calls

def sampleCalls : Machine (Side → CallersState) (Side × CallersEvent) (Side × CallersOutput) :=
  callNetwork rfcZephyr (fun _ => plainApp) (fun _ => 3) fun _ => mainResources

/-- A call that posts to the resource of the other side. -/
def messageCall (id : UInt16) : Side × CallersEvent :=
  (.a, .post (calmEnv id 0) serverAddr (some [[109, 101, 115, 115, 97, 103, 101]]) (some [104, 105]) 2)

/-- The datagram of a first call is lost. -/
def lostCall : CallNetworkConfig :=
  sampleCalls.run sampleCalls.start [messageCall 2, (.a, .transmit (calmEnv 3 3))]

/-- A second call for the same is answered. -/
def answeredCalls : CallNetworkConfig :=
  sampleCalls.run (sampleCalls.next lostCall (messageCall 1))
    [(.a, .transmit (calmEnv 3 5)), (.b, .receive (calmEnv 2 6) messageCopy),
      (.a, .receive (calmEnv 3 9) messageResponse), (.a, .take 1), (.a, .leave 1)]

theorem lostCall_reachable : sampleCalls.Reachable (carriesCalls rfcZephyr sampleAddr) lostCall := by
  apply Machine.reachable_run
  exact ⟨messageArgs_postable 0, trivial, trivial⟩

theorem answeredCalls_led : sampleCalls.Leads (carriesCalls rfcZephyr sampleAddr)
    (sampleCalls.next lostCall (messageCall 1)) answeredCalls := by
  apply Machine.leads_run
  exact ⟨trivial, messageCopy_arrives _ 1 (by decide +kernel) (by decide +kernel), messageResponse_arrives _ (by decide +kernel),
    trivial, trivial, trivial⟩

theorem answeredCalls_fresh (side : Side) :
    FreshIds rfcZephyr (Machine.entries side answeredCalls.endpoints.log) := by
  cases side
  · exact ⟨by decide +kernel, by decide +kernel⟩
  · exact ⟨by decide +kernel, by decide +kernel⟩

theorem created_delivered_answered :
    ∃ tx request bytes source before after,
      answeredCalls.log = before ++ (.b, .endpoint (.messagePost request bytes source)) :: after ∧
      (.a, .endpoint (.queued tx)) ∈ before ∧ tx.call = 1 ∧
      (∃ rx, recvThread rfcZephyr true (some (tx.packet.wire, source)) = .queued rx ∧ rx.packet = request) ∧
      Ran mainResources (messageArgs 1) bytes :=
  have returned : (Side.a, CallersOutput.returned 1 coapResponseCodeCreated.toNat) ∈ answeredCalls.log := by
    decide +kernel
  created_delivered rfcZephyr_encodes rfcZephyr_encodesBytes rfcZephyr_parsesBack rfcZephyr_dispatches
    (fun _ => plainApp_settlesOnly) (fun _ => mainResources_served) rfcZephyr_interprets rfcZephyr_routes
    (fun _ => mainResources_plain) (d := lostCall) lostCall_reachable (messageArgs_postable 1)
    answeredCalls_led answeredCalls_fresh returned

end DtApp.Coap
