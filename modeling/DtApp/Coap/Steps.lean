import DtApp.Coap.Thread

/-!
# What each step can do

One lemma for each function of the endpoint says every way it can go, with its guards. The
properties of runs are derived from these and never unfold a function of the source.
-/
namespace DtApp.Coap

variable (z : Zephyr) (app : App) (env : Env)

/-! ## Outputs of handlers -/

/-- Outputs that answering a packet and running a handler can produce. They are about no
request of this endpoint. -/
def Output.fromHandler : Output → Bool
  | .sendto none _ _ _ | .messagePost .. | .otherMethod .. | .ret .. | .semGive _ | .fault => true
  | _ => false

/-- Every output of the list is a handler's. -/
def Quiet (outs : List Output) : Prop := ∀ o ∈ outs, o.fromHandler = true

theorem quiet_append (xs ys : List Output) : Quiet (xs ++ ys) ↔ Quiet xs ∧ Quiet ys :=
  List.forall_mem_append

theorem quiet_cons (o : Output) (outs : List Output) :
    Quiet (o :: outs) ↔ o.fromHandler = true ∧ Quiet outs :=
  List.forall_mem_cons

theorem Quiet.handler {outs : List Output} (quiet : Quiet outs) (frame : Nat) (value : Int) :
    Quiet (.ret frame value :: outs ++ [.semGive frame]) := by
  rw [List.cons_append, quiet_cons, quiet_append]
  exact ⟨rfl, quiet, by simp [Quiet, Output.fromHandler]⟩

/-! ## Answers -/

/-- A property of every answer that the encoders build on the stack. -/
structure Zephyr.BuildsAnswers (P : CoapPacket → Prop) : Prop where
  init : ∀ maxLen type token code id, 0 ≤ (z.coapPacketInit stackBuffer maxLen 1 type token code id).1 →
    P (z.coapPacketInit stackBuffer maxLen 1 type token code id).2
  marker : ∀ p, P p → 0 ≤ (z.coapPacketAppendPayloadMarker p).1 → P (z.coapPacketAppendPayloadMarker p).2
  payload : ∀ p bytes, P p → 0 ≤ (z.coapPacketAppendPayload p bytes).1 →
    P (z.coapPacketAppendPayload p bytes).2

theorem Zephyr.buildsAnswers_true : z.BuildsAnswers fun _ => True :=
  ⟨fun _ _ _ _ _ _ => trivial, fun _ _ _ => trivial, fun _ _ _ _ => trivial⟩

/-- Outputs that answering a packet can produce, the answers with the property. -/
inductive IsAnswer (P : CoapPacket → Prop) : Output → Prop
  | sent (sock : Int) (packet : CoapPacket) (addr : SockAddr) : P packet →
      IsAnswer P (.sendto none sock packet addr)
  | message (request : CoapPacket) (payload : List UInt8) (addr : SockAddr) :
      IsAnswer P (.messagePost request payload addr)
  | method (f : Nat) (request : CoapPacket) (addr : SockAddr) : IsAnswer P (.otherMethod f request addr)
  | fault : IsAnswer P .fault

def Answering (P : CoapPacket → Prop) (outs : List Output) : Prop := ∀ o ∈ outs, IsAnswer P o

variable {P : CoapPacket → Prop}

theorem Answering.quiet {outs : List Output} (answering : Answering P outs) : Quiet outs := by
  intro o member
  cases answering o member <;> rfl

theorem Answering.sendto {outs : List Output} (answering : Answering P outs) {sock : Int}
    {packet : CoapPacket} {addr : SockAddr} (sent : .sendto none sock packet addr ∈ outs) : P packet := by
  cases answering _ sent with
  | sent _ _ _ holds => exact holds

theorem answering_nil : Answering P [] := by simp [Answering]

theorem answering_append (xs ys : List Output) :
    Answering P (xs ++ ys) ↔ Answering P xs ∧ Answering P ys :=
  List.forall_mem_append

theorem answering_cons (o : Output) (outs : List Output) :
    Answering P (o :: outs) ↔ IsAnswer P o ∧ Answering P outs :=
  List.forall_mem_cons

theorem sendAnswer_answering (ep : CoapEndpoint) (packet : CoapPacket) (addr : SockAddr) (holds : P packet) :
    Answering P (sendAnswer env ep packet addr).2 :=
  (answering_cons _ _).mpr ⟨.sent _ _ _ holds, answering_nil⟩

/-- What the two encoders of a payload keep, appending one keeps. -/
theorem appendPayload_keeps (P : CoapPacket → Prop)
    (marker : ∀ p, P p → 0 ≤ (z.coapPacketAppendPayloadMarker p).1 →
      P (z.coapPacketAppendPayloadMarker p).2)
    (append : ∀ p bytes, P p → 0 ≤ (z.coapPacketAppendPayload p bytes).1 →
      P (z.coapPacketAppendPayload p bytes).2)
    (packet : CoapPacket) (payload : Option (List UInt8)) (payloadLen : Int) (holds : P packet)
    (fine : 0 ≤ (appendPayload z packet payload payloadLen).1) :
    P (appendPayload z packet payload payloadLen).2 := by
  cases payload with
  | none => exact holds
  | some bytes =>
    simp only [appendPayload] at fine ⊢
    by_cases present : payloadLen > 0
    · rw [if_pos present] at fine ⊢
      split at fine
      · next failed => exact absurd fine (by omega)
      · next marked =>
        rw [if_neg marked]
        exact append _ _ (marker packet holds (by omega)) fine
    · rw [if_neg present]
      exact holds

section answers

variable {z}
variable (builds : z.BuildsAnswers P)

include builds

theorem coapEndpointAcknowledge_answering (ep : CoapEndpoint) (packet : CoapPacket) (addr : SockAddr) :
    Answering P (coapEndpointAcknowledge z env ep packet addr).2 := by
  unfold coapEndpointAcknowledge
  split
  · exact answering_nil
  · dsimp only
    split
    · exact answering_nil
    · next fine => exact sendAnswer_answering env ep _ addr (builds.init _ _ _ _ _ (Int.not_lt.mp fine))

theorem coapEndpointReset_answering (ep : CoapEndpoint) (packet : CoapPacket) (addr : SockAddr) :
    Answering P (coapEndpointReset z env ep packet addr).2 := by
  unfold coapEndpointReset
  split
  · exact answering_nil
  · dsimp only
    split
    · exact answering_nil
    · next fine => exact sendAnswer_answering env ep _ addr (builds.init _ _ _ _ _ (Int.not_lt.mp fine))

theorem coapEndpointRespond_answering (ep : CoapEndpoint) (request : CoapPacket) (code : UInt8)
    (payload : Option (List UInt8)) (payloadLen : Int) (addr : SockAddr) :
    Answering P (coapEndpointRespond z env ep request code payload payloadLen addr).2 := by
  unfold coapEndpointRespond
  dsimp only
  split
  · exact answering_nil
  · next started =>
    split
    · exact answering_nil
    · next fine =>
      have init := builds.init _ _ _ _ _ (Int.not_lt.mp started)
      exact sendAnswer_answering env ep _ addr
        (appendPayload_keeps z P builds.marker builds.payload _ _ _ init (Int.not_lt.mp fine))

theorem messagePost_answering (ep : CoapEndpoint) (request : CoapPacket) (addr : SockAddr) :
    Answering P (messagePost z env ep request addr).2 := by
  have responded :=
    coapEndpointRespond_answering env builds ep request coapResponseCodeCreated none 0 addr
  simp only [messagePost, answering_append, List.cons_append, answering_cons]
  refine ⟨.message _ _ _, ?_, responded⟩
  split
  · exact answering_nil
  · exact (answering_cons _ _).mpr ⟨.fault, answering_nil⟩

theorem otherMethod_answering (ep : CoapEndpoint) (f : Nat) (request : CoapPacket) (addr : SockAddr) :
    Answering P (otherMethod z app env ep f request addr).2 := by
  simp only [otherMethod, answering_cons]
  refine ⟨.method _ _ _, ?_⟩
  intro o member
  obtain ⟨answer, _, sent⟩ := List.mem_flatMap.mp member
  exact coapEndpointRespond_answering env builds ep _ _ _ _ _ o sent

theorem coapHandleRequest_answering (ep : CoapEndpoint) (rx : PacketRxDataItem) :
    Answering P (coapHandleRequest z app env ep rx).2 := by
  unfold coapHandleRequest
  split
  · exact messagePost_answering env builds ep _ _
  · exact otherMethod_answering app env builds ep _ _ _
  · exact answering_nil

theorem receiveRequest_answering (ep : CoapEndpoint) (rx : PacketRxDataItem) :
    Answering P (receiveRequest z app env ep rx) := by
  have handled := coapHandleRequest_answering app env builds ep rx
  unfold receiveRequest
  dsimp only
  split
  · exact (answering_append _ _).mpr
      ⟨handled, coapEndpointRespond_answering env builds ep _ _ _ _ _⟩
  · exact handled

theorem rejectPacket_answering (ep : CoapEndpoint) (rx : PacketRxDataItem) :
    Answering P (rejectPacket z env ep rx) := by
  unfold rejectPacket
  split
  · exact coapEndpointReset_answering env builds ep _ _
  · exact answering_nil

end answers

theorem receiveRequest_quiet (ep : CoapEndpoint) (rx : PacketRxDataItem) :
    Quiet (receiveRequest z app env ep rx) :=
  (receiveRequest_answering app env z.buildsAnswers_true ep rx).quiet

theorem rejectPacket_quiet (ep : CoapEndpoint) (rx : PacketRxDataItem) :
    Quiet (rejectPacket z env ep rx) :=
  (rejectPacket_answering env z.buildsAnswers_true ep rx).quiet

/-- What `post_handler` does: it stores the result, answers and wakes the caller. -/
theorem postHandler_eq (builds : z.BuildsAnswers P) (ep : CoapEndpoint) (data : HandlerData) (err : Int)
    (response : Option CoapPacket) :
    ∃ acked, Answering P acked ∧ postHandler z env ep data err response =
      .ret data.frame (if err ≠ 0 then err else (z.coapHeaderGetCode (response.getD .null)).toNat) ::
        acked ++ [.semGive data.frame] := by
  by_cases failed : err ≠ 0
  · refine ⟨[], answering_nil, ?_⟩
    rw [postHandler, if_pos failed, if_pos failed]
    rfl
  · refine ⟨_, coapEndpointAcknowledge_answering env builds ep (response.getD .null) data.addr, ?_⟩
    rw [postHandler, if_neg failed, if_neg failed]

theorem postHandler_quiet (ep : CoapEndpoint) (data : HandlerData) (err : Int)
    (response : Option CoapPacket) : Quiet (postHandler z env ep data err response) := by
  obtain ⟨acked, answering, eq⟩ := postHandler_eq z env z.buildsAnswers_true ep data err response
  rw [eq]
  exact answering.quiet.handler _ _

/-- A handler call is one `invoked` output and what the handler does. -/
theorem invokeHandler_eq (ep : CoapEndpoint) (call : Nat) (handler : ResponseHandler)
    (data : HandlerData) (err : Int) (response : Option CoapPacket) :
    ∃ effects, Quiet effects ∧ invokeHandler z app env ep call handler data err response =
      .invoked call handler data err response :: effects := by
  cases handler with
  | postHandler => exact ⟨_, postHandler_quiet z env ep data err response, rfl⟩
  | other f =>
    -- another handler can only send
    refine ⟨_, ?_, rfl⟩
    intro o member
    obtain ⟨sent, _, rfl⟩ := List.mem_map.mp member
    rfl

/-! ## Posting -/

/-- A packet that `coap_endpoint_post_async` encoded for a call. -/
def PostPacket (call : Nat) (p : CoapPacket) : Prop :=
  ∃ (id : UInt16) (token : Token),
    z.Built ⟨.con, coapMethodPost, id, token.val⟩ (some call) p

variable {z} in
theorem PostPacket.header (laws : z.Encodes) {call : Nat} {p : CoapPacket}
    (post : PostPacket z call p) : z.coapHeaderGetType p = .con ∧
      z.coapHeaderGetCode p = coapMethodPost ∧ (z.coapHeaderGetToken p).length = 8 ∧
      p.owner = some call := by
  obtain ⟨id, token, built⟩ := post
  obtain ⟨header, owner⟩ := laws.header _ _ _ built
  simp only [Zephyr.header, Rfc7252.Header.mk.injEq] at header
  exact ⟨header.1, header.2.1, by rw [header.2.2.2]; exact token.property, owner⟩

variable {z} in
theorem PostPacket.isRequest (laws : z.Encodes) {call : Nat} {p : CoapPacket}
    (post : PostPacket z call p) : isRequest z p = true := by
  simp [Coap.isRequest, (post.header laws).2.1]

theorem appendPath_built (h : Header) (owner : Option Nat) (path : List (List UInt8))
    (packet : CoapPacket) (built : z.Built h owner packet)
    (fine : 0 ≤ (appendPath z packet path).1) : z.Built h owner (appendPath z packet path).2 := by
  -- each segment that was appended leaves a packet with the same header
  induction path generalizing packet with
  | nil => exact built
  | cons segment rest ih =>
    simp only [appendPath] at fine ⊢
    split at fine
    · next failed => exact absurd fine (by omega)
    · next appended =>
      rw [if_neg appended]
      exact ih _ (.option packet _ _ built (by omega)) fine

theorem appendPayload_built (h : Header) (owner : Option Nat) (packet : CoapPacket)
    (payload : Option (List UInt8)) (payloadLen : Int) (built : z.Built h owner packet)
    (fine : 0 ≤ (appendPayload z packet payload payloadLen).1) :
    z.Built h owner (appendPayload z packet payload payloadLen).2 :=
  appendPayload_keeps z (z.Built h owner) .marker .payload packet payload payloadLen built fine

theorem encodePost_built (laws : z.Encodes) (call : Nat) (args : PostArgs)
    (fine : 0 ≤ (encodePost z env call args).1) :
    z.Built ⟨.con, coapMethodPost, env.nextId, env.nextToken.val⟩ (some call)
      (encodePost z env call args).2 := by
  unfold encodePost at fine ⊢
  dsimp only at fine ⊢
  split at fine
  · next failed => exact absurd fine (by omega)
  · next started =>
    rw [if_neg started]
    have init : z.Built ⟨.con, coapMethodPost, env.nextId, env.nextToken.val⟩ (some call)
        (z.coapPacketInit ⟨some call, []⟩ maxCoapMsgLen 1 .con env.nextToken.val coapMethodPost
          env.nextId).2 :=
      .init _ _ rfl (Nat.le_of_eq env.nextToken.property) (laws.codes _ (by simp [usedCodes]))
        (Int.not_lt.mp started)
    -- the path was appended, and then the payload
    split at fine
    · next failed => exact absurd fine (by omega)
    · next extended =>
      rw [if_neg extended]
      have path := appendPath_built z _ _ _ _ init (Int.not_lt.mp extended)
      exact appendPayload_built z _ _ _ _ _ path fine

/-- A post queues one item and returns 0, or fails, queues nothing and returns an error. -/
theorem coapEndpointPostAsync_cases (laws : z.Encodes) (call : Nat) (args : PostArgs) :
    (∃ packet, z.Built ⟨.con, coapMethodPost, env.nextId, env.nextToken.val⟩ (some call) packet ∧
      coapEndpointPostAsync z env call args = (0, some (txItem call args packet), [])) ∨
    (∃ err freed, err < 0 ∧ (freed = [] ∨ freed = [Output.freed call]) ∧
      coapEndpointPostAsync z env call args = (err, none, freed)) := by
  unfold coapEndpointPostAsync
  split
  · exact .inr ⟨-enomem, [], by decide, .inl rfl, rfl⟩
  · split
    · exact .inr ⟨-enomem, [.freed call], by decide, .inr rfl, rfl⟩
    · dsimp only
      split
      · next failed => exact .inr ⟨_, [.freed call], failed, .inr rfl, rfl⟩
      · next fine =>
        exact .inl ⟨_, encodePost_built z env laws call args (Int.not_lt.mp fine), rfl⟩

/-! ## Transmitting and retransmitting -/

@[simp] theorem fillInflight_call (tx : PacketTxDataItem) :
    (fillInflight z env tx).call = tx.call := by
  simp only [fillInflight]
  split <;> rfl

/-- The entry for a confirmable packet. -/
theorem fillInflight_con (tx : PacketTxDataItem) (con : z.coapHeaderGetType tx.packet = .con) :
    fillInflight z env tx =
      { retransmit := true, packet := tx.packet, addr := tx.addr, retransmissionCount := 0
        timeout := kSeconds 10 + env.rand % kSeconds 1
        deadline := s32 (env.kUptimeGet32 + (kSeconds 10 + env.rand % kSeconds 1))
        responseHandler := tx.responseHandler, responseHandlerData := tx.responseHandlerData
        call := tx.call } := by
  simp [fillInflight, con]

/-- Without memory for a longer table the handler is told, and the buffer released. -/
theorem transmitPacket_dropped (ep : CoapEndpoint) (tx : PacketTxDataItem) (short : ¬env.calloc 0 = true) :
    transmitPacket z app env ep tx =
      (ep, invokeHandler z app env ep tx.call tx.responseHandler tx.responseHandlerData (-enomem) none ++
        kFree tx.packet) := by
  have failed : newInflightPacket z env ep tx = none := by rw [newInflightPacket, if_neg short]
  rw [transmitPacket, failed]

/-- A confirmable packet is stored and sent, or its handler learns that memory is short. -/
theorem transmitPacket_con (ep : CoapEndpoint) (tx : PacketTxDataItem)
    (con : z.coapHeaderGetType tx.packet = .con) :
    transmitPacket z app env ep tx =
      if env.calloc 0 then
        ({ ep with inflight := ep.inflight.push (fillInflight z env tx) },
          [.armed tx.call env.uptime env.rand, .sendto (some tx.call) ep.sock tx.packet tx.addr])
      else
        (ep, invokeHandler z app env ep tx.call tx.responseHandler tx.responseHandlerData (-enomem)
          none ++ kFree tx.packet) := by
  by_cases room : env.calloc 0 = true
  · -- `transmit_packet` keeps the entry of a confirmable packet and does not release it
    have armed : (fillInflight z env tx).retransmit = true := by rw [fillInflight_con z env tx con]
    simp [transmitPacket, newInflightPacket, room, con, armed]
  · rw [if_neg room]
    exact transmitPacket_dropped z app env ep tx room

/-- The entry for a packet of another type: only the handler and its data are kept. -/
theorem fillInflight_nonCon (tx : PacketTxDataItem) (nonCon : z.coapHeaderGetType tx.packet ≠ .con) :
    fillInflight z env tx =
      { retransmit := false, packet := .null, addr := .zero, retransmissionCount := 0, timeout := 0
        deadline := 0, responseHandler := tx.responseHandler
        responseHandlerData := tx.responseHandlerData, call := tx.call } := by
  simp [fillInflight, nonCon]

/-- A packet that is not confirmable is sent and released. Its entry stays when the packet,
whose data pointer was cleared, still reads as a request. -/
theorem transmitPacket_nonCon (ep : CoapEndpoint) (tx : PacketTxDataItem) (room : env.calloc 0 = true)
    (nonCon : z.coapHeaderGetType tx.packet ≠ .con) :
    transmitPacket z app env ep tx =
      (if isRequest z { tx.packet with data := none } then
          { ep with inflight := ep.inflight.push (fillInflight z env tx) }
        else
          { ep with inflight :=
            (ep.inflight.push (fillInflight z env tx)).swapRemove (ep.inflight.last _) },
        .sendto (some tx.call) ep.sock tx.packet tx.addr :: kFree tx.packet) := by
  have empty : kFree (fillInflight z env tx).packet = [] := by
    rw [fillInflight_nonCon z env tx nonCon]
    rfl
  have unarmed : (fillInflight z env tx).retransmit = false := by rw [fillInflight_nonCon z env tx nonCon]
  unfold transmitPacket newInflightPacket
  by_cases request : isRequest z { tx.packet with data := none } = true
  · simp [room, nonCon, unarmed, request]
  · simp [room, nonCon, unarmed, request, freeInflightPacket, empty]

/-- The ways in which `transmit_packet` can go. -/
inductive Transmitted (ep : CoapEndpoint) (tx : PacketTxDataItem) : CoapEndpoint → List Output → Prop
  | dropped : ¬env.calloc 0 = true →
      Transmitted ep tx ep (invokeHandler z app env ep tx.call tx.responseHandler tx.responseHandlerData
        (-enomem) none ++ kFree tx.packet)
  | stored : env.calloc 0 = true → z.coapHeaderGetType tx.packet = .con →
      Transmitted ep tx { ep with inflight := ep.inflight.push (fillInflight z env tx) }
        [.armed tx.call env.uptime env.rand, .sendto (some tx.call) ep.sock tx.packet tx.addr]
  -- a packet of another type, whether it still reads as a request or not
  | kept : env.calloc 0 = true → z.coapHeaderGetType tx.packet ≠ .con →
      isRequest z { tx.packet with data := none } = true →
      Transmitted ep tx { ep with inflight := ep.inflight.push (fillInflight z env tx) }
        (.sendto (some tx.call) ep.sock tx.packet tx.addr :: kFree tx.packet)
  | forgotten : env.calloc 0 = true → z.coapHeaderGetType tx.packet ≠ .con →
      isRequest z { tx.packet with data := none } = false →
      Transmitted ep tx { ep with inflight :=
          (ep.inflight.push (fillInflight z env tx)).swapRemove (ep.inflight.last _) }
        (.sendto (some tx.call) ep.sock tx.packet tx.addr :: kFree tx.packet)

theorem transmitPacket_cases (ep : CoapEndpoint) (tx : PacketTxDataItem) :
    Transmitted z app env ep tx (transmitPacket z app env ep tx).1 (transmitPacket z app env ep tx).2 := by
  by_cases room : env.calloc 0 = true
  · by_cases con : z.coapHeaderGetType tx.packet = .con
    · rw [transmitPacket_con z app env ep tx con, if_pos room]
      exact .stored room con
    · rw [transmitPacket_nonCon z app env ep tx room con]
      by_cases request : isRequest z { tx.packet with data := none } = true
      · rw [if_pos request]
        exact .kept room con request
      · rw [if_neg request]
        exact .forgotten room con (by simpa using request)
  · rw [transmitPacket_dropped z app env ep tx room]
    exact .dropped room

/-- A timeout either sends the request again or gives it up. -/
theorem retransmitPacket_cases (ep : CoapEndpoint) (i : Fin ep.inflight.len) :
    (maxRetransmissionCount < (retransmitted (ep.inflight.get i)).retransmissionCount ∧
      (retransmitPacket z app env ep i).1.inflight.items.Perm (ep.inflight.others i) ∧
      (retransmitPacket z app env ep i).2 =
        invokeHandler z app env ep (ep.inflight.get i).call (ep.inflight.get i).responseHandler
          (ep.inflight.get i).responseHandlerData (-eagain) none ++
          kFree (ep.inflight.get i).packet) ∨
    ((retransmitted (ep.inflight.get i)).retransmissionCount ≤ maxRetransmissionCount ∧
      (retransmitPacket z app env ep i).1.inflight.items.Perm
        (retransmitted (ep.inflight.get i) :: ep.inflight.others i) ∧
      (retransmitPacket z app env ep i).2 =
        [.sendto (some (ep.inflight.get i).call) ep.sock (ep.inflight.get i).packet
          (ep.inflight.get i).addr]) := by
  unfold retransmitPacket
  dsimp only
  by_cases limit : (retransmitted (ep.inflight.get i)).retransmissionCount > maxRetransmissionCount
  · left
    rw [if_pos limit]
    refine ⟨limit, ?_, ?_⟩
    · -- the cell that is given up is the one that was just written
      have removed := (ep.inflight.set i (retransmitted (ep.inflight.get i))).swapRemove_perm
        (ep.inflight.keep i _ i)
      rwa [Bag.others_keep] at removed
    · simp only [freeInflightPacket, Bag.get_keep]
      rfl
  · right
    rw [if_neg limit]
    exact ⟨Nat.not_lt.mp limit, ep.inflight.set_perm i _, rfl⟩

/-! ## Receiving -/

/-- The ways in which `receive_packet` can go. -/
inductive Received (ep : CoapEndpoint) (rx : PacketRxDataItem) : CoapEndpoint → List Output → Prop
  -- neither the type nor the table matters for a request
  | request : isRequest z rx.packet = true →
      Received ep rx ep (receiveRequest z app env ep rx)
  | canceled (i : Fin ep.inflight.len) : isRequest z rx.packet = false →
      getInflightPacket z ep rx = some i → z.coapHeaderGetType rx.packet = .reset →
      Received ep rx (completeInflight z app env ep i (-ecanceled) none).1
        (completeInflight z app env ep i (-ecanceled) none).2
  | completed (i : Fin ep.inflight.len) : isResponse z rx.packet = true →
      getInflightPacket z ep rx = some i → z.coapHeaderGetType rx.packet ≠ .reset →
      Received ep rx (completeInflight z app env ep i 0 (some rx.packet)).1
        (completeInflight z app env ep i 0 (some rx.packet)).2
  -- an empty message of any type but reset; what happens depends on the entry
  | acknowledged (i : Fin ep.inflight.len) : z.coapHeaderGetCode rx.packet = coapCodeEmpty →
      getInflightPacket z ep rx = some i → z.coapHeaderGetType rx.packet ≠ .reset →
      isRequest z (ep.inflight.get i).packet = true →
      Received ep rx
        { ep with inflight := ep.inflight.set i { ep.inflight.get i with retransmit := false } } []
  | answered (i : Fin ep.inflight.len) : z.coapHeaderGetCode rx.packet = coapCodeEmpty →
      getInflightPacket z ep rx = some i → z.coapHeaderGetType rx.packet ≠ .reset →
      isResponse z (ep.inflight.get i).packet = true →
      Received ep rx (freeInflightPacket ep i).1 (freeInflightPacket ep i).2
  | unclaimed (i : Fin ep.inflight.len) : z.coapHeaderGetCode rx.packet = coapCodeEmpty →
      getInflightPacket z ep rx = some i → z.coapHeaderGetType rx.packet ≠ .reset →
      z.coapHeaderGetCode (ep.inflight.get i).packet = coapCodeEmpty →
      Received ep rx ep (rejectPacket z env ep rx)
  | unmatched : isRequest z rx.packet = false → getInflightPacket z ep rx = none →
      Received ep rx ep (rejectPacket z env ep rx)

theorem receivePacket_cases (ep : CoapEndpoint) (rx : PacketRxDataItem) :
    Received z app env ep rx (receivePacket z app env ep rx).1 (receivePacket z app env ep rx).2 := by
  -- the cases come in the order in which the source tests them
  unfold receivePacket
  by_cases request : isRequest z rx.packet = true
  · rw [if_pos request]
    exact .request request
  · rw [if_neg request]
    have noRequest : isRequest z rx.packet = false := by simpa using request
    cases found : getInflightPacket z ep rx with
    | none => exact .unmatched noRequest found
    | some i =>
      dsimp only
      by_cases reset : z.coapHeaderGetType rx.packet = .reset
      · rw [if_pos reset]
        exact .canceled i noRequest found reset
      · rw [if_neg reset]
        by_cases response : isResponse z rx.packet = true
        · rw [if_pos response]
          exact .completed i response found reset
        · rw [if_neg response]
          have empty : z.coapHeaderGetCode rx.packet = coapCodeEmpty :=
            empty_of_neither _ noRequest (by simpa [isResponse] using response)
          by_cases ours : isRequest z (ep.inflight.get i).packet = true
          · rw [if_pos ours]
            exact .acknowledged i empty found reset ours
          · rw [if_neg ours]
            by_cases answer : isResponse z (ep.inflight.get i).packet = true
            · rw [if_pos answer]
              exact .answered i empty found reset answer
            · rw [if_neg answer]
              refine .unclaimed i empty found reset (empty_of_neither _ ?_ ?_)
              · simpa [isRequest] using ours
              · simpa [isResponse] using answer

/-! ## Steps -/

/-- Outputs of the endpoint itself, not of a handler or an answer. -/
def Output.plain : Output → Bool
  | .posted .. | .queued _ | .armed .. | .expired _ | .received _ | .sendto (some _) .. | .freed _ => true
  | _ => false

theorem kFree_plain (packet : CoapPacket) : ∀ o ∈ kFree packet, o.plain = true := by
  intro o member
  obtain ⟨call, _, rfl⟩ := List.mem_map.mp member
  rfl

/-- A step answers a packet, or calls one handler, or does neither. -/
inductive Effects (P : CoapPacket → Prop) : List Output → Prop
  | answers {before answers : List Output} : (∀ o ∈ before, o.plain = true) → Answering P answers →
      Effects P (before ++ answers)
  | handler {before after : List Output} (env : Env) (ep : CoapEndpoint) (call : Nat)
      (handler : ResponseHandler) (data : HandlerData) (err : Int) (response : Option CoapPacket) :
      (∀ o ∈ before, o.plain = true) → (∀ o ∈ after, o.plain = true) →
      Effects P (before ++ invokeHandler z app env ep call handler data err response ++ after)

section effects

variable {z app}

theorem Effects.ofPlain {outs : List Output} (plain : ∀ o ∈ outs, o.plain = true) :
    Effects z app P outs := by
  have effects : Effects z app P (outs ++ []) := .answers plain answering_nil
  rwa [List.append_nil] at effects

theorem Effects.cons {outs : List Output} (effects : Effects z app P outs) {o : Output}
    (plain : o.plain = true) : Effects z app P (o :: outs) := by
  cases effects with
  | @answers before answers plainBefore answering =>
    have first : ∀ o' ∈ o :: before, o'.plain = true := List.forall_mem_cons.mpr ⟨plain, plainBefore⟩
    exact .answers first answering
  | @handler before after env ep call handler data err response plainBefore plainAfter =>
    have first : ∀ o' ∈ o :: before, o'.plain = true := List.forall_mem_cons.mpr ⟨plain, plainBefore⟩
    exact .handler env ep call handler data err response first plainAfter

theorem Effects.ofHandler (ep : CoapEndpoint) (call : Nat) (handler : ResponseHandler) (data : HandlerData)
    (err : Int) (response : Option CoapPacket) (packet : CoapPacket) :
    Effects z app P (invokeHandler z app env ep call handler data err response ++ kFree packet) := by
  have nothing : ∀ o ∈ ([] : List Output), o.plain = true := by simp
  exact .handler env ep call handler data err response nothing (kFree_plain packet)

theorem transmitPacket_effects (ep : CoapEndpoint) (tx : PacketTxDataItem) :
    Effects z app P (transmitPacket z app env ep tx).2 := by
  have cases := transmitPacket_cases z app env ep tx
  generalize (transmitPacket z app env ep tx).1 = ep' at cases
  generalize (transmitPacket z app env ep tx).2 = outs at cases
  cases cases with
  | dropped => exact .ofHandler env ep _ _ _ _ _ _
  | stored => exact .ofPlain (by simp [Output.plain])
  | kept | forgotten => exact Effects.cons (.ofPlain (kFree_plain tx.packet)) rfl

theorem retransmitPacket_effects (ep : CoapEndpoint) (i : Fin ep.inflight.len) :
    Effects z app P (retransmitPacket z app env ep i).2 := by
  rcases retransmitPacket_cases z app env ep i with ⟨_, _, outs⟩ | ⟨_, _, outs⟩
  · rw [outs]
    exact .ofHandler env ep _ _ _ _ _ _
  · rw [outs]
    exact .ofPlain (by simp [Output.plain])

theorem receivePacket_effects (builds : z.BuildsAnswers P) (ep : CoapEndpoint) (rx : PacketRxDataItem) :
    Effects z app P (receivePacket z app env ep rx).2 := by
  have cases := receivePacket_cases z app env ep rx
  generalize (receivePacket z app env ep rx).1 = ep' at cases
  generalize (receivePacket z app env ep rx).2 = outs at cases
  have nothing : ∀ o ∈ ([] : List Output), o.plain = true := by simp
  cases cases with
  | request => exact .answers nothing (receiveRequest_answering app env builds ep rx)
  | canceled i | completed i => exact .ofHandler env ep _ _ _ _ _ _
  | acknowledged => exact .ofPlain nothing
  | answered i => exact .ofPlain (kFree_plain _)
  | unclaimed | unmatched => exact .answers nothing (rejectPacket_answering env builds ep rx)

theorem postStep_plain (s : EndpointState) (args : PostArgs) :
    ∀ o ∈ (postStep z env s args).2, o.plain = true := by
  -- a post queues an item or releases its buffer, and returns
  simp only [postStep, coapEndpointPostAsync]
  split
  · simp [Output.plain]
  · split
    · simp [Output.plain]
    · split <;> simp [Output.plain]

/-- Only a received packet is answered. -/
theorem step_effects_other (s : EndpointState) (event : Event)
    (noReceive : ∀ env rx, event ≠ .receive env rx) : Effects z app P (step z app s event).2 := by
  cases event with
  | post env args => exact .ofPlain (postStep_plain env s args)
  | transmit env =>
    simp only [step, transmitStep]
    split
    · exact .ofPlain (by simp)
    · exact transmitPacket_effects env s.ep _
  | timeout env polledAt =>
    simp only [step, timeoutStep]
    split
    · exact .ofPlain (by simp)
    · exact (retransmitPacket_effects env s.ep _).cons rfl
  | receive env rx => exact absurd rfl (noReceive env rx)

theorem step_effects (builds : z.BuildsAnswers P) (s : EndpointState) (event : Event) :
    Effects z app P (step z app s event).2 := by
  cases event with
  | post | transmit | timeout => exact step_effects_other s _ fun _ _ absurd => by cases absurd
  | receive env rx => exact (receivePacket_effects env builds s.ep rx).cons rfl

/-- What is sent besides requests is an answer, or sent by a handler. -/
theorem Effects.sendto {outs : List Output} (effects : Effects z app P outs) {sock : Int}
    {packet : CoapPacket} {addr : SockAddr} (sent : .sendto none sock packet addr ∈ outs) :
    P packet ∨ ∃ env ep call handler data err response,
      .sendto none sock packet addr ∈ invokeHandler z app env ep call handler data err response := by
  have other : ∀ {plain : List Output}, (∀ o ∈ plain, o.plain = true) →
      Output.sendto none sock packet addr ∉ plain := by
    intro plain all member
    cases all _ member
  cases effects with
  | answers before answering =>
    rcases List.mem_append.mp sent with first | answer
    · exact absurd first (other before)
    · exact .inl (answering.sendto answer)
  | handler env ep call handler data err response before after =>
    rcases List.mem_append.mp sent with called | last
    · rcases List.mem_append.mp called with first | handled
      · exact absurd first (other before)
      · exact .inr ⟨env, ep, call, handler, data, err, response, handled⟩
    · exact absurd last (other after)

/-- Only a post counts as one. -/
theorem step_posts (s : EndpointState) (event : Event) (noPost : ∀ env args, event ≠ .post env args) :
    (step z app s event).1.posts = s.posts := by
  cases event with
  | post env args => exact absurd rfl (noPost env args)
  | transmit env =>
    simp only [step, transmitStep]
    split <;> rfl
  | timeout env polledAt =>
    simp only [step, timeoutStep]
    split <;> rfl
  | receive env rx => rfl

end effects

/-! ## The receiving thread -/

theorem rxData_eq (datagram : List UInt8) (fits : datagram.length ≤ maxCoapMsgLen) :
    rxData datagram = datagram ++ List.replicate (maxCoapMsgLen - datagram.length) 0 := by
  rw [rxData, List.take_of_length_le fits]

theorem recvThread_eq_queued (datagram : List UInt8) (addr : SockAddr)
    (rx : PacketRxDataItem) :
    recvThread z true (some (datagram, addr)) = .queued rx ↔
      0 ≤ (z.coapPacketParse (rxData datagram) maxCoapMsgLen maxCoapOptions).1 ∧
        rx = { packet := (z.coapPacketParse (rxData datagram) maxCoapMsgLen maxCoapOptions).2.1
               options := (z.coapPacketParse (rxData datagram) maxCoapMsgLen maxCoapOptions).2.2
               addr } := by
  simp only [recvThread, Bool.not_true, Bool.false_eq_true, if_false]
  split
  · next failed =>
    constructor
    · intro absurd
      cases absurd
    · rintro ⟨fine, _⟩
      exact absurd fine (Int.not_le.mpr failed)
  · next fine =>
    simp only [Receipt.queued.injEq, Int.not_lt.mp fine, true_and, eq_comm]

/-- A queued packet is parsed from the datagram. -/
theorem recvThread_parsed (datagram : List UInt8) (addr : SockAddr)
    (fits : datagram.length ≤ maxCoapMsgLen) (rx : PacketRxDataItem)
    (queued : recvThread z true (some (datagram, addr)) = .queued rx) :
    z.Parsed datagram rx.packet := by
  obtain ⟨fine, rfl⟩ := (recvThread_eq_queued z datagram addr rx).mp queued
  rw [rxData_eq datagram fits] at fine ⊢
  exact ⟨_, _, _, fine, rfl⟩

end DtApp.Coap
