import DtApp.Coap.History
import DtApp.Coap.Reference

/-!
# Which request a packet is for

A received packet is matched with the first entry from its source that has its id or its
token. For a response this decides whose handler is called, for an empty message whose
retransmission stops.
-/
namespace DtApp.Coap

/-! ## What a received packet does to the table -/

/-- The handler calls among outputs. -/
def handlerCalls (outs : List Output) :
    List (Nat × ResponseHandler × HandlerData × Int × Option CoapPacket) :=
  outs.filterMap fun
    | .invoked call handler data err response => some (call, handler, data, err, response)
    | _ => none

@[simp] theorem handlerCalls_append (xs ys : List Output) :
    handlerCalls (xs ++ ys) = handlerCalls xs ++ handlerCalls ys :=
  List.filterMap_append

theorem mem_handlerCalls (outs : List Output) (call : Nat) (handler : ResponseHandler) (data : HandlerData)
    (err : Int) (response : Option CoapPacket) :
    (call, handler, data, err, response) ∈ handlerCalls outs ↔
      Output.invoked call handler data err response ∈ outs := by
  simp only [handlerCalls, List.mem_filterMap]
  constructor
  · rintro ⟨o, member, eq⟩
    cases o with
    | invoked =>
      cases eq
      exact member
    | _ => cases eq
  · intro member
    exact ⟨_, member, rfl⟩

theorem countP_invokes (call : Nat) (outs : List Output) :
    outs.countP (Output.invokes call) = (handlerCalls outs).countP fun called => called.1 == call := by
  rw [handlerCalls, List.countP_filterMap]
  congr 1
  funext o
  cases o <;> rfl

theorem Quiet.handlerCalls {outs : List Output} (quiet : Quiet outs) : handlerCalls outs = [] := by
  rw [Coap.handlerCalls, List.filterMap_eq_nil_iff]
  intro o member
  have handler := quiet o member
  cases o <;> first | rfl | cases handler

section

variable (z : Zephyr) (app : App) (env : Env)

@[simp] theorem handlerCalls_kFree (packet : CoapPacket) : handlerCalls (kFree packet) = [] := by
  simp [handlerCalls, kFree]

/-- A handler is called and a buffer released. -/
theorem invokeHandler_calls (ep : CoapEndpoint) (call : Nat) (handler : ResponseHandler)
    (data : HandlerData) (err : Int) (response : Option CoapPacket) (packet : CoapPacket) :
    handlerCalls (invokeHandler z app env ep call handler data err response ++ kFree packet) =
      [(call, handler, data, err, response)] := by
  obtain ⟨effects, quiet, invoked⟩ := invokeHandler_eq z app env ep call handler data err response
  -- the call stands first; neither the handler nor the release calls another one
  simp only [invoked, handlerCalls, List.cons_append, List.filterMap_cons, List.filterMap_append]
  rw [← handlerCalls, ← handlerCalls, quiet.handlerCalls, handlerCalls_kFree]
  rfl

theorem completeInflight_calls (ep : CoapEndpoint) (i : Fin ep.inflight.len) (err : Int)
    (response : Option CoapPacket) :
    handlerCalls (completeInflight z app env ep i err response).2 =
      [((ep.inflight.get i).call, (ep.inflight.get i).responseHandler,
        (ep.inflight.get i).responseHandlerData, err, response)] :=
  invokeHandler_calls z app env ep _ _ _ err response _

theorem receivePacket_response (ep : CoapEndpoint) (rx : PacketRxDataItem)
    (response : isResponse z rx.packet = true) (notReset : z.coapHeaderGetType rx.packet ≠ .reset)
    (i : Fin ep.inflight.len) (found : getInflightPacket z ep rx = some i) :
    receivePacket z app env ep rx = completeInflight z app env ep i 0 (some rx.packet) := by
  have noRequest := isRequest_of_isResponse z rx.packet response
  simp [receivePacket, noRequest, found, notReset, response]

theorem receivePacket_unmatched (ep : CoapEndpoint) (rx : PacketRxDataItem)
    (noRequest : isRequest z rx.packet = false) (found : getInflightPacket z ep rx = none) :
    receivePacket z app env ep rx = (ep, rejectPacket z env ep rx) := by
  simp [receivePacket, noRequest, found]

theorem receivePacket_empty (ep : CoapEndpoint) (rx : PacketRxDataItem)
    (empty : z.coapHeaderGetCode rx.packet = coapCodeEmpty)
    (notReset : z.coapHeaderGetType rx.packet ≠ .reset) (i : Fin ep.inflight.len)
    (found : getInflightPacket z ep rx = some i) (ours : isRequest z (ep.inflight.get i).packet = true) :
    receivePacket z app env ep rx =
      ({ ep with inflight := ep.inflight.set i { ep.inflight.get i with retransmit := false } }, []) := by
  have noRequest : isRequest z rx.packet = false := by
    rw [isRequest, empty]
    decide
  have noResponse : isResponse z rx.packet = false := by
    rw [isResponse, empty]
    decide
  simp [receivePacket, noRequest, found, notReset, noResponse, ours]

/-- An entry of the table afterwards was there before, or is the first match of an empty
message with its flag cleared. -/
theorem receivePacket_entries (ep : CoapEndpoint) (rx : PacketRxDataItem) (e : InflightPacket)
    (member : e ∈ (receivePacket z app env ep rx).1.inflight.items) :
    e ∈ ep.inflight.items ∨ ∃ i, getInflightPacket z ep rx = some i ∧
      z.coapHeaderGetCode rx.packet = coapCodeEmpty ∧ z.coapHeaderGetType rx.packet ≠ .reset ∧
      e = { ep.inflight.get i with retransmit := false } := by
  have cases := receivePacket_cases z app env ep rx
  generalize (receivePacket z app env ep rx).1 = ep' at cases member
  generalize (receivePacket z app env ep rx).2 = outs at cases
  -- a removal moves an entry, but invents none
  have removed : ∀ i, e ∈ (ep.inflight.swapRemove i).items → e ∈ ep.inflight.items := by
    intro i member
    exact List.mem_of_mem_eraseIdx ((ep.inflight.swapRemove_perm i).mem_iff.mp member)
  cases cases with
  | request => exact .inl member
  | canceled i => exact .inl (removed i member)
  | completed i => exact .inl (removed i member)
  | acknowledged i empty found notReset =>
    rw [(ep.inflight.set_perm i _).mem_iff] at member
    rcases List.mem_cons.mp member with cleared | other
    · exact .inr ⟨i, found, empty, notReset, cleared⟩
    · exact .inl (List.mem_of_mem_eraseIdx other)
  | answered i => exact .inl (removed i member)
  | unclaimed => exact .inl member
  | unmatched => exact .inl member

/-! ## Responses -/

def SameAddr (rx : PacketRxDataItem) (e : InflightPacket) : Prop := e.addr.peer = rx.addr.peer

def SameToken (rx : PacketRxDataItem) (e : InflightPacket) : Prop :=
  z.coapHeaderGetToken e.packet = z.coapHeaderGetToken rx.packet

def SameId (rx : PacketRxDataItem) (e : InflightPacket) : Prop :=
  z.coapHeaderGetId e.packet = z.coapHeaderGetId rx.packet

/-- The response goes to this entry's handler and to no other, and this entry goes. -/
structure Completes (ep : CoapEndpoint) (rx : PacketRxDataItem) (i : Fin ep.inflight.len) : Prop where
  calls : handlerCalls (receivePacket z app env ep rx).2 =
    [((ep.inflight.get i).call, (ep.inflight.get i).responseHandler,
      (ep.inflight.get i).responseHandlerData, 0, some rx.packet)]
  table : (receivePacket z app env ep rx).1.inflight.items.Perm (ep.inflight.others i)

/-- Delivery by address and token alone. -/
structure DeliversByToken (ep : CoapEndpoint) (rx : PacketRxDataItem) : Prop where
  matched : ∀ call handler data response,
    (call, handler, data, 0, response) ∈ handlerCalls (receivePacket z app env ep rx).2 →
      ∃ i, (ep.inflight.get i).call = call ∧ SameAddr rx (ep.inflight.get i) ∧
        SameToken z rx (ep.inflight.get i)
  delivered : ∀ i, SameAddr rx (ep.inflight.get i) → SameToken z rx (ep.inflight.get i) →
    Completes z app env ep rx i

/-- Delivery to the first entry from the source that has the token or the id. -/
structure DeliversToFirst (ep : CoapEndpoint) (rx : PacketRxDataItem) : Prop where
  matched : ∀ call handler data response,
    (call, handler, data, 0, response) ∈ handlerCalls (receivePacket z app env ep rx).2 →
      ∃ i, (ep.inflight.get i).call = call ∧ Completes z app env ep rx i ∧
        SameAddr rx (ep.inflight.get i) ∧
        (SameToken z rx (ep.inflight.get i) ∨ SameId z rx (ep.inflight.get i)) ∧
        ∀ j < i, SameAddr rx (ep.inflight.get j) →
          ¬SameToken z rx (ep.inflight.get j) ∧ ¬SameId z rx (ep.inflight.get j)
  delivered : ∀ i, SameAddr rx (ep.inflight.get i) → SameToken z rx (ep.inflight.get i) →
    (∀ j < i, SameAddr rx (ep.inflight.get j) → ¬SameId z rx (ep.inflight.get j)) →
    Completes z app env ep rx i

theorem getInflightPacket_eq_some_iff (ep : CoapEndpoint) (rx : PacketRxDataItem)
    (i : Fin ep.inflight.len) :
    getInflightPacket z ep rx = some i ↔
      (SameAddr rx (ep.inflight.get i) ∧
        (SameToken z rx (ep.inflight.get i) ∨ SameId z rx (ep.inflight.get i))) ∧
      ∀ j < i, SameAddr rx (ep.inflight.get j) →
        ¬SameToken z rx (ep.inflight.get j) ∧ ¬SameId z rx (ep.inflight.get j) := by
  simp only [getInflightPacket, Bag.find?_eq_some_iff, ← Bool.not_eq_true, matchesInflight_iff,
    SameAddr, SameToken, SameId, not_and, not_or, or_comm, and_comm]

theorem completes_of_found (ep : CoapEndpoint) (rx : PacketRxDataItem)
    (response : isResponse z rx.packet = true) (notReset : z.coapHeaderGetType rx.packet ≠ .reset)
    (i : Fin ep.inflight.len) (found : getInflightPacket z ep rx = some i) :
    Completes z app env ep rx i := by
  have received := receivePacket_response z app env ep rx response notReset i found
  constructor
  · rw [received]
    exact completeInflight_calls z app env ep i 0 (some rx.packet)
  · rw [received]
    exact ep.inflight.swapRemove_perm i

/-- A response goes to the first matching request. With distinct tokens in the table that
is the one with the response's token, unless an entry before it has the response's id. -/
theorem response_to_first (ep : CoapEndpoint) (rx : PacketRxDataItem)
    (tokens : (ep.inflight.items.map fun e => z.coapHeaderGetToken e.packet).Nodup)
    (response : isResponse z rx.packet = true) (notReset : z.coapHeaderGetType rx.packet ≠ .reset) :
    DeliversToFirst z app env ep rx := by
  have oneToken : ∀ i j, SameToken z rx (ep.inflight.get i) → SameToken z rx (ep.inflight.get j) →
      i = j := by
    intro i j left right
    have eq := (List.Nodup.get_inj_iff tokens (i := (i.cast (by simp))) (j := (j.cast (by simp)))).mp
      (by simpa [Bag.get] using left.trans right.symm)
    simpa [Fin.ext_iff] using eq
  constructor
  · -- a handler was called, so there is a match, and it is the first one
    intro call handler data answer member
    cases found : getInflightPacket z ep rx with
    | none =>
      rw [receivePacket_unmatched z app env ep rx (isRequest_of_isResponse z _ response) found,
        (rejectPacket_quiet z env ep rx).handlerCalls] at member
      cases member
    | some i =>
      have completes := completes_of_found z app env ep rx response notReset i found
      rw [completes.calls, List.mem_singleton] at member
      obtain ⟨⟨addr, same⟩, before⟩ := (getInflightPacket_eq_some_iff z ep rx i).mp found
      exact ⟨i, (congrArg Prod.fst member).symm, completes, addr, same, before⟩
  · intro i addr token before
    apply completes_of_found z app env ep rx response notReset
    rw [getInflightPacket_eq_some_iff]
    refine ⟨⟨addr, .inl token⟩, fun j less addr' => ⟨?_, before j less addr'⟩⟩
    -- two entries with the token would be one
    intro token'
    have eq := oneToken j i token' token
    omega

end

/-- A separate response from the server: its token is that of the second request, its id,
which the server chose, is that of the first. -/
def separateResponse : PacketRxDataItem :=
  sampleRx ⟨.nonCon, coapResponseCodeCreated, 1, [0, 2, 0, 0, 0, 0, 0, 0]⟩ serverAddr

theorem separateResponse_header : rfcZephyr.header separateResponse.packet =
    ⟨.nonCon, coapResponseCodeCreated, 1, [0, 2, 0, 0, 0, 0, 0, 0]⟩ :=
  sampleRx_header _ _ (by decide) (by decide)

theorem separateResponse_isResponse : isResponse rfcZephyr separateResponse.packet = true :=
  (isResponse_of_header separateResponse_header).trans (by decide)

theorem separateResponse_not_reset :
    rfcZephyr.coapHeaderGetType separateResponse.packet ≠ .reset := by
  rw [type_of_header separateResponse_header]
  decide

theorem response_misdelivered :
    ∃ c, sampleEndpoint.Reachable anyEvent c ∧
      (c.state.ep.inflight.items.map fun e => rfcZephyr.coapHeaderGetId e.packet).Nodup ∧
      (c.state.ep.inflight.items.map fun e => rfcZephyr.coapHeaderGetToken e.packet).Nodup ∧
      isResponse rfcZephyr separateResponse.packet = true ∧
      rfcZephyr.coapHeaderGetType separateResponse.packet ≠ .reset ∧
      ¬DeliversByToken rfcZephyr plainApp (calmEnv 3 9) c.state.ep separateResponse := by
  refine ⟨twoInflight, sampleRun_reachable _, by decide +kernel, by decide +kernel,
    separateResponse_isResponse, separateResponse_not_reset, ?_⟩
  intro delivers
  -- the handler of the first request is called
  have called : (0, ResponseHandler.postHandler, (⟨0, serverAddr⟩ : HandlerData), 0,
      some separateResponse.packet) ∈ handlerCalls (receivePacket rfcZephyr plainApp (calmEnv 3 9)
        twoInflight.state.ep separateResponse).2 := by decide +kernel
  obtain ⟨i, first, _, token⟩ := delivers.matched _ _ _ _ called
  have other : ∀ i, (twoInflight.state.ep.inflight.get i).call = 0 →
      rfcZephyr.coapHeaderGetToken (twoInflight.state.ep.inflight.get i).packet ≠
        rfcZephyr.coapHeaderGetToken separateResponse.packet := by decide +kernel
  exact other i first token

theorem response_to_first_separate :
    DeliversToFirst rfcZephyr plainApp (calmEnv 3 9) twoInflight.state.ep separateResponse :=
  response_to_first rfcZephyr plainApp (calmEnv 3 9) twoInflight.state.ep separateResponse
    (by decide +kernel) separateResponse_isResponse separateResponse_not_reset

/-! ## Acknowledgements -/

section

variable (z : Zephyr) (app : App) (env : Env)

/-- An empty acknowledgement of the entry's request. -/
structure Acknowledges (rx : PacketRxDataItem) (e : InflightPacket) : Prop where
  type : z.coapHeaderGetType rx.packet = .ack
  code : z.coapHeaderGetCode rx.packet = coapCodeEmpty
  addr : SameAddr rx e
  id : SameId z rx e

/-- The flag of a request that stays in flight changes only by its acknowledgement. -/
def OnlyAckStops (ep : CoapEndpoint) (rx : PacketRxDataItem) : Prop :=
  ∀ e ∈ ep.inflight.items, ∀ e' ∈ (receivePacket z app env ep rx).1.inflight.items,
    e'.call = e.call → e'.retransmit ≠ e.retransmit → Acknowledges z rx e

/-- An empty message other than a reset whose first match is armed, and that is not an
acknowledgement with the id of this match. -/
def StopsByElimination (ep : CoapEndpoint) (rx : PacketRxDataItem) : Prop :=
  z.coapHeaderGetCode rx.packet = coapCodeEmpty ∧ z.coapHeaderGetType rx.packet ≠ .reset ∧
    ∃ i, getInflightPacket z ep rx = some i ∧ (ep.inflight.get i).retransmit = true ∧
      ¬(z.coapHeaderGetType rx.packet = .ack ∧ SameId z rx (ep.inflight.get i))

end

variable {z : Zephyr} {app : App} {sock : Int} {resources : List CoapResource}
  {ok : EndpointConfig → Event → Prop} {c : EndpointConfig}

/-- In every reachable state, only an acknowledgement stops a retransmission, except for the
messages that the code takes for one by elimination. -/
theorem onlyAckStops_iff (laws : z.Encodes) (reach : (endpoint z app sock resources).Reachable ok c)
    (env : Env) (rx : PacketRxDataItem) :
    OnlyAckStops z app env c.state.ep rx ↔ ¬StopsByElimination z c.state.ep rx := by
  constructor
  · rintro stops ⟨empty, notReset, i, found, armed, notAck⟩
    have post := (reachable_allPosts laws reach).table _ (c.state.ep.inflight.get_mem i)
    have received := receivePacket_empty z app env c.state.ep rx empty notReset i found
      (post.isRequest laws)
    have cleared : { c.state.ep.inflight.get i with retransmit := false } ∈
        (receivePacket z app env c.state.ep rx).1.inflight.items := by
      rw [received, (c.state.ep.inflight.set_perm i _).mem_iff]
      exact List.mem_cons_self
    -- the code clears the flag, so by assumption the packet is an acknowledgement
    have acknowledges := stops _ (c.state.ep.inflight.get_mem i) _ cleared rfl (by simp [armed])
    exact notAck ⟨acknowledges.type, acknowledges.id⟩
  · intro fine e member e' member' same changed
    rcases receivePacket_entries z app env c.state.ep rx e' member' with
      old | ⟨i, found, empty, notReset, cleared⟩
    · -- an old entry of the call is the entry itself
      exact absurd (congrArg InflightPacket.retransmit
        (entries_unique laws reach e e' member old same)) changed
    · have eq : c.state.ep.inflight.get i = e := by
        apply entries_unique laws reach e _ member (c.state.ep.inflight.get_mem i)
        rw [cleared] at same
        exact same
      subst eq
      have armed : (c.state.ep.inflight.get i).retransmit = true := by
        rw [cleared] at changed
        simpa using changed
      have ack : z.coapHeaderGetType rx.packet = .ack ∧ SameId z rx (c.state.ep.inflight.get i) := by
        by_contra notAck
        exact fine ⟨empty, notReset, i, found, armed, notAck⟩
      have addr := ((getInflightPacket_eq_some_iff z _ rx i).mp found).1.1
      exact ⟨ack.1, empty, addr, ack.2⟩

/-- An entry that is not armed was there before: unarmed, or stopped by a received packet. -/
theorem Move.unarmed (laws : z.Encodes) {v v' : View} {event : Event} {outs : List Output}
    (move : Move z v event outs v') (all : v.AllPosts z) (e' : InflightPacket) (member : e' ∈ v'.table)
    (unarmed : e'.retransmit = false) :
    ∃ e ∈ v.table, e'.call = e.call ∧ e'.packet = e.packet ∧ e'.addr = e.addr ∧
      (e.retransmit = false ∨ ∃ env rx, event = .receive env rx) := by
  cases move.remains e' member with
  | kept old => exact ⟨e', old, rfl, rfl, rfl, .inl unarmed⟩
  | @stored env tx waiting =>
    -- a new entry is armed
    rw [fillInflight_con z env tx ((all.queue tx waiting).header laws).1] at unarmed
    cases unarmed
  | resent old => exact ⟨_, old, rfl, rfl, rfl, .inl unarmed⟩
  | acknowledged old => exact ⟨_, old, rfl, rfl, rfl, .inr ⟨_, _, rfl⟩⟩

/-- The events of a run in which no message stops a retransmission by elimination. -/
def acksOnly (z : Zephyr) (c : EndpointConfig) : Event → Prop
  | .receive _ rx => ¬StopsByElimination z c.state.ep rx
  | _ => True

/-- In such a run, an acknowledgement was received for every request that is not armed. -/
theorem unarmed_acknowledged (laws : z.Encodes)
    (reach : (endpoint z app sock resources).Reachable (acksOnly z) c) :
    ∀ e ∈ c.state.ep.inflight.items, e.retransmit = false →
      ∃ rx, Output.received rx ∈ c.log ∧ Acknowledges z rx e := by
  refine reach.invariant (fun c => ∀ e ∈ c.state.ep.inflight.items, e.retransmit = false →
    ∃ rx, Output.received rx ∈ c.log ∧ Acknowledges z rx e) ?_ ?_
  · intro e member
    cases member
  · intro c event reach admissible before e' member unarmed
    have move := step_refines app laws c.state event (reachable_allPosts laws reach)
    obtain ⟨e, old, call, packet, addr, why⟩ :=
      move.unarmed laws (reachable_allPosts laws reach) e' (Multiset.mem_coe.mpr member) unarmed
    -- an acknowledgement of the entry before the step is one of the entry after it
    have carry : ∀ rx, Acknowledges z rx e → Acknowledges z rx e' := fun rx acknowledges =>
      ⟨acknowledges.type, acknowledges.code, by rw [SameAddr, addr]; exact acknowledges.addr,
        by rw [SameId, packet]; exact acknowledges.id⟩
    by_cases armed : e.retransmit = true
    · rcases why with off | ⟨env, rx, rfl⟩
      · rw [armed] at off
        cases off
      · -- this step cleared the flag
        have stops := (onlyAckStops_iff laws reach env rx).mpr admissible
        refine ⟨rx, List.mem_append_right _ List.mem_cons_self, carry rx ?_⟩
        exact stops e (Multiset.mem_coe.mp old) e' member call (by simp [armed, unarmed])
    · -- it was stopped earlier
      obtain ⟨rx, received, acknowledges⟩ := before e (Multiset.mem_coe.mp old) (by simpa using armed)
      exact ⟨rx, List.mem_append_left _ received, carry rx acknowledges⟩

/-- Where retransmissions stop: in every reachable state, by exactly the messages that are
not taken for an acknowledgement by elimination; and in a run without such messages, every
request that is not armed was acknowledged. -/
theorem retransmission_stopped_iff (laws : z.Encodes) :
    (∀ ok c, (endpoint z app sock resources).Reachable ok c → ∀ env rx,
      (OnlyAckStops z app env c.state.ep rx ↔ ¬StopsByElimination z c.state.ep rx)) ∧
    (∀ c, (endpoint z app sock resources).Reachable (acksOnly z) c →
      ∀ e ∈ c.state.ep.inflight.items, e.retransmit = false →
        ∃ rx, Output.received rx ∈ c.log ∧ Acknowledges z rx e) :=
  ⟨fun _ _ reach env rx => onlyAckStops_iff laws reach env rx,
    fun _ reach => unarmed_acknowledged laws reach⟩

/-- A ping of the server with the id of the first request. -/
def pingWithId : PacketRxDataItem := sampleRx ⟨.con, coapCodeEmpty, 1, []⟩ serverAddr

theorem pingWithId_header :
    rfcZephyr.header pingWithId.packet = ⟨.con, coapCodeEmpty, 1, []⟩ :=
  sampleRx_header _ _ (by decide) (by decide)

theorem pingWithId_con : rfcZephyr.coapHeaderGetType pingWithId.packet = .con :=
  type_of_header pingWithId_header

theorem retransmission_stopped_iff_ping :
    OnlyAckStops rfcZephyr plainApp (calmEnv 3 9) twoInflight.state.ep pingWithId ↔
      ¬StopsByElimination rfcZephyr twoInflight.state.ep pingWithId :=
  (retransmission_stopped_iff rfcZephyr_encodes).1 anyEvent twoInflight (sampleRun_reachable _)
    (calmEnv 3 9) pingWithId

theorem ping_stops_retransmission :
    sampleEndpoint.Reachable anyEvent twoInflight ∧
      ¬OnlyAckStops rfcZephyr plainApp (calmEnv 3 9) twoInflight.state.ep pingWithId := by
  refine ⟨sampleRun_reachable _, fun stops => ?_⟩
  have fine := (onlyAckStops_iff rfcZephyr_encodes (sampleRun_reachable _) _ _).mp stops
  apply fine
  refine ⟨code_of_header pingWithId_header, ?_, ⟨0, by decide +kernel⟩, by decide +kernel,
    by decide +kernel, ?_⟩
  · rw [pingWithId_con]
    decide
  · rw [pingWithId_con]
    exact fun same => absurd same.1 (by decide)

end DtApp.Coap
