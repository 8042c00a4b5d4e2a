import DtApp.Coap.Exchanges

/-!
# Requests that are not confirmable

A request waits for its response whether it is confirmable or not, so `transmit_packet` is to
keep an entry for either. For a packet that is not confirmable it decides this after the data
pointer of the packet was cleared.
-/
namespace DtApp.Coap

section

variable (z : Zephyr) (app : App) (env : Env)

/-- The entry carries the handler and the handler data of the item. -/
structure InflightPacket.For (e : InflightPacket) (tx : PacketTxDataItem) : Prop where
  call : e.call = tx.call
  handler : e.responseHandler = tx.responseHandler
  data : e.responseHandlerData = tx.responseHandlerData

/-- A response from the address of the item, with the token of its packet. -/
structure Responds (rx : PacketRxDataItem) (tx : PacketTxDataItem) : Prop where
  response : isResponse z rx.packet = true
  notReset : z.coapHeaderGetType rx.packet ≠ .reset
  addr : rx.addr.peer = tx.addr.peer
  token : z.coapHeaderGetToken rx.packet = z.coapHeaderGetToken tx.packet

/-- The endpoint after the item was transmitted and some events happened, with the outputs of
these events. -/
def since (s : EndpointState) (tx : PacketTxDataItem) (es : List Event) : EndpointConfig :=
  (endpoint z app s.ep.sock s.ep.resources).run
    ⟨{ s with ep := (transmitPacket z app env s.ep tx).1 }, []⟩ es

/-- The packet is a request whose handler was not called yet, and this is a response to it. -/
structure Awaited (s : EndpointState) (tx : PacketTxDataItem) (es : List Event) (rx : PacketRxDataItem) :
    Prop where
  request : isRequest z tx.packet = true
  waiting : (since z app env s tx es).log.countP (Output.invokes tx.call) = 0
  responds : Responds z rx tx

/-- An entry is kept exactly for a confirmable packet or a request, and it is found when a
response comes. -/
structure KeepsTrack (s : EndpointState) (tx : PacketTxDataItem) (es : List Event) (env' : Env)
    (rx : PacketRxDataItem) : Prop where
  stored : (∃ e : InflightPacket, e.For tx ∧
      (transmitPacket z app env s.ep tx).1.inflight.items.Perm (e :: s.ep.inflight.items)) ↔
    z.coapHeaderGetType tx.packet = .con ∨ isRequest z tx.packet = true
  delivered : Awaited z app env s tx es rx →
    handlerCalls (receivePacket z app env' (since z app env s tx es).state.ep rx).2 =
      [(tx.call, tx.responseHandler, tx.responseHandlerData, 0, some rx.packet)]
  untouched : z.coapHeaderGetType tx.packet ≠ .con → isRequest z tx.packet = false →
    (transmitPacket z app env s.ep tx).1.inflight.items = s.ep.inflight.items

/-- The packet is confirmable or no request, and the response is not claimed by an entry of
another call that stands before the packet's own. -/
structure Trackable (s : EndpointState) (tx : PacketTxDataItem) (es : List Event) (rx : PacketRxDataItem) :
    Prop where
  type : z.coapHeaderGetType tx.packet = .con ∨ isRequest z tx.packet = false
  first : Awaited z app env s tx es rx →
    ∀ e, claimed z (since z app env s tx es).state.ep rx = some e → e.For tx

end

variable {z : Zephyr} {app : App}

/-! ## Transmitting -/

theorem transmitPacket_stores (env : Env) (ep : CoapEndpoint) (tx : PacketTxDataItem)
    (room : env.calloc 0 = true) (con : z.coapHeaderGetType tx.packet = .con) :
    (transmitPacket z app env ep tx).1.inflight.items =
      ep.inflight.items ++ [fillInflight z env tx] := by
  rw [transmitPacket_con z app env ep tx con, if_pos room]
  exact ep.inflight.items_push _

/-- With its data pointer cleared, no packet reads as a request. -/
theorem transmitPacket_forgets (reads : z.NullReadsZero) (env : Env) (ep : CoapEndpoint)
    (tx : PacketTxDataItem) (room : env.calloc 0 = true) (nonCon : z.coapHeaderGetType tx.packet ≠ .con) :
    (transmitPacket z app env ep tx).1.inflight.items = ep.inflight.items := by
  have cleared : isRequest z { tx.packet with data := none } = false := by
    rw [isRequest, reads.code _ rfl]
    decide
  rw [transmitPacket_nonCon z app env ep tx room nonCon, cleared]
  exact ep.inflight.swapRemove_push _

/-- Transmitting a packet takes no entry away. -/
theorem transmitPacket_keeps (env : Env) (ep : CoapEndpoint) (tx : PacketTxDataItem) (e : InflightPacket)
    (member : e ∈ ep.inflight.items) : e ∈ (transmitPacket z app env ep tx).1.inflight.items := by
  have cases := transmitPacket_cases z app env ep tx
  generalize (transmitPacket z app env ep tx).1 = ep' at cases
  generalize (transmitPacket z app env ep tx).2 = outs at cases
  cases cases with
  | dropped => exact member
  | stored | kept =>
    rw [Bag.items_push]
    exact List.mem_append_left _ member
  | forgotten =>
    rw [Bag.swapRemove_push]
    exact member

/-! ## Waiting for the response -/

theorem invokeHandler_counts (env : Env) (ep : CoapEndpoint) (e : InflightPacket) (err : Int)
    (response : Option CoapPacket) :
    (invokeHandler z app env ep e.call e.responseHandler e.responseHandlerData err response ++
      kFree e.packet).countP (Output.invokes e.call) = 1 := by
  rw [countP_invokes, invokeHandler_calls]
  simp

theorem leftover_waits (env : Env) (ep : CoapEndpoint) (rx : PacketRxDataItem) (e : InflightPacket)
    (request : isRequest z e.packet = true)
    (silent : (reaction z app env ep rx e).countP (Output.invokes e.call) = 0) :
    leftover z rx e = some { e with retransmit := false } := by
  unfold reaction at silent
  by_cases reset : z.coapHeaderGetType rx.packet = .reset
  · rw [if_pos reset, invokeHandler_counts] at silent
    cases silent
  · by_cases response : isResponse z rx.packet = true
    · rw [if_neg reset, if_pos response, invokeHandler_counts] at silent
      cases silent
    · rw [leftover, if_neg reset, if_neg response, if_pos request]

/-- The entry of a request stays, possibly changed, as long as its handler is not called. -/
theorem receivePacket_waits (env : Env) (ep : CoapEndpoint) (rx : PacketRxDataItem)
    {tx : PacketTxDataItem} (request : isRequest z tx.packet = true) {e : InflightPacket}
    (member : e ∈ ep.inflight.items) (of : e.Of tx)
    (silent : (receivePacket z app env ep rx).2.countP (Output.invokes tx.call) = 0) :
    ∃ e' ∈ (receivePacket z app env ep rx).1.inflight.items, e'.Of tx := by
  by_cases requested : isRequest z rx.packet = true
  · rw [receivePacket_request z app env ep rx requested]
    exact ⟨e, member, of⟩
  · have noRequest : isRequest z rx.packet = false := by simpa using requested
    cases found : getInflightPacket z ep rx with
    | none =>
      rw [receivePacket_unmatched z app env ep rx noRequest found]
      exact ⟨e, member, of⟩
    | some i =>
      obtain ⟨outs, table⟩ := receivePacket_matched z app env ep rx noRequest i found
      rcases List.mem_cons.mp ((ep.inflight.items_perm i).mem_iff.mpr member) with rfl | other
      · rw [outs, ← of.call] at silent
        have ours : isRequest z (ep.inflight.get i).packet = true := by rwa [of.packet]
        rw [leftover_waits env ep rx _ ours silent] at table
        exact ⟨_, table.mem_iff.mpr List.mem_cons_self, of.call, of.packet, of.addr, of.handler, of.data⟩
      · exact ⟨e, table.mem_iff.mpr (List.mem_append_right _ other), of⟩

theorem retransmitPacket_waits (env : Env) (ep : CoapEndpoint) (i : Fin ep.inflight.len)
    {tx : PacketTxDataItem} {e : InflightPacket} (member : e ∈ ep.inflight.items) (of : e.Of tx)
    (silent : (retransmitPacket z app env ep i).2.countP (Output.invokes tx.call) = 0) :
    ∃ e' ∈ (retransmitPacket z app env ep i).1.inflight.items, e'.Of tx := by
  rcases List.mem_cons.mp ((ep.inflight.items_perm i).mem_iff.mpr member) with rfl | other
  · rcases retransmitPacket_cases z app env ep i with ⟨_, _, outs⟩ | ⟨_, table, _⟩
    · -- giving up calls the handler
      rw [outs, ← of.call, invokeHandler_counts] at silent
      cases silent
    · exact ⟨_, table.mem_iff.mpr List.mem_cons_self, of.call, of.packet, of.addr, of.handler, of.data⟩
  · rcases retransmitPacket_cases z app env ep i with ⟨_, table, _⟩ | ⟨_, table, _⟩
    · exact ⟨e, table.mem_iff.mpr other, of⟩
    · exact ⟨e, table.mem_iff.mpr (List.mem_cons_of_mem _ other), of⟩

theorem step_waits (s : EndpointState) (event : Event) {tx : PacketTxDataItem}
    (request : isRequest z tx.packet = true) {e : InflightPacket} (member : e ∈ s.ep.inflight.items)
    (of : e.Of tx) (silent : (step z app s event).2.countP (Output.invokes tx.call) = 0) :
    ∃ e' ∈ (step z app s event).1.ep.inflight.items, e'.Of tx := by
  cases event with
  | post env args => exact ⟨e, member, of⟩
  | transmit env =>
    simp only [step, transmitStep]
    split
    · exact ⟨e, member, of⟩
    · exact ⟨e, transmitPacket_keeps env s.ep _ e member, of⟩
  | timeout env polledAt =>
    cases selected : nextRetransmission s.ep with
    | none =>
      simp only [step, timeoutStep, selected]
      exact ⟨e, member, of⟩
    | some i =>
      simp only [step, timeoutStep, selected, List.countP_cons, Output.invokes, Bool.false_eq_true,
        if_false, Nat.add_zero] at silent ⊢
      exact retransmitPacket_waits env s.ep i member of silent
  | receive env rx =>
    simp only [step, receiveStep, List.countP_cons, Output.invokes, Bool.false_eq_true, if_false,
      Nat.add_zero] at silent ⊢
    exact receivePacket_waits env s.ep rx request member of silent

theorem run_waits (sock : Int) (resources : List CoapResource) (es : List Event) (s : EndpointState)
    {tx : PacketTxDataItem} (request : isRequest z tx.packet = true) {e : InflightPacket}
    (member : e ∈ s.ep.inflight.items) (of : e.Of tx)
    (silent : ((endpoint z app sock resources).run ⟨s, []⟩ es).log.countP (Output.invokes tx.call) = 0) :
    ∃ e' ∈ ((endpoint z app sock resources).run ⟨s, []⟩ es).state.ep.inflight.items, e'.Of tx := by
  have leads := (endpoint z app sock resources).leads_run es ⟨s, []⟩ (Machine.admits_true es _)
  refine leads.stable (fun c => c.log.countP (Output.invokes tx.call) = 0 →
    ∃ e' ∈ c.state.ep.inflight.items, e'.Of tx) ?_ (fun _ => ⟨e, member, of⟩) silent
  intro c event _ before silent
  simp only [Machine.next, List.countP_append, Nat.add_eq_zero_iff] at silent
  obtain ⟨e', member', of'⟩ := before silent.1
  exact step_waits c.state event request member' of' silent.2

/-! ## Which requests are tracked -/

theorem claimed_found {ep : CoapEndpoint} {rx : PacketRxDataItem} (noRequest : isRequest z rx.packet = false)
    (e : InflightPacket) : claimed z ep rx = some e ↔
      ∃ i, getInflightPacket z ep rx = some i ∧ ep.inflight.get i = e := by
  simp only [claimed, noRequest, Bool.false_eq_true, if_false, ← Bag.find?_get, Option.map_eq_some_iff]
  rfl

/-- A response completes the entry that claims it. -/
theorem claimed_calls (env : Env) {ep : CoapEndpoint} {rx : PacketRxDataItem}
    (response : isResponse z rx.packet = true) (notReset : z.coapHeaderGetType rx.packet ≠ .reset)
    {e : InflightPacket} (claims : claimed z ep rx = some e) :
    handlerCalls (receivePacket z app env ep rx).2 =
      [(e.call, e.responseHandler, e.responseHandlerData, 0, some rx.packet)] := by
  obtain ⟨i, found, rfl⟩ := (claimed_found (isRequest_of_isResponse z _ response) e).mp claims
  exact (completes_of_found z app env ep rx response notReset i found).calls

theorem InflightPacket.Of.for {e : InflightPacket} {tx : PacketTxDataItem} (of : e.Of tx) : e.For tx :=
  ⟨of.call, of.handler, of.data⟩

/-- A table as it was has no entry more. -/
theorem not_stored (items : List InflightPacket) (e : InflightPacket) : ¬items.Perm (e :: items) := by
  intro perm
  have length := perm.length_eq
  simp at length

/-- The entry of a confirmable request claims the response, unless one before it does. -/
theorem awaited_claimed (env : Env) (s : EndpointState) (tx : PacketTxDataItem) (es : List Event)
    (rx : PacketRxDataItem) (room : env.calloc 0 = true) (con : z.coapHeaderGetType tx.packet = .con)
    (awaited : Awaited z app env s tx es rx) :
    ∃ e, claimed z (since z app env s tx es).state.ep rx = some e := by
  have stored : fillInflight z env tx ∈ (transmitPacket z app env s.ep tx).1.inflight.items := by
    rw [transmitPacket_stores env s.ep tx room con]
    exact List.mem_append_right _ (List.mem_singleton_self _)
  obtain ⟨e, member, of⟩ := run_waits s.ep.sock s.ep.resources es
    { s with ep := (transmitPacket z app env s.ep tx).1 } awaited.request stored (.con env con)
    awaited.waiting
  have responds := awaited.responds
  have matched : matchesInflight z rx e = true := by
    rw [matchesInflight_iff, of.addr, of.packet]
    exact ⟨responds.addr.symm, .inr responds.token.symm⟩
  have noRequest := isRequest_of_isResponse z _ responds.response
  rw [claimed, if_neg (by simp [noRequest])]
  exact Option.isSome_iff_exists.mp (List.find?_isSome.mpr ⟨e, member, matched⟩)

/-- A packet is tracked as it should be exactly when it is confirmable or no request, as far as
the response gets to its entry at all. -/
theorem keepsTrack_iff (reads : z.NullReadsZero) (env : Env) (s : EndpointState) (tx : PacketTxDataItem)
    (es : List Event) (env' : Env) (rx : PacketRxDataItem) (room : env.calloc 0 = true) :
    KeepsTrack z app env s tx es env' rx ↔ Trackable z app env s tx es rx := by
  constructor
  · intro tracks
    constructor
    · by_contra neither
      simp only [not_or, Bool.not_eq_false] at neither
      -- the entry of the request was taken out again
      obtain ⟨e, _, stored⟩ := tracks.stored.mpr (.inr neither.2)
      rw [transmitPacket_forgets reads env s.ep tx room neither.1] at stored
      exact not_stored _ e stored
    · intro awaited e claims
      have responds := awaited.responds
      have calls := tracks.delivered awaited
      rw [claimed_calls env' responds.response responds.notReset claims] at calls
      simp only [List.cons.injEq, Prod.mk.injEq, and_true] at calls
      exact ⟨calls.1, calls.2.1, calls.2.2⟩
  · intro trackable
    by_cases con : z.coapHeaderGetType tx.packet = .con
    · refine ⟨iff_of_true ?_ (.inl con), ?_, fun nonCon => absurd con nonCon⟩
      · refine ⟨fillInflight z env tx, (InflightPacket.Of.con env con).for, ?_⟩
        rw [transmitPacket_stores env s.ep tx room con]
        exact List.perm_append_singleton _ _
      · intro awaited
        have responds := awaited.responds
        obtain ⟨e, claims⟩ := awaited_claimed env s tx es rx room con awaited
        have own := trackable.first awaited e claims
        rw [claimed_calls env' responds.response responds.notReset claims, own.call, own.handler, own.data]
    · have noRequest := trackable.type.resolve_left con
      have forgotten : (transmitPacket z app env s.ep tx).1.inflight.items = s.ep.inflight.items :=
        transmitPacket_forgets reads env s.ep tx room con
      refine ⟨iff_of_false ?_ ?_, ?_, fun _ _ => forgotten⟩
      · rintro ⟨e, _, stored⟩
        rw [forgotten] at stored
        exact not_stored _ e stored
      · rintro (type | request)
        · exact con type
        · rw [noRequest] at request
          cases request
      · intro awaited
        rw [awaited.request] at noRequest
        cases noRequest

/-- A POST to the server that is not confirmable. -/
def nonPost : PacketTxDataItem where
  packet := ⟨some ⟨some 0, Rfc7252.encodeHeader 1 ⟨.nonCon, coapMethodPost, 1, [0, 1, 0, 0, 0, 0, 0, 0]⟩⟩,
    12, maxCoapMsgLen, 0⟩
  addr := serverAddr
  responseHandler := .postHandler
  responseHandlerData := ⟨0, serverAddr⟩
  call := 0

/-- The server's response to it. -/
def nonResponse : PacketRxDataItem :=
  sampleRx ⟨.nonCon, coapResponseCodeCreated, 5, [0, 1, 0, 0, 0, 0, 0, 0]⟩ serverAddr

theorem nonResponse_header : rfcZephyr.header nonResponse.packet =
    ⟨.nonCon, coapResponseCodeCreated, 5, [0, 1, 0, 0, 0, 0, 0, 0]⟩ :=
  sampleRx_header _ _ (by decide) (by decide)

theorem nonResponse_responds : Responds rfcZephyr nonResponse nonPost where
  response := (isResponse_of_header nonResponse_header).trans (by decide)
  notReset := by
    rw [type_of_header nonResponse_header]
    decide
  addr := by
    rw [nonResponse, sampleRx_addr]
    rfl
  token := by
    rw [token_of_header nonResponse_header]
    decide +kernel

theorem non_request_forgotten :
    Awaited rfcZephyr plainApp (calmEnv 1 5) sampleEndpoint.init nonPost [] nonResponse ∧
      ¬KeepsTrack rfcZephyr plainApp (calmEnv 1 5) sampleEndpoint.init nonPost [] (calmEnv 2 6)
        nonResponse := by
  have request : isRequest rfcZephyr nonPost.packet = true := by decide +kernel
  refine ⟨⟨request, rfl, nonResponse_responds⟩, ?_⟩
  intro tracks
  obtain ⟨e, _, stored⟩ := tracks.stored.mpr (.inr request)
  rw [transmitPacket_forgets rfcZephyr_nullReadsZero _ _ _ rfl (by decide +kernel)] at stored
  exact not_stored _ e stored

theorem keepsTrack_iff_non :
    KeepsTrack rfcZephyr plainApp (calmEnv 1 5) sampleEndpoint.init nonPost [] (calmEnv 2 6) nonResponse ↔
      Trackable rfcZephyr plainApp (calmEnv 1 5) sampleEndpoint.init nonPost [] nonResponse :=
  keepsTrack_iff rfcZephyr_nullReadsZero (calmEnv 1 5) sampleEndpoint.init nonPost [] (calmEnv 2 6)
    nonResponse rfl

end DtApp.Coap
