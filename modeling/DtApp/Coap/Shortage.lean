import DtApp.Coap.Responses

/-!
# Shortage of memory

Every allocation on the paths of posting, transmitting and receiving may fail. A post and a
transmission report it. `message_post` does not look at the result of its allocation, so it is the
only place where a null pointer is followed, and `recv_thread` returns when it gets no item.
-/
namespace DtApp.Coap

/-! ## Where a null pointer is followed -/

theorem plain_sound {outs : List Output} (plain : ∀ o ∈ outs, o.plain = true) : Output.fault ∉ outs := by
  intro member
  cases plain _ member

section sound

variable (z : Zephyr) (app : App) (env : Env)

theorem sendAnswer_sound (ep : CoapEndpoint) (packet : CoapPacket) (addr : SockAddr) :
    Output.fault ∉ (sendAnswer env ep packet addr).2 := by
  simp [sendAnswer]

theorem coapEndpointAcknowledge_sound (ep : CoapEndpoint) (packet : CoapPacket) (addr : SockAddr) :
    Output.fault ∉ (coapEndpointAcknowledge z env ep packet addr).2 := by
  simp only [coapEndpointAcknowledge]
  split
  · simp
  · split
    · simp
    · exact sendAnswer_sound env ep _ addr

theorem rejectPacket_sound (ep : CoapEndpoint) (rx : PacketRxDataItem) :
    Output.fault ∉ rejectPacket z env ep rx := by
  simp only [rejectPacket, coapEndpointReset]
  split
  · split
    · simp
    · split
      · simp
      · exact sendAnswer_sound env ep _ rx.addr
  · simp

theorem invokeHandler_sound (ep : CoapEndpoint) (call : Nat) (handler : ResponseHandler)
    (data : HandlerData) (err : Int) (response : Option CoapPacket) :
    Output.fault ∉ invokeHandler z app env ep call handler data err response := by
  cases handler with
  | postHandler =>
    simp only [invokeHandler, postHandler]
    split
    · simp
    · simp [coapEndpointAcknowledge_sound]
  | other f => simp [invokeHandler]

theorem invokeHandler_kFree_sound (ep : CoapEndpoint) (call : Nat) (handler : ResponseHandler)
    (data : HandlerData) (err : Int) (response : Option CoapPacket) (packet : CoapPacket) :
    Output.fault ∉ invokeHandler z app env ep call handler data err response ++ kFree packet := by
  simp only [List.mem_append, not_or]
  exact ⟨invokeHandler_sound z app env ep call handler data err response, plain_sound (kFree_plain packet)⟩

theorem transmitPacket_sound (ep : CoapEndpoint) (tx : PacketTxDataItem) :
    Output.fault ∉ (transmitPacket z app env ep tx).2 := by
  have cases := transmitPacket_cases z app env ep tx
  generalize (transmitPacket z app env ep tx).1 = ep' at cases
  generalize (transmitPacket z app env ep tx).2 = outs at cases
  cases cases with
  | dropped => exact invokeHandler_kFree_sound z app env ep _ _ _ _ _ _
  | stored => simp
  | kept | forgotten => simp [plain_sound (kFree_plain tx.packet)]

theorem retransmitPacket_sound (ep : CoapEndpoint) (i : Fin ep.inflight.len) :
    Output.fault ∉ (retransmitPacket z app env ep i).2 := by
  rcases retransmitPacket_cases z app env ep i with ⟨_, _, outs⟩ | ⟨_, _, outs⟩
  · rw [outs]
    exact invokeHandler_kFree_sound z app env ep _ _ _ _ _ _
  · simp [outs]

/-- `message_post` is called without memory for its copy of the payload. -/
def CopyFails (resources : List CoapResource) (rx : PacketRxDataItem) : Prop :=
  isRequest z rx.packet = true ∧
    z.coapHandleRequest rx.packet resources rx.options = .method .messagePost ∧ env.calloc 0 = false

theorem coapHandleRequest_fault_iff (ep : CoapEndpoint) (rx : PacketRxDataItem) :
    Output.fault ∈ (coapHandleRequest z app env ep rx).2 ↔
      z.coapHandleRequest rx.packet ep.resources rx.options = .method .messagePost ∧
        env.calloc 0 = false := by
  unfold coapHandleRequest
  split
  · next handled =>
    cases memory : env.calloc 0 <;> simp [messagePost, memory, coapEndpointRespond_sound, handled]
  · next f handled =>
    have sound : Output.fault ∉ (otherMethod z app env ep f rx.packet rx.addr).2 := by
      simp [otherMethod, coapEndpointRespond_sound]
    simp [sound, handled]
  · next err handled => simp [handled]

theorem receivePacket_fault_iff (ep : CoapEndpoint) (rx : PacketRxDataItem) :
    Output.fault ∈ (receivePacket z app env ep rx).2 ↔ CopyFails z env ep.resources rx := by
  by_cases request : isRequest z rx.packet = true
  · have outs : (receivePacket z app env ep rx).2 = receiveRequest z app env ep rx := by
      rw [receivePacket, if_pos request]
    rw [outs, CopyFails, and_iff_right request, ← coapHandleRequest_fault_iff z app env ep rx]
    simp only [receiveRequest]
    split
    · simp [coapEndpointRespond_sound]
    · rfl
  · refine iff_of_false ?_ fun fails => request fails.1
    have cases := receivePacket_cases z app env ep rx
    generalize (receivePacket z app env ep rx).1 = ep' at cases
    generalize (receivePacket z app env ep rx).2 = outs at cases
    cases cases with
    | request here => exact absurd here request
    | canceled | completed => exact invokeHandler_kFree_sound z app env ep _ _ _ _ _ _
    | acknowledged => simp
    | answered => exact plain_sound (kFree_plain _)
    | unclaimed | unmatched => exact rejectPacket_sound z env ep rx

/-- The memory that this step needs to follow no null pointer. -/
def enoughMemory : EndpointConfig → Event → Prop
  | c, .receive env rx => ¬CopyFails z env c.state.ep.resources rx
  | _, _ => True

theorem step_fault_iff (c : EndpointConfig) (event : Event) :
    Output.fault ∉ (step z app c.state event).2 ↔ enoughMemory z c event := by
  cases event with
  | post env args => exact iff_of_true (plain_sound (postStep_plain env c.state args)) trivial
  | transmit env =>
    refine iff_of_true ?_ trivial
    simp only [step, transmitStep]
    split
    · simp
    · exact transmitPacket_sound z app env c.state.ep _
  | timeout env polledAt =>
    refine iff_of_true ?_ trivial
    simp only [step, timeoutStep]
    split
    · simp
    · simp [retransmitPacket_sound]
  | receive env rx => simp [step, receiveStep, enoughMemory, receivePacket_fault_iff]

/-- A run follows no null pointer exactly when every step of it has enough memory. -/
theorem run_fault_iff (sock : Int) (resources : List CoapResource) (es : List Event) :
    Output.fault ∉ ((endpoint z app sock resources).run (endpoint z app sock resources).start es).log ↔
      (endpoint z app sock resources).Admits (enoughMemory z) (endpoint z app sock resources).start es := by
  rw [← List.forall_mem_ne]
  refine (Machine.run_avoids_iff (fun c event => ?_) es _).trans (and_iff_right (by simp [Machine.start]))
  exact List.forall_mem_ne.trans (step_fault_iff z app c event)

end sound

/-! ## Posting and transmitting -/

/-- A post without memory for the message or the item reports it, queues nothing, and releases the
message if it got it. -/
theorem postStep_short (z : Zephyr) (env : Env) (s : EndpointState) (args : PostArgs)
    (short : env.calloc 0 = false ∨ env.calloc 1 = false) :
    postStep z env s args = ({ s with posts := s.posts + 1 },
      (if env.calloc 0 then [.freed s.posts] else []) ++
        [.posted s.posts args.responseHandler args.responseHandlerData (-enomem)]) := by
  cases first : env.calloc 0 with
  | false => simp [postStep, coapEndpointPostAsync, first]
  | true =>
    have second : env.calloc 1 = false := by simpa [first] using short
    simp [postStep, coapEndpointPostAsync, first, second]

/-! ## Requests -/

/-- A datagram that is parsed to a POST, when there is memory for its item. -/
structure PostArrives (z : Zephyr) (datagram : List UInt8) (addr : SockAddr) (rx : PacketRxDataItem) :
    Prop where
  parsed : recvThread z true (some (datagram, addr)) = .queued rx
  post : z.coapHeaderGetCode rx.packet = coapMethodPost

theorem PostArrives.isRequest {z : Zephyr} {datagram : List UInt8} {addr : SockAddr}
    {rx : PacketRxDataItem} (arrives : PostArrives z datagram addr rx) : isRequest z rx.packet = true := by
  rw [Coap.isRequest, arrives.post]
  decide

/-- One response with the header for the request. -/
def AnsweredBy (z : Zephyr) (rx : PacketRxDataItem) (outs : List Output) : Prop :=
  ∃ q code, responseCode code = true ∧ z.header q = responseHeader z rx.packet code ∧
    sends outs = [(q, rx.addr)]

/-- The next step stands its failing allocations: `env` says which of its own fail, and `item` whether
`recv_thread` got memory for its item. -/
structure Survives (z : Zephyr) (app : App) (s : EndpointState) (env : Env) (item : Bool)
    (datagram : List UInt8) (addr : SockAddr) (rx : PacketRxDataItem) : Prop where
  posted : ∀ args, env.calloc 0 = false ∨ env.calloc 1 = false →
    postStep z env s args = ({ s with posts := s.posts + 1 },
      (if env.calloc 0 then [.freed s.posts] else []) ++
        [.posted s.posts args.responseHandler args.responseHandlerData (-enomem)])
  transmitted : ∀ tx, env.calloc 0 = false → transmitPacket z app env s.ep tx =
    (s.ep, invokeHandler z app env s.ep tx.call tx.responseHandler tx.responseHandlerData (-enomem) none ++
      kFree tx.packet)
  sound : (∀ args, Output.fault ∉ (step z app s (.post env args)).2) ∧
    Output.fault ∉ (step z app s (.transmit env)).2 ∧
    (∀ polledAt, Output.fault ∉ (step z app s (.timeout env polledAt)).2) ∧
    Output.fault ∉ (step z app s (.receive env rx)).2
  queued : recvThread z item (some (datagram, addr)) = .queued rx
  answered : AnsweredBy z rx (step z app s (.receive env rx)).2

/-- What `message_post` sends is its response. -/
theorem messagePost_sends (z : Zephyr) (env : Env) (ep : CoapEndpoint) (request : CoapPacket)
    (addr : SockAddr) : sends (messagePost z env ep request addr).2 =
      sends (coapEndpointRespond z env ep request coapResponseCodeCreated none 0 addr).2 := by
  cases memory : env.calloc 0 <;> simp [messagePost, memory, sends]

section answered

variable {z : Zephyr} (laws : z.Encodes) (dispatches : z.Dispatches) (app : App) (env : Env)

include laws

theorem response_answers (ep : CoapEndpoint) (rx : PacketRxDataItem) (code : UInt8)
    (used : code ∈ usedCodes) (response : responseCode code = true) :
    AnsweredBy z rx (coapEndpointRespond z env ep rx.packet code none 0 rx.addr).2 := by
  obtain ⟨q, built, sent⟩ := coapEndpointRespond_sends env laws ep rx.packet code 0 rx.addr
    (laws.codes code used)
  exact ⟨q, code, response, (laws.header _ _ _ built).1, sent⟩

include dispatches

/-- With or without memory, a request to `message_post` is answered once. -/
theorem receivePacket_answers {ep : CoapEndpoint} (served : Served ep.resources)
    {rx : PacketRxDataItem} (request : isRequest z rx.packet = true) :
    AnsweredBy z rx (receivePacket z app env ep rx).2 := by
  rcases receivePacket_served app dispatches env served request with ⟨_, outs⟩ | ⟨err, _, outs⟩
  · obtain ⟨q, code, response, header, sent⟩ := response_answers laws env ep rx
      coapResponseCodeCreated (by decide) (by decide)
    exact ⟨q, code, response, header, by rw [outs, messagePost_sends, sent]⟩
  · rw [outs]
    obtain ⟨response, used, _⟩ := responseCodeForError_negative env.staleErr
    exact response_answers laws env ep rx _ used response

theorem survives_step_iff {s : EndpointState} (served : Served s.ep.resources) (item : Bool)
    {datagram : List UInt8} {addr : SockAddr} {rx : PacketRxDataItem}
    (arrives : PostArrives z datagram addr rx) : Survives z app s env item datagram addr rx ↔
      item = true ∧ ¬CopyFails z env s.ep.resources rx := by
  have faults (event : Event) := step_fault_iff z app ⟨s, []⟩ event
  constructor
  · intro survives
    refine ⟨?_, (faults (.receive env rx)).mp survives.sound.2.2.2⟩
    -- without an item the thread returns
    cases item with
    | true => rfl
    | false => cases survives.queued
  · rintro ⟨rfl, enough⟩
    have answered := receivePacket_answers laws dispatches app env served arrives.isRequest
    exact {
      posted := postStep_short z env s
      transmitted := fun tx short => transmitPacket_dropped z app env s.ep tx (by simp [short])
      sound := ⟨fun args => (faults _).mpr trivial, (faults _).mpr trivial,
        fun polledAt => (faults _).mpr trivial, (faults _).mpr enough⟩
      queued := arrives.parsed
      answered := answered }

/-- A run follows no null pointer exactly when `message_post` always had memory, and after any run the
next step stands its failing allocations exactly when neither `recv_thread` nor `message_post` is
without memory. -/
theorem survives_iff (sock : Int) {resources : List CoapResource} (served : Served resources)
    (es : List Event) :
    (Output.fault ∉ ((endpoint z app sock resources).run (endpoint z app sock resources).start es).log ↔
      (endpoint z app sock resources).Admits (enoughMemory z) (endpoint z app sock resources).start es) ∧
    ∀ env item datagram addr rx, PostArrives z datagram addr rx →
      (Survives z app ((endpoint z app sock resources).run (endpoint z app sock resources).start es).state
        env item datagram addr rx ↔ item = true ∧ ¬CopyFails z env resources rx) := by
  constructor
  · exact run_fault_iff z app sock resources es
  · intro env item datagram addr rx arrives
    have same := reachable_resources (Machine.reachable_run (m := endpoint z app sock resources) es
      (Machine.admits_true es _))
    rw [← same] at served
    have step := survives_step_iff laws dispatches app env served item arrives
    rwa [same] at step

end answered

def shortEnv : Env := { calmEnv 3 9 with calloc := fun _ => false }

theorem messageRequest_arrives :
    PostArrives rfcZephyr (messageDatagram .con) clientAddr (messageRequest .con) := by
  refine ⟨?_, by decide +kernel⟩
  have fine := messageDatagram_accepted .con
  simp [messageRequest, received, recvThread, Int.not_lt.mpr fine]

/-- A message arrives when no allocation succeeds. -/
theorem copy_faults : PostArrives rfcZephyr (messageDatagram .con) clientAddr (messageRequest .con) ∧
    (∀ item, ¬Survives rfcZephyr plainApp twoInflight.state shortEnv item (messageDatagram .con) clientAddr
      (messageRequest .con)) ∧
    Output.fault ∈ (sampleRun [.receive shortEnv (messageRequest .con)]).log := by
  have fails : Output.fault ∈ (receivePacket rfcZephyr plainApp shortEnv twoInflight.state.ep
      (messageRequest .con)).2 := by decide +kernel
  refine ⟨messageRequest_arrives, fun item survives => survives.sound.2.2.2 ?_, by decide +kernel⟩
  exact List.mem_cons_of_mem _ fails

theorem survives_iff_message :
    (Output.fault ∉ (sampleRun [.receive shortEnv (messageRequest .con)]).log ↔
      sampleEndpoint.Admits (enoughMemory rfcZephyr) sampleEndpoint.start
        [.receive shortEnv (messageRequest .con)]) ∧
    (Survives rfcZephyr plainApp (sampleRun [.receive shortEnv (messageRequest .con)]).state (calmEnv 3 9)
      true (messageDatagram .con) clientAddr (messageRequest .con) ↔
      true = true ∧ ¬CopyFails rfcZephyr (calmEnv 3 9) mainResources (messageRequest .con)) := by
  have both := survives_iff rfcZephyr_encodes rfcZephyr_dispatches plainApp 3 mainResources_served
    [.receive shortEnv (messageRequest .con)]
  exact ⟨both.1, both.2 (calmEnv 3 9) true _ clientAddr _ messageRequest_arrives⟩

end DtApp.Coap
