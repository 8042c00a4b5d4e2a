import DtApp.Coap.History
import DtApp.Coap.Reference

/-!
# What is handed to the socket

The datagrams of a receive step: which there are, where they go and what their headers are.
-/
namespace DtApp.Coap

/-- The packets handed to the socket, with their destinations. -/
def sends (outs : List Output) : List (CoapPacket × SockAddr) :=
  outs.filterMap fun
    | .sendto _ _ packet addr => some (packet, addr)
    | _ => none

@[simp] theorem sends_nil : sends [] = [] := rfl

@[simp] theorem sends_append (xs ys : List Output) : sends (xs ++ ys) = sends xs ++ sends ys :=
  List.filterMap_append

theorem mem_sends_iff (outs : List Output) (packet : CoapPacket) (addr : SockAddr) :
    (packet, addr) ∈ sends outs ↔ ∃ request sock, Output.sendto request sock packet addr ∈ outs := by
  simp only [sends, List.mem_filterMap]
  constructor
  · rintro ⟨o, member, eq⟩
    cases o with
    | sendto request sock packet' addr' =>
      cases eq
      exact ⟨request, sock, member⟩
    | _ => cases eq
  · rintro ⟨request, sock, member⟩
    exact ⟨_, member, rfl⟩

@[simp] theorem sends_kFree (packet : CoapPacket) : sends (kFree packet) = [] := by
  simp [sends, kFree]

variable (z : Zephyr) (app : App) (env : Env)

@[simp] theorem sends_sendAnswer (ep : CoapEndpoint) (packet : CoapPacket) (addr : SockAddr) :
    sends (sendAnswer env ep packet addr).2 = [(packet, addr)] := rfl

/-! ## Headers of answers -/

def emptyHeader (type : CoapType) (packet : CoapPacket) : Header :=
  ⟨type, coapCodeEmpty, z.coapHeaderGetId packet, []⟩

def responseHeader (request : CoapPacket) (code : UInt8) : Header :=
  ⟨respondType z request, code, z.coapHeaderGetId request, z.coapHeaderGetToken request⟩

section answers

variable {z}
variable (laws : z.Encodes)

include laws

/-- An empty message always fits its four bytes. -/
theorem emptyAnswer_built (type : CoapType) (packet : CoapPacket) :
    0 ≤ (emptyAnswer z type packet).1 ∧
      z.Built (emptyHeader z type packet) none (emptyAnswer z type packet).2 := by
  have fine : 0 ≤ (emptyAnswer z type packet).1 := laws.fits _ _ _ _ _ _ (by simp) (by simp)
  refine ⟨fine, ?_⟩
  exact .init stackBuffer 4 rfl (by simp [emptyHeader]) (laws.codes _ (by simp [emptyHeader, usedCodes]))
    fine

theorem emptyAnswer_header (type : CoapType) (packet : CoapPacket) :
    z.header (emptyAnswer z type packet).2 = emptyHeader z type packet :=
  (laws.header _ _ _ (emptyAnswer_built laws type packet).2).1

theorem coapEndpointAcknowledge_sends (ep : CoapEndpoint) (packet : CoapPacket) (addr : SockAddr) :
    sends (coapEndpointAcknowledge z env ep packet addr).2 =
      if z.coapHeaderGetType packet = .con then [((emptyAnswer z .ack packet).2, addr)] else [] := by
  have fine := (emptyAnswer_built laws .ack packet).1
  by_cases con : z.coapHeaderGetType packet = .con
  · simp [coapEndpointAcknowledge, con, Int.not_lt.mpr fine]
  · simp [coapEndpointAcknowledge, con]

theorem rejectPacket_sends (ep : CoapEndpoint) (rx : PacketRxDataItem) :
    sends (rejectPacket z env ep rx) =
      if z.coapHeaderGetType rx.packet = .con then [((emptyAnswer z .reset rx.packet).2, rx.addr)]
      else [] := by
  have fine := (emptyAnswer_built laws .reset rx.packet).1
  by_cases con : z.coapHeaderGetType rx.packet = .con
  · simp [rejectPacket, coapEndpointReset, con, Int.not_lt.mpr fine]
  · simp [rejectPacket, con]

/-- A response starts with its request's id and token. -/
theorem response_built (request : CoapPacket) (code : UInt8) (defined : z.definedCode code = true) :
    let response := z.coapPacketInit stackBuffer maxCoapMsgLen 1 (respondType z request)
      (z.coapHeaderGetToken request) code (z.coapHeaderGetId request)
    0 ≤ response.1 ∧ z.Built (responseHeader z request code) none response.2 := by
  have short := laws.token request
  have fine : 0 ≤ (z.coapPacketInit stackBuffer maxCoapMsgLen 1 (respondType z request)
      (z.coapHeaderGetToken request) code (z.coapHeaderGetId request)).1 :=
    laws.fits _ _ _ _ _ _ (by simp only [maxCoapMsgLen]; omega) short
  exact ⟨fine, .init stackBuffer maxCoapMsgLen rfl short defined fine⟩

/-- Whatever is sent as a response is one, and goes where it is told. -/
theorem coapEndpointRespond_built (ep : CoapEndpoint) (request : CoapPacket) (code : UInt8)
    (payload : Option (List UInt8)) (payloadLen : Int) (addr : SockAddr)
    (defined : z.definedCode code = true) (q : CoapPacket) (dest : SockAddr)
    (sent : (q, dest) ∈ sends (coapEndpointRespond z env ep request code payload payloadLen addr).2) :
    dest = addr ∧ z.Built (responseHeader z request code) none q := by
  have started := (response_built laws request code defined).2
  -- nothing is sent when an encoder fails
  unfold coapEndpointRespond at sent
  dsimp only at sent
  split at sent
  · cases sent
  · split at sent
    · cases sent
    · next fine =>
      have eq : (q, dest) = _ := List.mem_singleton.mp sent
      cases eq
      exact ⟨rfl, appendPayload_built z _ _ _ _ _ started (Int.not_lt.mp fine)⟩

/-- A response without payload is sent. -/
theorem coapEndpointRespond_sends (ep : CoapEndpoint) (request : CoapPacket) (code : UInt8)
    (payloadLen : Int) (addr : SockAddr) (defined : z.definedCode code = true) :
    ∃ q, z.Built (responseHeader z request code) none q ∧
      sends (coapEndpointRespond z env ep request code none payloadLen addr).2 = [(q, addr)] := by
  obtain ⟨fine, built⟩ := response_built laws request code defined
  refine ⟨_, built, ?_⟩
  simp [coapEndpointRespond, appendPayload, Int.not_lt.mpr fine]

end answers

/-! ## Synchronous posts -/

/-- Every request is posted by `coap_endpoint_post`. -/
def viaPost (c : EndpointConfig) : Event → Prop
  | .post _ args => ∃ addr path payload payloadLen,
      args = coapEndpointPostArgs c.state.posts addr path payload payloadLen
  | _ => True

/-- `post_handler` is called for every entry and answers where the request went. -/
def AllSync (ep : CoapEndpoint) : Prop :=
  ∀ e ∈ ep.inflight.items, e.responseHandler = .postHandler ∧ e.responseHandlerData.addr = e.addr

variable {z app}

/-- An item of a synchronous post carries the frame of its call and its address. -/
theorem queued_sync (laws : z.Encodes) {sock : Int} {resources : List CoapResource}
    {c : EndpointConfig} (reach : (endpoint z app sock resources).Reachable viaPost c) :
    ∀ tx, Output.queued tx ∈ c.log →
      tx.responseHandler = .postHandler ∧ tx.responseHandlerData = ⟨tx.call, tx.addr⟩ := by
  refine reach.invariant (fun c => ∀ tx, Output.queued tx ∈ c.log →
    tx.responseHandler = .postHandler ∧ tx.responseHandlerData = ⟨tx.call, tx.addr⟩) ?_ ?_
  · intro tx member
    cases member
  · intro c event reach admissible before tx member
    rcases List.mem_append.mp member with old | new
    · exact before tx old
    · have move := step_refines app laws c.state event (reachable_allPosts laws reach)
      obtain ⟨env, args, packet, rfl, rfl, _⟩ := move.queues tx new
      obtain ⟨addr, path, payload, payloadLen, rfl⟩ := admissible
      exact ⟨rfl, rfl⟩

theorem reachable_allSync (laws : z.Encodes) {sock : Int} {resources : List CoapResource}
    {c : EndpointConfig} (reach : (endpoint z app sock resources).Reachable viaPost c) :
    AllSync c.state.ep := by
  intro e member
  -- the entries stem from items
  obtain ⟨tx, queued, of⟩ := (reachable_origins laws reach).table e (Multiset.mem_coe.mpr member)
  obtain ⟨handler, data⟩ := queued_sync laws reach tx queued
  rw [of.handler, of.data, of.addr, data]
  exact ⟨handler, rfl⟩

theorem twoInflight_viaPost : sampleEndpoint.Reachable viaPost twoInflight := by
  apply Machine.reachable_run
  refine ⟨⟨serverAddr, none, some [104, 105], 2, rfl⟩, trivial,
    ⟨serverAddr, none, some [104, 105], 2, ?_⟩, trivial, trivial⟩
  have posts : (sampleEndpoint.next (sampleEndpoint.next sampleEndpoint.start (samplePost 0))
      (.transmit (calmEnv 1 5))).state.posts = 1 := by decide +kernel
  rw [posts]

/-! ## Packets that are not requests -/

/-- Every entry holds a request. -/
def AllRequests (z : Zephyr) (ep : CoapEndpoint) : Prop :=
  ∀ e ∈ ep.inflight.items, isRequest z e.packet = true

theorem reachable_allRequests (laws : z.Encodes) {sock : Int} {resources : List CoapResource}
    {ok : EndpointConfig → Event → Prop} {c : EndpointConfig}
    (reach : (endpoint z app sock resources).Reachable ok c) : AllRequests z c.state.ep :=
  fun e member => ((reachable_allPosts laws reach).table e (Multiset.mem_coe.mpr member)).isRequest laws

theorem completeInflight_sends (ep : CoapEndpoint) (i : Fin ep.inflight.len) (err : Int)
    (response : Option CoapPacket) (sync : AllSync ep) :
    sends (completeInflight z app env ep i err response).2 =
      if err = 0 then
        sends (coapEndpointAcknowledge z env ep (response.getD .null) (ep.inflight.get i).addr).2
      else [] := by
  obtain ⟨handler, data⟩ := sync _ (ep.inflight.get_mem i)
  simp only [completeInflight, freeInflightPacket, invokeHandler, handler, postHandler, ← data,
    sends_append, sends_kFree, List.append_nil]
  by_cases fine : err = 0
  · simp [fine, sends]
  · simp [fine, sends]

/-- What is sent for a packet that is not a request: nothing unless it is confirmable, and
then an acknowledgement of a matched response or a reset of what matches nothing. -/
theorem receivePacket_sends (laws : z.Encodes) (ep : CoapEndpoint) (rx : PacketRxDataItem)
    (sync : AllSync ep) (requests : AllRequests z ep) (noRequest : isRequest z rx.packet = false) :
    sends (receivePacket z app env ep rx).2 =
      if z.coapHeaderGetType rx.packet = .con then
        match getInflightPacket z ep rx with
        | none => [((emptyAnswer z .reset rx.packet).2, rx.addr)]
        | some i =>
          if isResponse z rx.packet then
            [((emptyAnswer z .ack rx.packet).2, (ep.inflight.get i).addr)]
          else []
      else [] := by
  cases found : getInflightPacket z ep rx with
  | none =>
    simp only [receivePacket, noRequest, found, Bool.false_eq_true, if_false]
    exact rejectPacket_sends env laws ep rx
  | some i =>
    -- the entry holds a request, so an empty message never gets to the end
    have ours := requests _ (ep.inflight.get_mem i)
    simp only [receivePacket, noRequest, found, ours, Bool.false_eq_true, if_false, if_true]
    by_cases reset : z.coapHeaderGetType rx.packet = .reset
    · simp [reset, completeInflight_sends env ep i _ _ sync, ecanceled]
    · by_cases response : isResponse z rx.packet = true
      · simp only [reset, if_false, response, if_true, completeInflight_sends env ep i _ _ sync,
          Option.getD_some, coapEndpointAcknowledge_sends env laws]
      · simp [reset, response]

/-! ## Requests -/

/-- Every resource is served by `message_post`. -/
def Served (resources : List CoapResource) : Prop :=
  ∀ resource ∈ resources, ∀ m, resource.post = some m → m = .messagePost

theorem mainResources_served : Served mainResources := by
  intro resource member m post
  obtain rfl := List.mem_singleton.mp member
  cases post
  rfl

/-- No step changes the resource table. -/
theorem step_resources (s : EndpointState) (event : Event) :
    (step z app s event).1.ep.resources = s.ep.resources := by
  cases event with
  | post env args => rfl
  | transmit env =>
    simp only [step, transmitStep]
    cases s.txFifo with
    | nil => rfl
    | cons tx rest =>
      have cases := transmitPacket_cases z app env s.ep tx
      dsimp only
      generalize (transmitPacket z app env s.ep tx).1 = ep' at cases
      generalize (transmitPacket z app env s.ep tx).2 = outs at cases
      cases cases <;> rfl
  | timeout env polledAt =>
    simp only [step, timeoutStep]
    split
    · rfl
    · simp only [retransmitPacket]
      split <;> rfl
  | receive env rx =>
    simp only [step, receiveStep]
    have cases := receivePacket_cases z app env s.ep rx
    generalize (receivePacket z app env s.ep rx).1 = ep' at cases
    generalize (receivePacket z app env s.ep rx).2 = outs at cases
    cases cases <;> rfl

theorem reachable_resources {sock : Int} {resources : List CoapResource}
    {ok : EndpointConfig → Event → Prop} {c : EndpointConfig}
    (reach : (endpoint z app sock resources).Reachable ok c) : c.state.ep.resources = resources := by
  refine reach.invariant (fun c => c.state.ep.resources = resources) rfl ?_
  intro c event _ _ before
  rw [← before]
  exact step_resources c.state event

/-- Other request handlers answer with response codes. -/
def Answers (z : Zephyr) (app : App) : Prop :=
  ∀ f request addr, ∀ answer ∈ (app.method f request addr).1,
    responseCode answer.1 = true ∧ z.definedCode answer.1 = true

/-- A method other than `message_post` that the dispatcher picks answers with response codes. -/
def AnswersHere (z : Zephyr) (app : App) (ep : CoapEndpoint) (rx : PacketRxDataItem) : Prop :=
  ∀ f, z.coapHandleRequest rx.packet ep.resources rx.options = .method (.other f) →
    ∀ answer ∈ (app.method f rx.packet rx.addr).1,
      responseCode answer.1 = true ∧ z.definedCode answer.1 = true

theorem Answers.here (answers : Answers z app) (ep : CoapEndpoint) (rx : PacketRxDataItem) :
    AnswersHere z app ep rx :=
  fun f _ => answers f rx.packet rx.addr

/-- The errors that have a code of their own. -/
def mappedErrors : List Int := [-enoent, -eperm, -einval]

theorem responseCodeForError_unmapped (err : Int) (unmapped : err ∉ mappedErrors) :
    responseCodeForError err = coapResponseCodeInternalError := by
  simp only [mappedErrors, List.mem_cons, List.not_mem_nil, or_false, not_or] at unmapped
  rw [responseCodeForError, if_neg (by omega), if_neg (by omega), if_neg (by omega)]

/-- The mapped errors have different codes, none of them 5.00. -/
theorem mappedErrors_codes : ∀ a ∈ mappedErrors,
    responseCodeForError a ≠ coapResponseCodeInternalError ∧
      ∀ b ∈ mappedErrors, responseCodeForError a = responseCodeForError b → a = b := by
  decide

/-- Two errors have the same code if they are equal or neither has a code of its own. -/
theorem responseCodeForError_eq_iff (a b : Int) :
    responseCodeForError a = responseCodeForError b ↔
      a = b ∨ (a ∉ mappedErrors ∧ b ∉ mappedErrors) := by
  constructor
  · intro same
    -- 5.00 tells an unmapped error from each mapped one
    by_cases left : a ∈ mappedErrors
    · by_cases right : b ∈ mappedErrors
      · exact .inl ((mappedErrors_codes a left).2 b right same)
      · rw [responseCodeForError_unmapped b right] at same
        exact absurd same (mappedErrors_codes a left).1
    · by_cases right : b ∈ mappedErrors
      · rw [responseCodeForError_unmapped a left] at same
        exact absurd same.symm (mappedErrors_codes b right).1
      · exact .inr ⟨left, right⟩
  · rintro (rfl | ⟨left, right⟩)
    · rfl
    · rw [responseCodeForError_unmapped a left, responseCodeForError_unmapped b right]

def errorCodes : List UInt8 :=
  [coapResponseCodeNotFound, coapResponseCodeNotAllowed, coapResponseCodeBadRequest,
    coapResponseCodeInternalError]

theorem responseCodeForError_mem (err : Int) : responseCodeForError err ∈ errorCodes := by
  by_cases mapped : err ∈ mappedErrors
  · revert err
    decide
  · rw [responseCodeForError_unmapped err mapped]
    decide

/-- An error code is a response's, is used by the program and is not 2.01. -/
theorem errorCodes_negative : ∀ code ∈ errorCodes,
    responseCode code = true ∧ code ∈ usedCodes ∧ code ≠ coapResponseCodeCreated := by
  decide +kernel

theorem responseCodeForError_negative (err : Int) :
    responseCode (responseCodeForError err) = true ∧ responseCodeForError err ∈ usedCodes ∧
      responseCodeForError err ≠ coapResponseCodeCreated :=
  errorCodes_negative _ (responseCodeForError_mem err)

/-- A packet sent while a packet is processed: a response to a request, which is only
positive when a method ran, or an empty answer. -/
inductive Reply (z : Zephyr) (rx : PacketRxDataItem) (outs : List Output) (q : CoapPacket) : Prop
  | response (code : UInt8) : isRequest z rx.packet = true → responseCode code = true →
      z.Built (responseHeader z rx.packet code) none q →
      (code = coapResponseCodeCreated →
        Output.messagePost rx.packet (z.coapPacketGetPayload rx.packet) rx.addr ∈ outs ∨
          ∃ f, Output.otherMethod f rx.packet rx.addr ∈ outs) → Reply z rx outs q
  | empty (type : CoapType) : isRequest z rx.packet = false → type = .ack ∨ type = .reset →
      z.Built (emptyHeader z type rx.packet) none q → Reply z rx outs q

theorem coapHandleRequest_replies (laws : z.Encodes) (ep : CoapEndpoint) (rx : PacketRxDataItem)
    (answers : AnswersHere z app ep rx) (request : isRequest z rx.packet = true) (q : CoapPacket)
    (dest : SockAddr) (sent : (q, dest) ∈ sends (coapHandleRequest z app env ep rx).2) :
    Reply z rx (coapHandleRequest z app env ep rx).2 q := by
  unfold coapHandleRequest at sent ⊢
  split
  · -- `message_post` sends nothing but its 2.01
    next handled =>
    simp only [handled] at sent
    have responded : (q, dest) ∈ sends (coapEndpointRespond z env ep rx.packet
        coapResponseCodeCreated none 0 rx.addr).2 := by
      have none : sends (if env.calloc 0 then [] else [Output.fault]) = [] := by
        split <;> rfl
      simpa [messagePost, none, sends] using sent
    have built := (coapEndpointRespond_built env laws ep _ _ _ _ _ (laws.codes _ (by decide)) q dest
      responded).2
    exact .response _ request (by decide) built fun _ => .inl List.mem_cons_self
  · next f handled =>
    simp only [handled] at sent
    have responded : (q, dest) ∈ sends ((app.method f rx.packet rx.addr).1.flatMap fun answer =>
        (coapEndpointRespond z env ep rx.packet answer.1 answer.2
          (answer.2.elim 0 fun bytes => bytes.length) rx.addr).2) := by
      simpa [otherMethod, sends] using sent
    obtain ⟨call, sock, member⟩ := (mem_sends_iff _ q dest).mp responded
    obtain ⟨answer, given, member⟩ := List.mem_flatMap.mp member
    obtain ⟨class_, defined⟩ := answers f handled answer given
    have built := (coapEndpointRespond_built env laws ep _ _ _ _ _ defined q dest
      ((mem_sends_iff _ q dest).mpr ⟨call, sock, member⟩)).2
    exact .response _ request class_ built fun _ => .inr ⟨f, List.mem_cons_self⟩
  · next handled =>
    simp only [handled] at sent
    cases sent

theorem Reply.mono {rx : PacketRxDataItem} {outs outs' : List Output} {q : CoapPacket}
    (reply : Reply z rx outs q) (more : outs ⊆ outs') : Reply z rx outs' q := by
  cases reply with
  | response code request class_ built ran =>
    refine .response code request class_ built fun created => ?_
    rcases ran created with message | ⟨f, other⟩
    · exact .inl (more message)
    · exact .inr ⟨f, more other⟩
  | empty type noRequest kind built => exact .empty type noRequest kind built

theorem receiveRequest_replies (laws : z.Encodes) (ep : CoapEndpoint) (rx : PacketRxDataItem)
    (answers : AnswersHere z app ep rx) (request : isRequest z rx.packet = true) (q : CoapPacket)
    (dest : SockAddr) (sent : (q, dest) ∈ sends (receiveRequest z app env ep rx)) :
    Reply z rx (receiveRequest z app env ep rx) q := by
  simp only [receiveRequest] at sent ⊢
  split at sent
  · next failed =>
    rw [if_pos failed]
    rw [sends_append] at sent
    rcases List.mem_append.mp sent with handled | responded
    · exact (coapHandleRequest_replies env laws ep rx answers request q dest handled).mono
        (List.subset_append_left _ _)
    · -- whatever the stack held, the code is an error's
      obtain ⟨class_, used, notCreated⟩ := responseCodeForError_negative env.staleErr
      have built := (coapEndpointRespond_built env laws ep _ _ _ _ _ (laws.codes _ used) q dest
        responded).2
      exact .response _ request class_ built fun created => absurd created notCreated
  · next fine =>
    rw [if_neg fine]
    exact coapHandleRequest_replies env laws ep rx answers request q dest sent

/-- Everything that is sent while a packet is processed is a reply to it. -/
theorem receivePacket_replies (laws : z.Encodes) (ep : CoapEndpoint) (rx : PacketRxDataItem)
    (answers : AnswersHere z app ep rx) (sync : AllSync ep) (requests : AllRequests z ep)
    (q : CoapPacket) (dest : SockAddr)
    (sent : (q, dest) ∈ sends (receivePacket z app env ep rx).2) :
    Reply z rx (receivePacket z app env ep rx).2 q := by
  by_cases request : isRequest z rx.packet = true
  · simp only [receivePacket, request, if_true] at sent ⊢
    exact receiveRequest_replies env laws ep rx answers request q dest sent
  · have noRequest : isRequest z rx.packet = false := by simpa using request
    rw [receivePacket_sends env laws ep rx sync requests noRequest] at sent
    split at sent
    · split at sent
      · cases List.mem_singleton.mp sent
        exact .empty .reset noRequest (.inr rfl) (emptyAnswer_built laws .reset rx.packet).2
      · split at sent
        · cases List.mem_singleton.mp sent
          exact .empty .ack noRequest (.inl rfl) (emptyAnswer_built laws .ack rx.packet).2
        · cases sent
    · cases sent

end DtApp.Coap
