import DtApp.Coap.Schedule
import DtApp.Coap.Callers
import DtApp.Coap.Completion

/-!
# What callers are told

`coap.h` lists what a response handler is called with and what `coap_endpoint_post` returns. Each
error has one cause, which stands in the history before the call.
-/
namespace DtApp.Coap

open Rfc7252

/-! ## Handler calls of a move -/

/-- A handler call of a move, with what the move puts out before it. -/
inductive Invokes (z : Zephyr) (v : View) : List Output → ResponseHandler → HandlerData → Nat → Int →
    Option CoapPacket → Prop
  | dropped (tx : PacketTxDataItem) : tx ∈ v.queue →
      Invokes z v [] tx.responseHandler tx.responseHandlerData tx.call (-enomem) none
  | gaveUp (e : InflightPacket) : e ∈ v.table → e.retransmit = true →
      maxRetransmissionCount < (retransmitted e).retransmissionCount →
      Invokes z v [.expired e.call] e.responseHandler e.responseHandlerData e.call (-eagain) none
  | canceled (e : InflightPacket) (rx : PacketRxDataItem) : e ∈ v.table →
      matchesInflight z rx e = true → z.coapHeaderGetType rx.packet = .reset →
      Invokes z v [.received rx] e.responseHandler e.responseHandlerData e.call (-ecanceled) none
  | completed (e : InflightPacket) (rx : PacketRxDataItem) : e ∈ v.table →
      matchesInflight z rx e = true → isResponse z rx.packet = true →
      z.coapHeaderGetType rx.packet ≠ .reset →
      Invokes z v [.received rx] e.responseHandler e.responseHandlerData e.call 0 (some rx.packet)

variable {z : Zephyr}

/-- A completion calls its handler first, and no other. -/
theorem completion_split {call call' : Nat} {handler handler' : ResponseHandler}
    {data data' : HandlerData} {err err' : Int} {response response' : Option CoapPacket}
    {effects before after : List Output} (quiet : Quiet effects)
    (split : completion call handler data err response effects =
      before ++ .invoked call' handler' data' err' response' :: after) :
    before = [] ∧ call' = call ∧ handler' = handler ∧ data' = data ∧ err' = err ∧
      response' = response := by
  cases before with
  | nil =>
    simp only [completion, List.cons_append, List.nil_append, List.cons.injEq, Output.invoked.injEq]
      at split
    obtain ⟨⟨rfl, rfl, rfl, rfl, rfl⟩, _⟩ := split
    exact ⟨rfl, rfl, rfl, rfl, rfl, rfl⟩
  | cons first before =>
    -- the handler's own outputs are not handler calls
    simp only [completion, List.cons_append, List.cons.injEq] at split
    have member : Output.invoked call' handler' data' err' response' ∈ effects ++ [Output.freed call] := by
      rw [split.2]
      simp
    rcases List.mem_append.mp member with effect | freed
    · exact absurd effect (quiet.notMem rfl)
    · simp at freed

/-- The same with an output before the completion. -/
theorem cons_completion_split {o : Output} {call call' : Nat} {handler handler' : ResponseHandler}
    {data data' : HandlerData} {err err' : Int} {response response' : Option CoapPacket}
    {effects before after : List Output} (quiet : Quiet effects)
    (other : o ≠ .invoked call' handler' data' err' response')
    (split : o :: completion call handler data err response effects =
      before ++ .invoked call' handler' data' err' response' :: after) :
    before = [o] ∧ call' = call ∧ handler' = handler ∧ data' = data ∧ err' = err ∧
      response' = response := by
  cases before with
  | nil => exact absurd (List.cons.inj split).1 other
  | cons first before =>
    rw [List.cons_append, List.cons.injEq] at split
    obtain ⟨rfl, split⟩ := split
    obtain ⟨rfl, rest⟩ := completion_split quiet split
    exact ⟨rfl, rest⟩

theorem Move.invokes {v v' : View} {event : Event} {outs before after : List Output} {call : Nat}
    {handler : ResponseHandler} {data : HandlerData} {err : Int} {response : Option CoapPacket}
    (move : Move z v event outs v')
    (split : outs = before ++ .invoked call handler data err response :: after) :
    Invokes z v before handler data call err response := by
  have member : Output.invoked call handler data err response ∈ outs := by simp [split]
  cases move with
  | refused negative released => rcases released with rfl | rfl <;> simp at member
  | queued | idle | stored | resent | acknowledged => simp at member
  | @dropped env tx queue table posts effects quiet =>
    obtain ⟨rfl, rfl, rfl, rfl, rfl, rfl⟩ := completion_split quiet split
    exact .dropped tx List.mem_cons_self
  | gaveUp e armed limit quiet =>
    obtain ⟨rfl, rfl, rfl, rfl, rfl, rfl⟩ := cons_completion_split quiet (by simp) split
    exact .gaveUp e (Multiset.mem_cons_self _ _) armed limit
  | unclaimed quiet =>
    rcases List.mem_cons.mp member with absurd | effect
    · cases absurd
    · exact absurd effect (quiet.notMem rfl)
  | @canceled env rx queue table posts effects e matched noRequest reset quiet =>
    obtain ⟨rfl, rfl, rfl, rfl, rfl, rfl⟩ := cons_completion_split quiet (by simp) split
    exact .canceled e rx (Multiset.mem_cons_self _ _) matched reset
  | @completed env rx queue table posts effects e matched isResponse notReset quiet =>
    obtain ⟨rfl, rfl, rfl, rfl, rfl, rfl⟩ := cons_completion_split quiet (by simp) split
    exact .completed e rx (Multiset.mem_cons_self _ _) matched isResponse notReset

/-! ## The causes of what is reported -/

/-- The packet comes from where the request went, with its id or its token. -/
def Concerns (z : Zephyr) (tx : PacketTxDataItem) (rx : PacketRxDataItem) : Prop :=
  tx.addr.peer = rx.addr.peer ∧ (z.coapHeaderGetId tx.packet = z.coapHeaderGetId rx.packet ∨
    z.coapHeaderGetToken tx.packet = z.coapHeaderGetToken rx.packet)

/-- What a request's handler is told after a history, with the cause. -/
inductive Reported (z : Zephyr) (tx : PacketTxDataItem) : List Output → Int → Option CoapPacket → Prop
  /-- The response has just been received. -/
  | answered (log : List Output) (rx : PacketRxDataItem) : Concerns z tx rx →
      isResponse z rx.packet = true → z.coapHeaderGetType rx.packet ≠ .reset →
      Reported z tx (log ++ [.received rx]) 0 (some rx.packet)
  /-- All five datagrams were sent, and the timer has just expired for the fifth time. -/
  | timedOut (log : List Output) : (sendsFor tx.call log).length = 5 → expiriesFor tx.call log = 4 →
      Reported z tx (log ++ [.expired tx.call]) (-eagain) none
  /-- A Reset message has just been received. -/
  | canceled (log : List Output) (rx : PacketRxDataItem) : Concerns z tx rx →
      z.coapHeaderGetType rx.packet = .reset →
      Reported z tx (log ++ [.received rx]) (-ecanceled) none
  /-- Nothing was ever sent. -/
  | noMemory (log : List Output) : sendsFor tx.call log = [] →
      Reported z tx log (-enomem) none

theorem concerns_of_matches {e : InflightPacket} {tx : PacketTxDataItem} (of : e.Of tx)
    {rx : PacketRxDataItem} (matched : matchesInflight z rx e = true) : Concerns z tx rx := by
  have same := (matchesInflight_iff z rx e).mp matched
  rwa [of.addr, of.packet] at same

section

variable {app : App} {sock : Int} {resources : List CoapResource} {ok : EndpointConfig → Event → Prop}
  {c : EndpointConfig}

/-- The request of a handler call, and the cause of what is reported. -/
theorem Invokes.reported (laws : z.Encodes) (reach : (endpoint z app sock resources).Reachable ok c)
    {before : List Output} {call : Nat} {handler : ResponseHandler} {data : HandlerData} {err : Int}
    {response : Option CoapPacket} (invokes : Invokes z c.state.view before handler data call err response) :
    ∃ tx, Output.queued tx ∈ c.log ∧ tx.call = call ∧ tx.responseHandler = handler ∧
      tx.responseHandlerData = data ∧ Reported z tx (c.log ++ before) err response := by
  have origins := reachable_origins laws reach
  have timed := reachable_timed laws reach
  cases invokes with
  | dropped tx waiting =>
    rw [List.append_nil]
    refine ⟨tx, origins.queue tx waiting, rfl, rfl, rfl, .noMemory _ ?_⟩
    -- a request that waits in the queue has no history
    have queued : 0 < queuedFor tx.call c.state.view.queue :=
      List.countP_pos_iff.mpr ⟨tx, waiting, by simp⟩
    exact (timed.fresh tx.call (.inr queued)).sendsFor
  | gaveUp e member armed limit =>
    obtain ⟨tx, queued, of⟩ := origins.table e member
    obtain ⟨start, rand, _, scheduled⟩ := timed.table e member
    have bound := (scheduled armed).count
    have four : e.retransmissionCount = 4 := by
      simp only [retransmitted, maxRetransmissionCount] at limit bound
      omega
    refine ⟨tx, queued, of.call.symm, of.handler.symm, of.data.symm, ?_⟩
    rw [of.call]
    refine .timedOut _ ?_ ?_
    · rw [← of.call, (scheduled armed).sent, four]
      rfl
    · rw [← of.call, (scheduled armed).expired, four]
  | canceled e rx member matched reset =>
    obtain ⟨tx, queued, of⟩ := origins.table e member
    exact ⟨tx, queued, of.call.symm, of.handler.symm, of.data.symm,
      .canceled _ rx (concerns_of_matches of matched) reset⟩
  | completed e rx member matched response notReset =>
    obtain ⟨tx, queued, of⟩ := origins.table e member
    exact ⟨tx, queued, of.call.symm, of.handler.symm, of.data.symm,
      .answered _ rx (concerns_of_matches of matched) response notReset⟩

/-- The step in which a handler was called. -/
theorem invoked_origin (laws : z.Encodes) (reach : (endpoint z app sock resources).Reachable ok c)
    {pre post : List Output} {call : Nat} {handler : ResponseHandler} {data : HandlerData} {err : Int}
    {response : Option CoapPacket} (split : c.log = pre ++ .invoked call handler data err response :: post) :
    ∃ d before, (endpoint z app sock resources).Reachable ok d ∧ pre = d.log ++ before ∧
      Invokes z d.state.view before handler data call err response := by
  obtain ⟨d, event, before, after, reached, _, _, outs, eq⟩ := reach.origin split
  have move := step_refines app laws d.state event (reachable_allPosts laws reached)
  exact ⟨d, before, reached, eq, move.invokes outs⟩

/-- Every call of a response handler belongs to a request that was queued, and reports one of the four
results of `coap.h`, with its cause right before it. -/
theorem handler_contract (laws : z.Encodes) (reach : (endpoint z app sock resources).Reachable ok c)
    {pre post : List Output} {call : Nat} {handler : ResponseHandler} {data : HandlerData} {err : Int}
    {response : Option CoapPacket} (split : c.log = pre ++ .invoked call handler data err response :: post) :
    ∃ tx, Output.queued tx ∈ pre ∧ tx.call = call ∧ tx.responseHandler = handler ∧
      tx.responseHandlerData = data ∧ Reported z tx pre err response := by
  obtain ⟨d, before, reached, rfl, invokes⟩ := invoked_origin laws reach split
  obtain ⟨tx, queued, own, handled, given, reported⟩ := invokes.reported laws reached
  exact ⟨tx, List.mem_append_left _ queued, own, handled, given, reported⟩

end

/-- A request that is reset by the server. -/
def resetRun : EndpointConfig :=
  sampleRun [samplePost 0, .transmit (calmEnv 1 5),
    .receive (calmEnv 0 6) (sampleRx ⟨.reset, 0, 1, []⟩ serverAddr)]

theorem handler_contract_reset :
    ∃ tx, Output.queued tx ∈ resetRun.log.take 5 ∧ tx.call = 0 ∧ tx.responseHandler = .postHandler ∧
      tx.responseHandlerData = ⟨0, serverAddr⟩ ∧
      Reported rfcZephyr tx (resetRun.log.take 5) (-ecanceled) none :=
  have split : resetRun.log = resetRun.log.take 5 ++
      .invoked 0 .postHandler ⟨0, serverAddr⟩ (-ecanceled) none :: resetRun.log.drop 6 := by decide +kernel
  handler_contract rfcZephyr_encodes (sampleRun_reachable _) split

/-! ## What `coap_endpoint_post` returns -/

theorem Move.posted_nonpos {v v' : View} {event : Event} {outs : List Output}
    (move : Move z v event outs v') {call : Nat} {handler : ResponseHandler} {data : HandlerData}
    {ret : Int} (posted : Output.posted call handler data ret ∈ outs) : ret ≤ 0 := by
  cases move.explained _ posted with
  | handler absurd => cases absurd
  | posted =>
    cases move with
    | refused negative released => rcases released with rfl | rfl <;> simp at posted <;> omega
    | queued => simp at posted; omega
    | idle => cases posted

/-- What a call of `coap_endpoint_post` has returned, after a history: an error before anything was
queued, an error of the exchange, or the code of the response. -/
inductive PostReturns (z : Zephyr) (log : List Output) (call : Nat) : Int → Prop
  | refused (err : Int) : err < 0 → (∀ tx, Output.queued tx ∈ log → tx.call ≠ call) →
      PostReturns z log call err
  | failed (tx : PacketTxDataItem) (err : Int) : Output.queued tx ∈ log → tx.call = call →
      err ∈ [-eagain, -ecanceled, -enomem] → PostReturns z log call err
  | answered (tx : PacketTxDataItem) (rx : PacketRxDataItem) : Output.queued tx ∈ log → tx.call = call →
      Output.received rx ∈ log → Concerns z tx rx → isResponse z rx.packet = true →
      PostReturns z log call (z.coapHeaderGetCode rx.packet).toNat

/-- `coap_endpoint_post` returns a negative error code, or the code of a response that was received
from where the request went and carries its id or its token. -/
theorem post_contract (laws : z.Encodes) {app : App} {sock : Int} {resources : List CoapResource}
    {c : CallersConfig} (reach : (callers z app sock resources).Reachable anyCall c)
    {pre post : List CallersOutput} {call : Nat} {value : Int}
    (split : c.log = pre ++ .returned call value :: post) :
    PostReturns z (endpointLog pre) call value := by
  have below := callers_endpoint reach
  have earlier : c.endpoint.log = endpointLog pre ++ endpointLog post := by
    simp only [CallersConfig.endpoint, split, endpointLog_append]
    rfl
  have kept : endpointLog pre ⊆ c.endpoint.log := by
    rw [earlier]
    exact List.subset_append_left _ _
  cases returned_settled laws reach split with
  | refused data failed posted =>
    obtain ⟨d, event, reached, _, _, new⟩ := below.origin_of_mem (kept posted)
    have move := step_refines app laws d.state event (reachable_allPosts laws reached)
    have negative := move.posted_nonpos new
    refine .refused value (by omega) fun tx queued => ?_
    exact (refused_never_invoked laws below (kept posted) failed).1 tx (kept queued)
  | handled handled =>
    obtain ⟨data, err, response, _, _, invoked, rfl⟩ := handled
    obtain ⟨before, after, at_⟩ := List.append_of_mem invoked
    have whole : c.endpoint.log = before ++
        .invoked call .postHandler data err response :: (after ++ endpointLog post) := by
      rw [earlier, at_, List.append_assoc, List.cons_append]
    obtain ⟨d, outs, reached, rfl, invokes⟩ := invoked_origin laws below whole
    obtain ⟨tx, queued, own, _, _, reported⟩ := invokes.reported laws reached
    have early {o : Output} (member : o ∈ d.log ++ outs) : o ∈ endpointLog pre := by
      rw [at_]
      exact List.mem_append_left _ member
    have queued := early (List.mem_append_left _ queued)
    generalize d.log ++ outs = history at reported early
    cases reported with
    | answered log rx concerns answer =>
      have value : result z 0 (some rx.packet) = (z.coapHeaderGetCode rx.packet).toNat := rfl
      rw [value]
      exact .answered tx rx queued own (early (by simp)) concerns answer
    | timedOut | canceled | noMemory =>
      exact .failed tx _ queued own (by simp [result, eagain, ecanceled, enomem])

theorem post_contract_answered :
    PostReturns rfcZephyr (endpointLog (interleavedCalls.log.take 18)) 1 0x41 :=
  have split : interleavedCalls.log =
      interleavedCalls.log.take 18 ++ .returned 1 0x41 :: [.returned 0 (-ecanceled)] := by decide +kernel
  post_contract rfcZephyr_encodes (Machine.reachable_run _ (Machine.admits_true _ _)) split

end DtApp.Coap
