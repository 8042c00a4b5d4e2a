import Mathlib.Data.Multiset.Count
import DtApp.Coap.Steps

/-!
# The life of a request

An abstract model of the endpoint: a queue of posted requests, a bag of requests in flight,
and moves between them. It forgets the order of the table and how packets are encoded.
`step_refines` connects it to the code: as long as everything queued and in flight was made
by `coap_endpoint_post_async`, each step of the endpoint is a move.
-/
namespace DtApp.Coap

/-- The endpoint as the abstract model sees it. -/
structure View where
  queue : List PacketTxDataItem
  table : Multiset InflightPacket
  posts : Nat

def EndpointState.view (s : EndpointState) : View := ⟨s.txFifo, s.ep.inflight.items, s.posts⟩

/-- The call of a request's handler, what the handler does, and the release of its buffer. -/
def completion (call : Nat) (handler : ResponseHandler) (data : HandlerData) (err : Int)
    (response : Option CoapPacket) (effects : List Output) : List Output :=
  .invoked call handler data err response :: effects ++ [.freed call]

def InflightPacket.completion (e : InflightPacket) (err : Int) (response : Option CoapPacket)
    (effects : List Output) : List Output :=
  Coap.completion e.call e.responseHandler e.responseHandlerData err response effects

/-- The moves, each with the event that causes it and what is observed. -/
inductive Move (z : Zephyr) : View → Event → List Output → View → Prop
  -- `coap_endpoint_post_async`, from any thread
  | refused {v env args err freed} : err < 0 → freed = [] ∨ freed = [Output.freed v.posts] →
      Move z v (.post env args)
        (freed ++ [.posted v.posts args.responseHandler args.responseHandlerData err])
        ⟨v.queue, v.table, v.posts + 1⟩
  | queued {v env args packet} :
      z.Built ⟨.con, coapMethodPost, env.nextId, env.nextToken.val⟩ (some v.posts) packet →
      Move z v (.post env args)
        [.queued (txItem v.posts args packet),
          .posted v.posts args.responseHandler args.responseHandlerData 0]
        ⟨v.queue ++ [txItem v.posts args packet], v.table, v.posts + 1⟩
  -- nothing to transmit, or no entry to wait for
  | idle {v e} : Move z v e [] v
  -- `transmit_packet`, with and without memory for a longer table
  | stored {env tx queue table posts sock} :
      Move z ⟨tx :: queue, table, posts⟩ (.transmit env)
        [.armed tx.call env.uptime env.rand, .sendto (some tx.call) sock tx.packet tx.addr]
        ⟨queue, fillInflight z env tx ::ₘ table, posts⟩
  | dropped {env tx queue table posts effects} : Quiet effects →
      Move z ⟨tx :: queue, table, posts⟩ (.transmit env)
        (completion tx.call tx.responseHandler tx.responseHandlerData (-enomem) none effects)
        ⟨queue, table, posts⟩
  -- `retransmit_packet`, below and above the limit
  | resent {env polledAt queue table posts sock} (e : InflightPacket) : e.retransmit = true →
      (retransmitted e).retransmissionCount ≤ maxRetransmissionCount →
      Move z ⟨queue, e ::ₘ table, posts⟩ (.timeout env polledAt)
        [.expired e.call, .sendto (some e.call) sock e.packet e.addr]
        ⟨queue, retransmitted e ::ₘ table, posts⟩
  | gaveUp {env polledAt queue table posts effects} (e : InflightPacket) : e.retransmit = true →
      maxRetransmissionCount < (retransmitted e).retransmissionCount → Quiet effects →
      Move z ⟨queue, e ::ₘ table, posts⟩ (.timeout env polledAt)
        (.expired e.call :: e.completion (-eagain) none effects) ⟨queue, table, posts⟩
  -- `receive_packet`: a request or a packet that nobody waits for, and the three ways in which
  -- a packet can concern an entry
  | unclaimed {v env rx effects} : Quiet effects →
      Move z v (.receive env rx) (.received rx :: effects) v
  | canceled {env rx queue table posts effects} (e : InflightPacket) :
      matchesInflight z rx e = true → isRequest z rx.packet = false →
      z.coapHeaderGetType rx.packet = .reset → Quiet effects →
      Move z ⟨queue, e ::ₘ table, posts⟩ (.receive env rx)
        (.received rx :: e.completion (-ecanceled) none effects) ⟨queue, table, posts⟩
  | completed {env rx queue table posts effects} (e : InflightPacket) :
      matchesInflight z rx e = true → isResponse z rx.packet = true →
      z.coapHeaderGetType rx.packet ≠ .reset → Quiet effects →
      Move z ⟨queue, e ::ₘ table, posts⟩ (.receive env rx)
        (.received rx :: e.completion 0 (some rx.packet) effects) ⟨queue, table, posts⟩
  | acknowledged {env rx queue table posts} (e : InflightPacket) :
      matchesInflight z rx e = true → z.coapHeaderGetCode rx.packet = coapCodeEmpty →
      z.coapHeaderGetType rx.packet ≠ .reset →
      Move z ⟨queue, e ::ₘ table, posts⟩ (.receive env rx) [.received rx]
        ⟨queue, { e with retransmit := false } ::ₘ table, posts⟩

/-- Everything queued or in flight was encoded by `coap_endpoint_post_async`. -/
structure View.AllPosts (z : Zephyr) (v : View) : Prop where
  queue : ∀ tx ∈ v.queue, PostPacket z tx.call tx.packet
  table : ∀ e ∈ v.table, PostPacket z e.call e.packet

variable {z : Zephyr}

/-! ## What a move puts out and leaves in the table -/

/-- The outputs that an event can have, each with the request it is about. -/
inductive Explained (z : Zephyr) (v : View) : Event → Output → Prop
  -- any handler may run in any step, and any completion releases a buffer
  | handler {event o} : o.fromHandler = true → Explained z v event o
  | freed {event} (call : Nat) : Explained z v event (.freed call)
  | posted {env args} (ret : Int) : Explained z v (.post env args)
      (.posted v.posts args.responseHandler args.responseHandlerData ret)
  | queued {env args packet} :
      z.Built ⟨.con, coapMethodPost, env.nextId, env.nextToken.val⟩ (some v.posts) packet →
      Explained z v (.post env args) (.queued (txItem v.posts args packet))
  | armed {env tx} : tx ∈ v.queue →
      Explained z v (.transmit env) (.armed tx.call env.uptime env.rand)
  | transmitted {env tx} (sock : Int) : tx ∈ v.queue →
      Explained z v (.transmit env) (.sendto (some tx.call) sock tx.packet tx.addr)
  | dropped {env tx err} : tx ∈ v.queue → err = -enomem → Explained z v (.transmit env)
      (.invoked tx.call tx.responseHandler tx.responseHandlerData err none)
  | expired {env polledAt e} : e ∈ v.table → Explained z v (.timeout env polledAt) (.expired e.call)
  | resent {env polledAt e} (sock : Int) : e ∈ v.table →
      Explained z v (.timeout env polledAt) (.sendto (some e.call) sock e.packet e.addr)
  | gaveUp {env polledAt e err} : e ∈ v.table → err = -eagain → Explained z v (.timeout env polledAt)
      (.invoked e.call e.responseHandler e.responseHandlerData err none)
  | received {env rx} : Explained z v (.receive env rx) (.received rx)
  | canceled {env rx e err} : e ∈ v.table → err = -ecanceled → Explained z v (.receive env rx)
      (.invoked e.call e.responseHandler e.responseHandlerData err none)
  | completed {env rx e err} : e ∈ v.table → matchesInflight z rx e = true →
      isResponse z rx.packet = true → err = 0 → Explained z v (.receive env rx)
      (.invoked e.call e.responseHandler e.responseHandlerData err (some rx.packet))

theorem completion_explained {v : View} {event : Event} {call : Nat} {handler : ResponseHandler}
    {data : HandlerData} {err : Int} {response : Option CoapPacket} {effects : List Output}
    (quiet : Quiet effects) (invoked : Explained z v event (.invoked call handler data err response))
    (o : Output) (member : o ∈ completion call handler data err response effects) :
    Explained z v event o := by
  simp only [completion, List.cons_append, List.mem_cons, List.mem_append, List.not_mem_nil,
    or_false] at member
  rcases member with rfl | effect | rfl
  · exact invoked
  · exact .handler (quiet o effect)
  · exact .freed call

/-- Every output of a move is explained by its event. -/
theorem Move.explained {v v' : View} {event : Event} {outs : List Output}
    (move : Move z v event outs v') (o : Output) (member : o ∈ outs) : Explained z v event o := by
  cases move with
  | refused negative released =>
    rcases List.mem_append.mp member with freed | posted
    · rcases released with rfl | rfl
      · cases freed
      · rw [List.mem_singleton.mp freed]
        exact .freed v.posts
    · rw [List.mem_singleton.mp posted]
      exact .posted _
  | queued built =>
    rcases List.mem_cons.mp member with rfl | posted
    · exact .queued built
    · rw [List.mem_singleton.mp posted]
      exact .posted 0
  | idle => cases member
  | stored =>
    rcases List.mem_cons.mp member with rfl | sent
    · exact .armed List.mem_cons_self
    · rw [List.mem_singleton.mp sent]
      exact .transmitted _ List.mem_cons_self
  | dropped quiet => exact completion_explained quiet (.dropped List.mem_cons_self rfl) o member
  | resent e =>
    rcases List.mem_cons.mp member with rfl | sent
    · exact .expired (Multiset.mem_cons_self _ _)
    · rw [List.mem_singleton.mp sent]
      exact .resent _ (Multiset.mem_cons_self _ _)
  | gaveUp e armed limit quiet =>
    rcases List.mem_cons.mp member with rfl | ended
    · exact .expired (Multiset.mem_cons_self _ _)
    · exact completion_explained quiet (.gaveUp (Multiset.mem_cons_self _ _) rfl) o ended
  | unclaimed quiet =>
    rcases List.mem_cons.mp member with rfl | effect
    · exact .received
    · exact .handler (quiet o effect)
  | canceled e matched noRequest reset quiet =>
    rcases List.mem_cons.mp member with rfl | ended
    · exact .received
    · exact completion_explained quiet (.canceled (Multiset.mem_cons_self _ _) rfl) o ended
  | completed e matched response notReset quiet =>
    rcases List.mem_cons.mp member with rfl | ended
    · exact .received
    · exact completion_explained quiet
        (.completed (Multiset.mem_cons_self _ _) matched response rfl) o ended
  | acknowledged e =>
    rw [List.mem_singleton.mp member]
    exact .received

/-- An entry of the table after an event: an old one, the one for the item that was taken from
the queue, or an old one that the event changed. -/
inductive Remains (z : Zephyr) (v : View) : Event → InflightPacket → Prop
  | kept {event e} : e ∈ v.table → Remains z v event e
  | stored {env tx} : tx ∈ v.queue → Remains z v (.transmit env) (fillInflight z env tx)
  | resent {env polledAt e} : e ∈ v.table → e.retransmit = true →
      Remains z v (.timeout env polledAt) (retransmitted e)
  | acknowledged {env rx e} : e ∈ v.table →
      Remains z v (.receive env rx) { e with retransmit := false }

theorem Move.remains {v v' : View} {event : Event} {outs : List Output}
    (move : Move z v event outs v') (e : InflightPacket) (member : e ∈ v'.table) :
    Remains z v event e := by
  cases move with
  | stored =>
    rcases Multiset.mem_cons.mp member with rfl | old
    · exact .stored List.mem_cons_self
    · exact .kept old
  | resent e armed =>
    rcases Multiset.mem_cons.mp member with rfl | old
    · exact .resent (Multiset.mem_cons_self _ _) armed
    · exact .kept (Multiset.mem_cons_of_mem old)
  | acknowledged e =>
    rcases Multiset.mem_cons.mp member with rfl | old
    · exact .acknowledged (Multiset.mem_cons_self _ _)
    · exact .kept (Multiset.mem_cons_of_mem old)
  -- an entry is taken out and nothing put in
  | gaveUp | canceled | completed => exact .kept (Multiset.mem_cons_of_mem member)
  | refused | queued | idle | dropped | unclaimed => exact .kept member

theorem Move.waiting {v v' : View} {event : Event} {outs : List Output}
    (move : Move z v event outs v') (tx : PacketTxDataItem) (member : tx ∈ v'.queue) :
    tx ∈ v.queue ∨ Output.queued tx ∈ outs := by
  cases move with
  | queued =>
    rcases List.mem_append.mp member with old | new
    · exact .inl old
    · rw [List.mem_singleton.mp new]
      exact .inr List.mem_cons_self
  | stored | dropped => exact .inl (List.mem_cons_of_mem _ member)
  | refused | idle | resent | gaveUp | unclaimed | canceled | completed | acknowledged =>
    exact .inl member

/-- Only `coap_endpoint_post_async` queues. -/
theorem Move.queues {v v' : View} {event : Event} {outs : List Output}
    (move : Move z v event outs v') (tx : PacketTxDataItem) (member : Output.queued tx ∈ outs) :
    ∃ env args packet, event = .post env args ∧ tx = txItem v.posts args packet ∧
      PostPacket z v.posts packet := by
  cases move.explained _ member with
  | handler absurd => cases absurd
  | @queued env args packet built => exact ⟨env, args, packet, rfl, rfl, _, _, built⟩

/-- Moves keep requests requests. -/
theorem Move.allPosts (laws : z.Encodes) {v v' : View} {event : Event} {outs : List Output}
    (move : Move z v event outs v') (all : v.AllPosts z) : v'.AllPosts z := by
  constructor
  · intro tx member
    rcases move.waiting tx member with old | new
    · exact all.queue tx old
    · obtain ⟨env, args, packet, rfl, rfl, post⟩ := move.queues tx new
      exact post
  · intro e member
    cases move.remains e member with
    | kept old => exact all.table e old
    | @stored env tx queued =>
      -- a confirmable packet is stored as it is
      have post := all.queue tx queued
      rw [fillInflight_con z env tx (post.header laws).1]
      exact post
    | resent old | acknowledged old =>
      -- neither changes the call or the packet
      have post := all.table _ old
      exact post

/-! ## The endpoint refines the moves -/

theorem table_eq_cons (ep : CoapEndpoint) (i : Fin ep.inflight.len) :
    (ep.inflight.items : Multiset InflightPacket) = ep.inflight.get i ::ₘ ep.inflight.others i := by
  rw [Multiset.cons_coe, Multiset.coe_eq_coe]
  exact (ep.inflight.items_perm i).symm

theorem kFree_post {call : Nat} {p : CoapPacket} (laws : z.Encodes) (post : PostPacket z call p) :
    kFree p = [.freed call] := by
  rw [kFree, (post.header laws).2.2.2]
  rfl

section refinement

variable (app : App) (laws : z.Encodes)

include laws

theorem postStep_refines (env : Env) (s : EndpointState) (args : PostArgs) :
    Move z s.view (.post env args) (postStep z env s args).2 (postStep z env s args).1.view := by
  -- either an item is queued and 0 is returned, or nothing is queued and an error is returned
  rcases coapEndpointPostAsync_cases z env laws s.posts args with
    ⟨packet, built, posted⟩ | ⟨err, freed, negative, released, posted⟩
  · simp only [postStep, posted, Option.toList_some, List.map_cons, List.map_nil, List.nil_append,
      List.cons_append]
    exact .queued built
  · simp only [postStep, posted, Option.toList_none, List.map_nil, List.append_nil]
    exact .refused negative released

theorem transmitStep_refines (env : Env) (s : EndpointState) (all : s.view.AllPosts z) :
    Move z s.view (.transmit env) (transmitStep z app env s).2 (transmitStep z app env s).1.view := by
  obtain ⟨ep, txFifo, posts⟩ := s
  cases txFifo with
  | nil => exact .idle
  | cons tx rest =>
    have post := all.queue tx List.mem_cons_self
    simp only [transmitStep, transmitPacket_con z app env ep tx (post.header laws).1]
    by_cases room : env.calloc 0 = true
    · rw [if_pos room]
      -- in a multiset, the last place is the first
      have grown : (((ep.inflight.push (fillInflight z env tx)).items : List InflightPacket) :
          Multiset InflightPacket) = fillInflight z env tx ::ₘ ep.inflight.items := by
        rw [Bag.items_push, Multiset.cons_coe, Multiset.coe_eq_coe]
        exact List.perm_append_singleton _ _
      simp only [EndpointState.view, grown]
      exact .stored
    · rw [if_neg room]
      obtain ⟨effects, quiet, invoked⟩ := invokeHandler_eq z app env ep tx.call tx.responseHandler
        tx.responseHandlerData (-enomem) none
      rw [invoked, kFree_post laws post]
      exact .dropped quiet

theorem timeoutStep_refines (env : Env) (polledAt : Nat) (s : EndpointState)
    (all : s.view.AllPosts z) :
    Move z s.view (.timeout env polledAt) (timeoutStep z app env s).2
      (timeoutStep z app env s).1.view := by
  obtain ⟨ep, txFifo, posts⟩ := s
  cases selected : nextRetransmission ep with
  | none =>
    simp only [timeoutStep, selected]
    exact .idle
  | some i =>
    have armed := nextRetransmission_retransmit ep i selected
    have post := all.table _ (ep.inflight.get_mem i)
    simp only [timeoutStep, selected, EndpointState.view, table_eq_cons ep i]
    rcases retransmitPacket_cases z app env ep i with ⟨limit, removed, outs⟩ | ⟨below, changed, outs⟩
    · obtain ⟨effects, quiet, invoked⟩ := invokeHandler_eq z app env ep (ep.inflight.get i).call
        (ep.inflight.get i).responseHandler (ep.inflight.get i).responseHandlerData (-eagain) none
      rw [outs, invoked, kFree_post laws post, Multiset.coe_eq_coe.mpr removed]
      exact .gaveUp _ armed limit quiet
    · rw [outs, Multiset.coe_eq_coe.mpr changed, ← Multiset.cons_coe]
      exact .resent _ armed below

theorem completeInflight_refines (env : Env) (ep : CoapEndpoint) (i : Fin ep.inflight.len) (err : Int)
    (response : Option CoapPacket)
    (post : PostPacket z (ep.inflight.get i).call (ep.inflight.get i).packet) :
    ∃ effects, Quiet effects ∧
      (completeInflight z app env ep i err response).2 =
        (ep.inflight.get i).completion err response effects ∧
      ((completeInflight z app env ep i err response).1.inflight.items : Multiset InflightPacket) =
        ep.inflight.others i := by
  obtain ⟨effects, quiet, invoked⟩ := invokeHandler_eq z app env ep (ep.inflight.get i).call
    (ep.inflight.get i).responseHandler (ep.inflight.get i).responseHandlerData err response
  refine ⟨effects, quiet, ?_, Multiset.coe_eq_coe.mpr (ep.inflight.swapRemove_perm i)⟩
  simp only [completeInflight, freeInflightPacket, invoked, kFree_post laws post]
  rfl

theorem receiveStep_refines (env : Env) (rx : PacketRxDataItem) (s : EndpointState)
    (all : s.view.AllPosts z) :
    Move z s.view (.receive env rx) (receiveStep z app env s rx).2
      (receiveStep z app env s rx).1.view := by
  obtain ⟨ep, txFifo, posts⟩ := s
  have posted : ∀ i, PostPacket z (ep.inflight.get i).call (ep.inflight.get i).packet :=
    fun i => all.table _ (ep.inflight.get_mem i)
  have cases := receivePacket_cases z app env ep rx
  simp only [receiveStep]
  -- the result is forgotten, only the way it came about is kept
  generalize (receivePacket z app env ep rx).1 = ep' at cases
  generalize (receivePacket z app env ep rx).2 = outs at cases
  cases cases with
  -- a request does not touch the table
  | request => exact .unclaimed (receiveRequest_quiet z app env ep rx)
  | canceled i noRequest found reset =>
    obtain ⟨effects, quiet, outs, table⟩ :=
      completeInflight_refines app laws env ep i (-ecanceled) none (posted i)
    simp only [EndpointState.view, outs, table, table_eq_cons ep i]
    exact .canceled _ (ep.inflight.find?_some _ i found) noRequest reset quiet
  | completed i response found notReset =>
    obtain ⟨effects, quiet, outs, table⟩ :=
      completeInflight_refines app laws env ep i 0 (some rx.packet) (posted i)
    simp only [EndpointState.view, outs, table, table_eq_cons ep i]
    exact .completed _ (ep.inflight.find?_some _ i found) response notReset quiet
  | acknowledged i empty found notReset =>
    have table := Multiset.coe_eq_coe.mpr
      (ep.inflight.set_perm i { ep.inflight.get i with retransmit := false })
    simp only [EndpointState.view, table, table_eq_cons ep i, ← Multiset.cons_coe]
    exact .acknowledged _ (ep.inflight.find?_some _ i found) empty notReset
  | answered i empty found notReset answer =>
    -- no posted request has a response's code
    have contradiction := responseCode_of_request _ ((posted i).isRequest laws)
    rw [isResponse, contradiction] at answer
    cases answer
  | unclaimed => exact .unclaimed (rejectPacket_quiet z env ep rx)
  | unmatched => exact .unclaimed (rejectPacket_quiet z env ep rx)

/-- Each step of the endpoint is a move of the abstract model. -/
theorem step_refines (s : EndpointState) (e : Event) (all : s.view.AllPosts z) :
    Move z s.view e (step z app s e).2 (step z app s e).1.view := by
  cases e with
  | post env args => exact postStep_refines laws env s args
  | transmit env => exact transmitStep_refines app laws env s all
  | timeout env polledAt => exact timeoutStep_refines app laws env polledAt s all
  | receive env rx => exact receiveStep_refines app laws env rx s all

end refinement

/-! ## Runs -/

section runs

variable {app : App} {sock : Int} {resources : List CoapResource} {ok : EndpointConfig → Event → Prop}

theorem reachable_allPosts (laws : z.Encodes) {c : EndpointConfig}
    (reach : (endpoint z app sock resources).Reachable ok c) : c.state.view.AllPosts z := by
  have init : View.AllPosts z ⟨[], 0, 0⟩ :=
    ⟨fun _ member => absurd member List.not_mem_nil, fun _ member => absurd member (Multiset.notMem_zero _)⟩
  -- a step is a move because of what the run has queued so far
  refine reach.invariant (fun c => c.state.view.AllPosts z) init ?_
  intro c e _ _ all
  exact (step_refines app laws c.state e all).allPosts laws all

/-- The invariant rule of the abstract model: a property of the view and the history that
holds of a fresh endpoint and is kept by moves holds in every reachable configuration. -/
theorem reachable_invariant (laws : z.Encodes) (Inv : View → List Output → Prop)
    (init : Inv ⟨[], 0, 0⟩ [])
    (move : ∀ v log e outs v', v.AllPosts z → Move z v e outs v' → Inv v log → Inv v' (log ++ outs))
    {c : EndpointConfig} (reach : (endpoint z app sock resources).Reachable ok c) :
    Inv c.state.view c.log := by
  refine reach.invariant (fun c => Inv c.state.view c.log) init ?_
  intro c e reached _ inv
  have all := reachable_allPosts laws reached
  exact move _ _ _ _ _ all (step_refines app laws c.state e all) inv

end runs

end DtApp.Coap
