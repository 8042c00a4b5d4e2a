import Mathlib.Algebra.BigOperators.Group.Multiset.Basic
import DtApp.Coap.Callers
import DtApp.Coap.Exchanges
import DtApp.Coap.Schedule

/-!
# Requests in the long run

A request whose flag was cleared is left alone until a packet ends it. A request that is
armed is given up after enough timeouts, whatever else is posted and transmitted.
-/
namespace DtApp.Coap

/-! ## Requests that wait for a separate response -/

/-- The request was transmitted, and its entry, as long as there is one, is this one. -/
structure Parked (e : InflightPacket) (v : View) : Prop where
  made : e.call < v.posts
  dequeued : queuedFor e.call v.queue = 0
  only : ∀ e' ∈ v.table, e'.call = e.call → e' = e

variable {z : Zephyr}

theorem Parked.other {e e' : InflightPacket} {v : View} (parked : Parked e v)
    (unarmed : e.retransmit = false) (member : e' ∈ v.table) (armed : e'.retransmit = true) :
    e.call ≠ e'.call := by
  intro same
  rw [parked.only e' member same.symm, unarmed] at armed
  cases armed

theorem Move.parked {e : InflightPacket} {v v' : View} {event : Event} {outs : List Output}
    (move : Move z v event outs v') (unarmed : e.retransmit = false) (parked : Parked e v) :
    Parked e v' := by
  obtain ⟨made, dequeued⟩ := move.dequeued parked.made parked.dequeued
  refine ⟨made, dequeued, fun e' member same => ?_⟩
  obtain ⟨e₀, old, call, rfl | ⟨armed, _⟩ | rfl⟩ := move.earlier parked.dequeued e' member same
  · exact parked.only _ old call
  · exact absurd call.symm (parked.other unarmed old armed)
  · -- the flag is cleared a second time
    rw [parked.only e₀ old call, ← unarmed]

theorem completion_eagain (call other : Nat) (handler handler' : ResponseHandler)
    (data data' : HandlerData) (err : Int) (response response' : Option CoapPacket)
    (effects : List Output) (quiet : Quiet effects) (apart : call ≠ other ∨ err ≠ -eagain) :
    Output.invoked call handler' data' (-eagain) response' ∉
      completion other handler data err response effects := by
  have effect := quiet.notMem (o := .invoked call handler' data' (-eagain) response') rfl
  simp only [completion, List.cons_append, List.mem_cons, Output.invoked.injEq, List.mem_append, effect,
    reduceCtorEq, List.not_mem_nil, or_false, not_and]
  rintro same _ _ eq
  rcases apart with different | other
  · exact absurd same different
  · exact absurd eq.symm other

/-- Nothing is sent for a request that waits, and it is not given up. -/
theorem Move.quiescent {e : InflightPacket} {v v' : View} {event : Event} {outs : List Output}
    (move : Move z v event outs v') (unarmed : e.retransmit = false) (parked : Parked e v) :
    Untimed e.call outs ∧ ∀ handler data response,
      Output.invoked e.call handler data (-Coap.eagain) response ∉ outs := by
  cases move with
  | refused negative released => rcases released with rfl | rfl <;> simp [Untimed, Output.timed]
  | queued => simp [Untimed, Output.timed]
  | idle => simp [Untimed]
  | @stored env tx =>
    have different : tx.call ≠ e.call :=
      (queuedFor_eq_zero _ _).mp parked.dequeued tx List.mem_cons_self
    simp [Untimed, Output.timed, different]
  | dropped quiet =>
    exact ⟨completion_untimed _ _ _ _ _ _ _ quiet, fun _ _ _ =>
      completion_eagain _ _ _ _ _ _ _ _ _ _ quiet (.inr (by decide))⟩
  | resent e₀ armed =>
    have different := (parked.other unarmed (Multiset.mem_cons_self _ _) armed).symm
    simp [Untimed, Output.timed, different]
  | gaveUp e₀ armed limit quiet =>
    have different := parked.other unarmed (Multiset.mem_cons_self _ _) armed
    refine ⟨(untimed_cons _ _ _).mpr ⟨by simp [Output.timed, different.symm], ?_⟩, fun _ _ _ => ?_⟩
    · exact completion_untimed _ _ _ _ _ _ _ quiet
    · rw [List.mem_cons, not_or]
      exact ⟨by simp, completion_eagain _ _ _ _ _ _ _ _ _ _ quiet (.inl different)⟩
  | unclaimed quiet =>
    refine ⟨(untimed_cons _ _ _).mpr ⟨rfl, quiet.untimed _⟩, fun handler data response => ?_⟩
    have effect := quiet.notMem (o := .invoked e.call handler data (-Coap.eagain) response) rfl
    simp [effect]
  | canceled e₀ matched noRequest reset quiet =>
    refine ⟨(untimed_cons _ _ _).mpr ⟨rfl, completion_untimed _ _ _ _ _ _ _ quiet⟩, fun _ _ _ => ?_⟩
    rw [List.mem_cons, not_or]
    exact ⟨by simp, completion_eagain _ _ _ _ _ _ _ _ _ _ quiet (.inr (by decide))⟩
  | completed e₀ matched response notReset quiet =>
    refine ⟨(untimed_cons _ _ _).mpr ⟨rfl, completion_untimed _ _ _ _ _ _ _ quiet⟩, fun _ _ _ => ?_⟩
    rw [List.mem_cons, not_or]
    exact ⟨by simp, completion_eagain _ _ _ _ _ _ _ _ _ _ quiet (.inr (by decide))⟩
  | acknowledged => simp [Untimed, Output.timed]

theorem completion_calls (call : Nat) (handler : ResponseHandler) (data : HandlerData) (err : Int)
    (response : Option CoapPacket) (effects : List Output) (quiet : Quiet effects) :
    handlerCalls (completion call handler data err response effects) =
      [(call, handler, data, err, response)] := by
  have silent := quiet.handlerCalls
  simp only [handlerCalls] at silent
  simp [completion, handlerCalls, silent]

/-- A packet from the entry's peer with its id or token ends its request: a reset cancels it, a
response is handed to its handler. -/
structure Ends (z : Zephyr) (e : InflightPacket) (event : Event) (outs : List Output) : Prop where
  packet : ∃ env rx, event = .receive env rx ∧ SameAddr rx e ∧ (SameId z rx e ∨ SameToken z rx e) ∧
    ((z.coapHeaderGetType rx.packet = .reset ∧
        handlerCalls outs = [(e.call, e.responseHandler, e.responseHandlerData, -ecanceled, none)]) ∨
      (z.coapHeaderGetType rx.packet ≠ .reset ∧ isResponse z rx.packet = true ∧
        handlerCalls outs = [(e.call, e.responseHandler, e.responseHandlerData, 0, some rx.packet)]))

/-- A request that waits stays in flight, unless the event ends it. -/
theorem Move.leaves {e : InflightPacket} {v v' : View} {event : Event} {outs : List Output}
    (move : Move z v event outs v') (unarmed : e.retransmit = false) (member : e ∈ v.table) :
    e ∈ v'.table ∨ Ends z e event outs := by
  -- an armed entry is not this one
  have apart : ∀ e₀ : InflightPacket, e₀.retransmit = true → e ≠ e₀ := by
    rintro e₀ armed rfl
    rw [unarmed] at armed
    cases armed
  cases move with
  | refused | queued | idle | dropped | unclaimed => exact .inl member
  | stored => exact .inl (Multiset.mem_cons_of_mem member)
  | resent e₀ armed =>
    exact .inl (Multiset.mem_cons_of_mem ((Multiset.mem_cons.mp member).resolve_left (apart e₀ armed)))
  | gaveUp e₀ armed => exact .inl ((Multiset.mem_cons.mp member).resolve_left (apart e₀ armed))
  | canceled e₀ matched noRequest reset quiet =>
    rcases Multiset.mem_cons.mp member with rfl | other
    · obtain ⟨addr, same⟩ := (matchesInflight_iff z _ _).mp matched
      exact .inr ⟨_, _, rfl, addr, same, .inl ⟨reset, completion_calls _ _ _ _ _ _ quiet⟩⟩
    · exact .inl other
  | completed e₀ matched response notReset quiet =>
    rcases Multiset.mem_cons.mp member with rfl | other
    · obtain ⟨addr, same⟩ := (matchesInflight_iff z _ _).mp matched
      exact .inr ⟨_, _, rfl, addr, same,
        .inr ⟨notReset, response, completion_calls _ _ _ _ _ _ quiet⟩⟩
    · exact .inl other
  | acknowledged e₀ =>
    rcases Multiset.mem_cons.mp member with rfl | other
    · rw [← unarmed]
      exact .inl (Multiset.mem_cons_self _ _)
    · exact .inl (Multiset.mem_cons_of_mem other)

/-- The entry's token, and no other request of its peer has this token or the packet's id. -/
structure OnlyFor (z : Zephyr) (ep : CoapEndpoint) (rx : PacketRxDataItem) (e : InflightPacket) :
    Prop where
  addr : SameAddr rx e
  token : SameToken z rx e
  alone : ∀ e' ∈ ep.inflight.items, e' ≠ e → SameAddr rx e' → ¬SameToken z rx e' ∧ ¬SameId z rx e'

/-- A response is handed to the one request that it can be for. -/
theorem response_completes (app : App) (env : Env) (ep : CoapEndpoint) (rx : PacketRxDataItem)
    (e : InflightPacket) (member : e ∈ ep.inflight.items) (response : isResponse z rx.packet = true)
    (notReset : z.coapHeaderGetType rx.packet ≠ .reset) (only : OnlyFor z ep rx e) :
    handlerCalls (receivePacket z app env ep rx).2 =
        [(e.call, e.responseHandler, e.responseHandlerData, 0, some rx.packet)] ∧
      (receivePacket z app env ep rx).1.inflight.items.Perm (ep.inflight.items.erase e) := by
  cases found : getInflightPacket z ep rx with
  | none =>
    have missed := (ep.inflight.find?_none _).mp found e member
    have matched := (matchesInflight_iff z rx e).mpr ⟨only.addr, .inr only.token⟩
    rw [missed] at matched
    cases matched
  | some i =>
    obtain ⟨⟨addr, same⟩, _⟩ := (getInflightPacket_eq_some_iff z ep rx i).mp found
    have eq : ep.inflight.get i = e := by
      by_contra different
      have neither := only.alone _ (ep.inflight.get_mem i) different addr
      exact same.elim neither.1 neither.2
    have completes := completes_of_found z app env ep rx response notReset i found
    refine ⟨by rw [completes.calls, eq], completes.table.trans ?_⟩
    -- taking out the cell is taking out the entry
    have table := (ep.inflight.items_perm i).symm.erase e
    rw [eq, List.erase_cons_head] at table
    exact table.symm

section runs

variable {app : App} {sock : Int} {resources : List CoapResource} {ok : EndpointConfig → Event → Prop}
  {c d : EndpointConfig}

theorem reachable_parked (laws : z.Encodes) (reach : (endpoint z app sock resources).Reachable ok c)
    (e : InflightPacket) (member : e ∈ c.state.ep.inflight.items) : Parked e c.state.view := by
  have counted := inflightFor_pos (Multiset.mem_coe.mpr member) rfl
  change 0 < inflightFor e.call c.state.view.table at counted
  have places : Places c.state.view := fun call =>
    (Nat.le_add_right _ _).trans (reachable_places laws reach call)
  obtain ⟨made, once⟩ := places.alone e.call (by omega)
  exact ⟨made, by omega, fun e' member' same =>
    entries_unique laws reach e e' member (Multiset.mem_coe.mp member') same⟩

/-- The handler of a request in flight was not called. -/
theorem reachable_uncalled (laws : z.Encodes) (reach : (endpoint z app sock resources).Reachable ok c)
    (e : InflightPacket) (member : e ∈ c.state.ep.inflight.items) :
    c.log.countP (Output.invokes e.call) = 0 := by
  have places := reachable_places laws reach e.call
  have counted := inflightFor_pos (Multiset.mem_coe.mpr member) rfl
  change 0 < inflightFor e.call c.state.view.table at counted
  split at places <;> omega

/-- What holds of a request with a cleared flag in a configuration after the given history. -/
structure WaitsQuietly (z : Zephyr) (app : App) (log : List Output) (e : InflightPacket)
    (d : EndpointConfig) : Prop where
  unchanged : ∀ e' ∈ d.state.ep.inflight.items, e'.call = e.call → e' = e
  unsent : sendsFor e.call d.log = sendsFor e.call log
  unselected : ∀ i, nextRetransmission d.state.ep = some i → (d.state.ep.inflight.get i).call ≠ e.call
  notGivenUp : ∀ handler data response, Output.invoked e.call handler data (-eagain) response ∉ d.log
  leaves : e ∈ d.state.ep.inflight.items → ∀ event,
    e ∈ (step z app d.state event).1.ep.inflight.items ∨ Ends z e event (step z app d.state event).2
  answered : e ∈ d.state.ep.inflight.items → ∀ env rx, isResponse z rx.packet = true →
    z.coapHeaderGetType rx.packet ≠ .reset → OnlyFor z d.state.ep rx e →
    handlerCalls (receivePacket z app env d.state.ep rx).2 =
        [(e.call, e.responseHandler, e.responseHandlerData, 0, some rx.packet)] ∧
      (receivePacket z app env d.state.ep rx).1.inflight.items.Perm (d.state.ep.inflight.items.erase e)

/-- An acknowledged request waits quietly for its response, in every continuation of the run. -/
theorem acknowledged_waits (laws : z.Encodes) (reach : (endpoint z app sock resources).Reachable ok c)
    (e : InflightPacket) (member : e ∈ c.state.ep.inflight.items) (unarmed : e.retransmit = false)
    (leads : (endpoint z app sock resources).Leads ok c d) : WaitsQuietly z app c.log e d := by
  have start := reachable_parked laws reach e member
  have never : ∀ handler data response,
      Output.invoked e.call handler data (-eagain) response ∉ c.log := by
    intro handler data response invoked
    have called : 0 < c.log.countP (Output.invokes e.call) :=
      List.countP_pos_iff.mpr ⟨_, invoked, by simp [Output.invokes]⟩
    rw [reachable_uncalled laws reach e member] at called
    cases called
  -- what holds now and is kept by every step
  have later := leads.stable (fun d => (endpoint z app sock resources).Reachable ok d ∧
    Parked e d.state.view ∧ sendsFor e.call d.log = sendsFor e.call c.log ∧
    ∀ handler data response, Output.invoked e.call handler data (-eagain) response ∉ d.log) ?_
    ⟨reach, start, rfl, never⟩
  · obtain ⟨reached, parked, unsent, notGivenUp⟩ := later
    refine ⟨fun e' member' same => parked.only e' (Multiset.mem_coe.mpr member') same, unsent, ?_,
      notGivenUp, ?_, ?_⟩
    · intro i selected
      have armed := nextRetransmission_retransmit d.state.ep i selected
      exact (parked.other unarmed (Multiset.mem_coe.mpr (d.state.ep.inflight.get_mem i)) armed).symm
    · intro here event
      have move := step_refines app laws d.state event (reachable_allPosts laws reached)
      exact (move.leaves unarmed (Multiset.mem_coe.mpr here)).imp_left Multiset.mem_coe.mp
    · intro here env rx response notReset only
      exact response_completes app env d.state.ep rx e here response notReset only
  · rintro d event admissible ⟨reached, parked, unsent, notGivenUp⟩
    have move := step_refines app laws d.state event (reachable_allPosts laws reached)
    obtain ⟨untimed, silent⟩ := move.quiescent unarmed parked
    refine ⟨reached.next admissible, move.parked unarmed parked, ?_, ?_⟩
    · change sendsFor e.call (d.log ++ _) = _
      rw [sendsFor_append, unsent]
      change _ ++ sendsFor e.call (step z app d.state event).2 = _
      rw [untimed.sendsFor, List.append_nil]
    · intro handler data response invoked
      rcases List.mem_append.mp invoked with old | new
      · exact notGivenUp handler data response old
      · exact silent handler data response new

end runs

/-! ## Requests that are given up -/

/-- How many timeouts an entry can still take. -/
def timeoutsLeft (e : InflightPacket) : Nat :=
  if e.retransmit then maxRetransmissionCount + 1 - e.retransmissionCount else 0

/-- How many timeouts the armed entries can take together. -/
def patience (table : Multiset InflightPacket) : Nat := (table.map timeoutsLeft).sum

@[simp] theorem patience_cons (e : InflightPacket) (table : Multiset InflightPacket) :
    patience (e ::ₘ table) = timeoutsLeft e + patience table := by
  simp [patience]

/-- Every armed entry has timeouts left. -/
def Bounded (table : Multiset InflightPacket) : Prop :=
  ∀ e ∈ table, e.retransmit = true → e.retransmissionCount ≤ maxRetransmissionCount

theorem Bounded.pos {table : Multiset InflightPacket} (bounded : Bounded table) (e : InflightPacket)
    (member : e ∈ table) (armed : e.retransmit = true) : 0 < patience table := by
  obtain ⟨rest, rfl⟩ := Multiset.exists_cons_of_mem member
  have count := bounded e member armed
  rw [patience_cons, timeoutsLeft, if_pos armed]
  omega

/-- The packet of a transmission gets five timeouts, and every timeout takes one away. -/
theorem Move.patience {v v' : View} {event : Event} {outs : List Output}
    (move : Move z v event outs v') (bounded : Bounded v.table) :
    match event with
    | .post .. => patience v'.table = patience v.table
    | .transmit _ => patience v'.table ≤ patience v.table + (maxRetransmissionCount + 1)
    | .timeout .. => outs ≠ [] → patience v'.table + 1 = patience v.table
    | .receive .. => True := by
  cases move with
  | refused | queued => rfl
  | @idle v event => cases event <;> simp
  | @stored env tx =>
    have most : timeoutsLeft (fillInflight z env tx) ≤ maxRetransmissionCount + 1 := by
      rw [timeoutsLeft]
      split <;> omega
    simp only [patience_cons]
    omega
  | dropped => exact Nat.le_add_right _ _
  | resent e armed below =>
    have count := bounded e (Multiset.mem_cons_self _ _) armed
    have still : (retransmitted e).retransmit = true := armed
    intro _
    simp only [patience_cons, timeoutsLeft, armed, still, if_true]
    simp only [retransmitted, maxRetransmissionCount] at below count ⊢
    omega
  | gaveUp e armed limit =>
    have count := bounded e (Multiset.mem_cons_self _ _) armed
    intro _
    simp only [patience_cons, timeoutsLeft, armed, if_true]
    simp only [retransmitted, maxRetransmissionCount] at limit count ⊢
    omega
  | unclaimed | canceled | completed | acknowledged => trivial

/-- The request of the entry is armed. -/
def StillArmed (e : InflightPacket) (table : Multiset InflightPacket) : Prop :=
  ∃ e' ∈ table, e'.retransmit = true ∧ e'.call = e.call ∧ e'.responseHandler = e.responseHandler ∧
    e'.responseHandlerData = e.responseHandlerData

/-- As long as nothing is received, an armed request stays armed until it is given up. -/
theorem Move.stillArmed {e : InflightPacket} {v v' : View} {event : Event} {outs : List Output}
    (move : Move z v event outs v') (silent : ∀ env rx, event ≠ .receive env rx)
    (armed : StillArmed e v.table) : StillArmed e v'.table ∨
      Output.invoked e.call e.responseHandler e.responseHandlerData (-Coap.eagain) none ∈ outs := by
  obtain ⟨e', member, on, call, handler, data⟩ := armed
  cases move with
  | refused | queued | idle | dropped => exact .inl ⟨e', member, on, call, handler, data⟩
  | stored => exact .inl ⟨e', Multiset.mem_cons_of_mem member, on, call, handler, data⟩
  | resent e₀ =>
    rcases Multiset.mem_cons.mp member with rfl | other
    · exact .inl ⟨_, Multiset.mem_cons_self _ _, on, call, handler, data⟩
    · exact .inl ⟨e', Multiset.mem_cons_of_mem other, on, call, handler, data⟩
  | gaveUp e₀ =>
    rcases Multiset.mem_cons.mp member with rfl | other
    · rw [← call, ← handler, ← data]
      exact .inr (List.mem_cons_of_mem _ List.mem_cons_self)
    · exact .inl ⟨e', other, on, call, handler, data⟩
  | unclaimed | canceled | completed | acknowledged => exact absurd rfl (silent _ _)

def Event.isTimeout : Event → Bool
  | .timeout .. => true
  | _ => false

def Event.isTransmit : Event → Bool
  | .transmit _ => true
  | _ => false

def Event.isReceive : Event → Bool
  | .receive .. => true
  | _ => false

section runs

variable {app : App} {sock : Int} {resources : List CoapResource}
  {c : EndpointConfig}

theorem reachable_bounded (laws : z.Encodes) {ok : EndpointConfig → Event → Prop}
    (reach : (endpoint z app sock resources).Reachable ok c) : Bounded c.state.view.table := by
  intro e member armed
  obtain ⟨start, rand, _, scheduled⟩ := (reachable_timed laws reach).table e member
  exact (scheduled armed).count

/-- A timeout of an endpoint with an armed entry is a timeout of some entry. -/
theorem timeoutStep_effective (env : Env) (s : EndpointState) (e : InflightPacket)
    (member : e ∈ s.ep.inflight.items) (armed : e.retransmit = true) : (timeoutStep z app env s).2 ≠ [] := by
  cases selected : nextRetransmission s.ep with
  | none =>
    rw [(nextRetransmission_eq_none_iff s.ep).mp selected e member] at armed
    cases armed
  | some i => simp [timeoutStep, selected]

/-- Enough timeouts give an armed request up. -/
theorem given_up (laws : z.Encodes) (es : List Event) (c : EndpointConfig)
    (reach : (endpoint z app sock resources).Reachable anyEvent c) (e : InflightPacket)
    (armed : StillArmed e c.state.view.table) (silent : ∀ event ∈ es, event.isReceive = false)
    (enough : patience c.state.view.table + (maxRetransmissionCount + 1) * es.countP Event.isTransmit ≤
      es.countP Event.isTimeout) :
    Output.invoked e.call e.responseHandler e.responseHandlerData (-eagain) none ∈
      ((endpoint z app sock resources).run c es).log := by
  have bounded := reachable_bounded laws reach
  induction es generalizing c with
  | nil =>
    -- an armed entry has a timeout left
    obtain ⟨e', member, on, _⟩ := armed
    have left := bounded.pos e' member on
    simp only [List.countP_nil] at enough
    omega
  | cons event es ih =>
    have move := step_refines app laws c.state event (reachable_allPosts laws reach)
    have quiet : ∀ env rx, event ≠ .receive env rx := by
      rintro env rx rfl
      exact absurd (silent _ List.mem_cons_self) (by simp [Event.isReceive])
    have next := reach.next (e := event) trivial
    rcases move.stillArmed quiet armed with still | ended
    · have taken := move.patience bounded
      refine ih ((endpoint z app sock resources).next c event) next still
        (fun other member => silent other (List.mem_cons_of_mem _ member)) ?_
        (reachable_bounded laws next)
      change patience (step z app c.state event).1.view.table + _ ≤ _
      simp only [maxRetransmissionCount, List.countP_cons] at enough taken ⊢
      cases event with
      | post env args =>
        simp only [Event.isTransmit, Event.isTimeout, Bool.false_eq_true, if_false] at enough taken
        omega
      | transmit env =>
        simp only [Event.isTransmit, Event.isTimeout, Bool.false_eq_true, if_false, if_true] at enough taken
        omega
      | timeout env polledAt =>
        obtain ⟨e', member, on, _⟩ := armed
        have less := taken (timeoutStep_effective env c.state e' (Multiset.mem_coe.mp member) on)
        simp only [Event.isTransmit, Event.isTimeout, Bool.false_eq_true, if_false, if_true] at enough
        omega
      | receive env rx => exact absurd rfl (quiet env rx)
    · -- the log keeps the call of the handler
      have later : (endpoint z app sock resources).Leads anyEvent _
          ((endpoint z app sock resources).run ((endpoint z app sock resources).next c event) es) :=
        Machine.leads_run es _ (Machine.admits_true es _)
      exact later.log_prefix.subset (List.mem_append_right _ ended)

/-- A request whose flag is cleared stays in flight as long as nothing is received. -/
theorem parked_stays (laws : z.Encodes) (reach : (endpoint z app sock resources).Reachable anyEvent c)
    (e : InflightPacket) (member : e ∈ c.state.ep.inflight.items) (unarmed : e.retransmit = false)
    (es : List Event) (silent : ∀ event ∈ es, event.isReceive = false) :
    e ∈ ((endpoint z app sock resources).run c es).state.ep.inflight.items := by
  have leads := Machine.leads_run es c (Machine.admits_of_forall (m := endpoint z app sock resources) es silent c)
  have later := leads.stable (fun d => (endpoint z app sock resources).Reachable anyEvent d ∧
    e ∈ d.state.ep.inflight.items) ?_ ⟨reach, member⟩
  · exact later.2
  · rintro d event quiet ⟨reached, here⟩
    have move := step_refines app laws d.state event (reachable_allPosts laws reached)
    refine ⟨reached.next trivial, ?_⟩
    rcases move.leaves unarmed (Multiset.mem_coe.mpr here) with stays | ends
    · exact Multiset.mem_coe.mp stays
    · -- only a packet that is received ends it
      obtain ⟨env, rx, rfl, _⟩ := ends.packet
      cases quiet

/-- A request that does not wait for ever: an entry is selected, the request is on schedule, and when
nothing is received for enough timeouts, its handler is called with an error and a caller of
`coap_endpoint_post` is woken. -/
structure Covered (z : Zephyr) (app : App) (sock : Int) (resources : List CoapResource)
    (c : EndpointConfig) (e : InflightPacket) : Prop where
  selected : nextRetransmission c.state.ep ≠ none
  scheduled : ∃ start rand, armings e.call c.log = [(start, rand)] ∧ OnSchedule c.log e start rand
  givenUp : ∀ es : List Event, (∀ event ∈ es, event.isReceive = false) →
    patience c.state.view.table + (maxRetransmissionCount + 1) * es.countP Event.isTransmit ≤
      es.countP Event.isTimeout →
    Output.invoked e.call e.responseHandler e.responseHandlerData (-eagain) none ∈
        ((endpoint z app sock resources).run c es).log ∧
      (e.responseHandler = .postHandler →
        Output.ret e.responseHandlerData.frame (-eagain) ∈
            ((endpoint z app sock resources).run c es).log ∧
          Output.semGive e.responseHandlerData.frame ∈
            ((endpoint z app sock resources).run c es).log)

/-- A request that waits for ever when nothing is received: whatever is posted and transmitted and
however often `k_poll` times out, it stays in flight, its handler is not called and it is not selected. -/
structure Uncovered (z : Zephyr) (app : App) (sock : Int) (resources : List CoapResource)
    (c : EndpointConfig) (e : InflightPacket) : Prop where
  stays : ∀ es : List Event, (∀ event ∈ es, event.isReceive = false) →
    e ∈ ((endpoint z app sock resources).run c es).state.ep.inflight.items
  uncalled : ∀ es : List Event, (∀ event ∈ es, event.isReceive = false) →
    ((endpoint z app sock resources).run c es).log.countP (Output.invokes e.call) = 0
  unselected : ∀ es : List Event, (∀ event ∈ es, event.isReceive = false) →
    ∀ i, nextRetransmission ((endpoint z app sock resources).run c es).state.ep = some i →
      ((endpoint z app sock resources).run c es).state.ep.inflight.get i ≠ e

end runs

/-! ## A lost separate response -/

/-- The empty acknowledgement of the first request. -/
def emptyAck : PacketRxDataItem := sampleRx ⟨.ack, coapCodeEmpty, 1, []⟩ serverAddr

/-- A request was transmitted and acknowledged. -/
def acknowledgedRun : EndpointConfig :=
  sampleRun [samplePost 0, .transmit (calmEnv 1 5), .receive (calmEnv 2 6) emptyAck]

/-- The first request was acknowledged, and a second one was transmitted. -/
def parkedAndArmed : EndpointConfig :=
  sampleEndpoint.run acknowledgedRun [samplePost 1, .transmit (calmEnv 2 8)]

theorem acknowledged_waits_separate :
    ∃ e ∈ acknowledgedRun.state.ep.inflight.items, e.retransmit = false ∧
      WaitsQuietly rfcZephyr plainApp acknowledgedRun.log e parkedAndArmed := by
  have parked : ∃ e ∈ acknowledgedRun.state.ep.inflight.items, e.retransmit = false := by decide +kernel
  obtain ⟨e, member, unarmed⟩ := parked
  exact ⟨e, member, unarmed, acknowledged_waits rfcZephyr_encodes (sampleRun_reachable _) e member unarmed
    (Machine.leads_run _ _ (Machine.admits_true _ _))⟩

/-- Every timeout of the second request. -/
def lastTimeouts : List Event :=
  [.timeout (calmEnv 3 10008) 8, .timeout (calmEnv 3 30008) 10008, .timeout (calmEnv 3 70008) 30008,
    .timeout (calmEnv 3 150008) 70008, .timeout (calmEnv 3 310008) 150008]

theorem parkedAndArmed_reachable : sampleEndpoint.Reachable anyEvent parkedAndArmed :=
  (Machine.leads_run _ _ (Machine.admits_true _ _)).reachable (sampleRun_reachable _)

end DtApp.Coap
