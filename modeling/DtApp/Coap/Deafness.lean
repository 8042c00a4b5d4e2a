import DtApp.Coap.RxItems
import DtApp.Coap.Waiting

/-!
# After the end of `recv_thread`

`recv_thread` returns when `k_calloc` or `recvfrom` fails once, and nothing starts it again. What it
had queued is processed; after that nothing is received, and no request can succeed.
-/
namespace DtApp.Coap

/-! ## Receptions -/

/-- The packet that a step receives. -/
def Output.reception : Output → Option PacketRxDataItem
  | .received rx => some rx
  | _ => none

theorem Quiet.receptions {outs : List Output} (quiet : Quiet outs) : outs.filterMap Output.reception = [] :=
  quiet.filterMap_eq_nil _ fun o some => by cases o <;> simp_all [Output.reception, Output.fromHandler]

theorem completion_receptions (call : Nat) (handler : ResponseHandler) (data : HandlerData) (err : Int)
    (response : Option CoapPacket) {effects : List Output} (quiet : Quiet effects) :
    (completion call handler data err response effects).filterMap Output.reception = [] := by
  simp [completion, List.filterMap_cons, List.filterMap_append, quiet.receptions, Output.reception]

variable {z : Zephyr}

/-- Nothing is received but the packet of a step that receives. -/
theorem Move.receptions {v v' : View} {event : Event} {outs : List Output}
    (move : Move z v event outs v') : outs.filterMap Output.reception = [] ∨
      ∃ env rx, event = .receive env rx ∧ outs.filterMap Output.reception = [rx] := by
  cases move with
  | refused negative released => rcases released with rfl | rfl <;> exact .inl rfl
  | queued | stored | resent | idle => exact .inl rfl
  | dropped quiet => exact .inl (completion_receptions _ _ _ _ _ quiet)
  | gaveUp e armed limit quiet =>
    rw [List.filterMap_cons_none rfl]
    exact .inl (completion_receptions _ _ _ _ _ quiet)
  | unclaimed quiet =>
    exact .inr ⟨_, _, rfl, by simp [Output.reception, quiet.receptions]⟩
  | canceled e matched noRequest reset quiet =>
    exact .inr ⟨_, _, rfl, congrArg (_ :: ·) (completion_receptions _ _ _ _ _ quiet)⟩
  | completed e matched response notReset quiet =>
    exact .inr ⟨_, _, rfl, congrArg (_ :: ·) (completion_receptions _ _ _ _ _ quiet)⟩
  | acknowledged => exact .inr ⟨_, _, rfl, rfl⟩

/-- Without a reception, a handler is only told of an error of this side. -/
theorem Move.silent_errors {v v' : View} {event : Event} {outs : List Output}
    (move : Move z v event outs v') (silent : event.isReceive = false) {call : Nat}
    {handler : ResponseHandler} {data : HandlerData} {err : Int} {response : Option CoapPacket}
    (invoked : Output.invoked call handler data err response ∈ outs) : err = -Coap.eagain ∨ err = -enomem := by
  cases move.explained _ invoked with
  | handler absurd => cases absurd
  | dropped _ err => exact .inr err
  | gaveUp _ err => exact .inl err
  | canceled | completed => cases silent

/-! ## The two threads -/

/-- The packets that wait to be processed, the first one first. -/
def pendingPackets (s : ThreadsState) : List PacketRxDataItem :=
  (match s.txrx with
    | .processing _ rx => [rx]
    | _ => []) ++ s.rxFifo.map Prod.snd

/-- The packets that were received, in this order. -/
def receivedPackets (log : List RxOutput) : List PacketRxDataItem :=
  (endpointOutputs log).filterMap Output.reception

theorem receivedPackets_append (xs ys : List RxOutput) :
    receivedPackets (xs ++ ys) = receivedPackets xs ++ receivedPackets ys := by
  rw [receivedPackets, endpointOutputs_append, List.filterMap_append]
  rfl

theorem endpointOutputs_map (outs : List Output) : endpointOutputs (outs.map .endpoint) = outs := by
  simp [endpointOutputs, List.filterMap_map]

variable {app : App} {sock : Int} {resources : List CoapResource}
  {ok : ThreadsConfig → ThreadsEvent → Prop} {c d : ThreadsConfig}

/-- What a step does after the end of `recv_thread`: it takes an item, processes one, or lets the
endpoint do something that is no reception. -/
inductive EndedStep (z : Zephyr) (app : App) (s : ThreadsState) : ThreadsState → List RxOutput → Prop
  | quiet (s' : ThreadsState) (outs : List RxOutput) : s'.recv = .ended → s'.endpoint = s.endpoint →
      endpointOutputs outs = [] → pendingPackets s' = pendingPackets s → EndedStep z app s s' outs
  | processed (item : Nat) (rx : PacketRxDataItem) (env : Env) : s.txrx = .processing item rx →
      EndedStep z app s
        { s with txrx := .finishing item, endpoint := (step z app s.endpoint (.receive env rx)).1 }
        (.accessed item :: (step z app s.endpoint (.receive env rx)).2.map .endpoint)
  | endpoint (event : Event) : event.isReceive = false →
      EndedStep z app s { s with endpoint := (step z app s.endpoint event).1 }
        ((step z app s.endpoint event).2.map .endpoint)

variable (z app sock resources) in
theorem threads_ended (s : ThreadsState) (ended : s.recv = .ended) (event : ThreadsEvent) :
    EndedStep z app s ((threads z app sock resources).step s event).1
      ((threads z app sock resources).step s event).2 := by
  cases event with
  | recv calloc recvfrom =>
    simp only [threads, recvStep, ended]
    exact .quiet s [] ended rfl rfl rfl
  | txrx env =>
    simp only [threads, txrxStep]
    split
    · next waiting =>
      split
      · exact .quiet s [] ended rfl rfl rfl
      · next item rx rest fifo =>
        refine .quiet _ _ ended rfl rfl ?_
        simp [pendingPackets, waiting, fifo]
    · next item rx at_ => exact .processed item rx env at_
    · next item at_ =>
      refine .quiet _ _ ended rfl rfl ?_
      simp [pendingPackets, at_]
  | other event =>
    simp only [threads, otherStep]
    split
    · exact .endpoint (.post _ _) rfl
    · exact .quiet s [] ended rfl rfl rfl
    · next other =>
      split
      · refine .endpoint event ?_
        cases event with
        | receive env rx => exact absurd rfl (other env rx)
        | _ => rfl
      · exact .quiet s [] ended rfl rfl rfl

/-- What is received is the first of what was queued. -/
theorem EndedStep.conserves (laws : z.Encodes) {s s' : ThreadsState} {outs : List RxOutput}
    (all : s.endpoint.view.AllPosts z) (ended : s.recv = .ended) (step : EndedStep z app s s' outs) :
    s'.recv = .ended ∧ receivedPackets outs ++ pendingPackets s' = pendingPackets s := by
  cases step with
  | quiet _ _ still same silent pending =>
    refine ⟨still, ?_⟩
    rw [receivedPackets, silent, pending]
    rfl
  | processed item rx env at_ =>
    refine ⟨ended, ?_⟩
    have accessed : endpointOutputs (.accessed item ::
        (Coap.step z app s.endpoint (.receive env rx)).2.map .endpoint) =
          (Coap.step z app s.endpoint (.receive env rx)).2 := endpointOutputs_map _
    have first : (Coap.step z app s.endpoint (.receive env rx)).2.filterMap Output.reception = [rx] := by
      rcases (step_refines app laws s.endpoint (.receive env rx) all).receptions with none | ⟨_, _, same, one⟩
      · -- the packet itself is put out first
        cases none
      · cases same
        exact one
    simp [receivedPackets, accessed, first, pendingPackets, at_]
  | endpoint event silent =>
    refine ⟨ended, ?_⟩
    rcases (step_refines app laws s.endpoint event all).receptions with none | ⟨_, _, rfl, _⟩
    · simp [receivedPackets, endpointOutputs_map, none, pendingPackets]
    · cases silent

/-- After the end of `recv_thread` nothing is received but what it had queued, in this order. -/
theorem ended_conserves (laws : z.Encodes) (reach : (threads z app sock resources).Reachable ok c)
    (ended : c.state.recv = .ended) (leads : (threads z app sock resources).Leads ok c d) :
    d.state.recv = .ended ∧
      receivedPackets d.log ++ pendingPackets d.state = receivedPackets c.log ++ pendingPackets c.state := by
  have later := leads.stable (fun d => (threads z app sock resources).Reachable ok d ∧
    d.state.recv = .ended ∧
    receivedPackets d.log ++ pendingPackets d.state = receivedPackets c.log ++ pendingPackets c.state) ?_
    ⟨reach, ended, rfl⟩
  · exact later.2
  · rintro d event admissible ⟨reached, ended, conserved⟩
    have all := reachable_allPosts laws (threads_endpoint z app reached)
    obtain ⟨still, stepped⟩ :=
      (threads_ended z app sock resources d.state ended event).conserves laws all ended
    refine ⟨reached.next admissible, still, ?_⟩
    simp only [Machine.next, receivedPackets_append, List.append_assoc]
    rw [stepped, conserved]

/-- What becomes of the requests when nothing is left to be processed: handlers are told of errors of
this side, and a request that was acknowledged is never completed. -/
structure FailsAll (c d : ThreadsConfig) : Prop where
  errors : ∃ outs, endpointOutputs d.log = endpointOutputs c.log ++ outs ∧
    ∀ call handler data err response, Output.invoked call handler data err response ∈ outs →
      err = -eagain ∨ err = -enomem
  waits : ∀ e ∈ c.state.endpoint.ep.inflight.items, e.retransmit = false →
    e ∈ d.state.endpoint.ep.inflight.items ∧
      (endpointOutputs d.log).countP (Output.invokes e.call) = 0

theorem EndedStep.silent {s s' : ThreadsState} {outs : List RxOutput} (drained : pendingPackets s = [])
    (step : EndedStep z app s s' outs) :
    (s'.endpoint = s.endpoint ∧ endpointOutputs outs = []) ∨ ∃ event : Event, event.isReceive = false ∧
      s'.endpoint = (Coap.step z app s.endpoint event).1 ∧
      endpointOutputs outs = (Coap.step z app s.endpoint event).2 := by
  cases step with
  | quiet _ _ still same silent pending => exact .inl ⟨same, silent⟩
  | processed item rx env at_ => simp [pendingPackets, at_] at drained
  | endpoint event silent => exact .inr ⟨event, silent, rfl, endpointOutputs_map _⟩

theorem ended_failsAll (laws : z.Encodes) (reach : (threads z app sock resources).Reachable ok c)
    (ended : c.state.recv = .ended) (drained : pendingPackets c.state = [])
    (leads : (threads z app sock resources).Leads ok c d) : FailsAll c d := by
  have later := leads.stable (fun d => (threads z app sock resources).Reachable ok d ∧
    d.state.recv = .ended ∧ pendingPackets d.state = [] ∧
    (∃ outs, endpointOutputs d.log = endpointOutputs c.log ++ outs ∧
      ∀ call handler data err response, Output.invoked call handler data err response ∈ outs →
        err = -eagain ∨ err = -enomem) ∧
    ∀ e ∈ c.state.endpoint.ep.inflight.items, e.retransmit = false →
      e ∈ d.state.endpoint.ep.inflight.items) ?_ ?_
  · obtain ⟨reached, _, _, errors, stays⟩ := later
    refine ⟨errors, fun e member unarmed => ?_⟩
    have here := stays e member unarmed
    exact ⟨here, reachable_uncalled laws (threads_endpoint z app reached) e here⟩
  · rintro d event admissible ⟨reached, ended, drained, ⟨outs, split, errors⟩, stays⟩
    have all := reachable_allPosts laws (threads_endpoint z app reached)
    have step := threads_ended z app sock resources d.state ended event
    obtain ⟨still, conserved⟩ := step.conserves laws all ended
    rw [drained] at conserved
    refine ⟨reached.next admissible, still, (List.append_eq_nil_iff.mp conserved).2, ?_, ?_⟩
    · rcases step.silent drained with ⟨_, silent⟩ | ⟨e, silent, _, new⟩
      · refine ⟨outs, ?_, errors⟩
        simp only [Machine.next, endpointOutputs_append, silent, List.append_nil, split]
      · refine ⟨outs ++ (Coap.step z app d.state.endpoint e).2, ?_, ?_⟩
        · simp only [Machine.next, endpointOutputs_append, new, split, List.append_assoc]
        · intro call handler data err response invoked
          rcases List.mem_append.mp invoked with old | late
          · exact errors call handler data err response old
          · exact (step_refines app laws d.state.endpoint e all).silent_errors silent late
    · intro e member unarmed
      have here := stays e member unarmed
      rcases step.silent drained with ⟨same, _⟩ | ⟨event', silent, stepped, _⟩
      · simp only [Machine.next, same]
        exact here
      · simp only [Machine.next, stepped]
        have move := step_refines app laws d.state.endpoint event' all
        rcases move.leaves unarmed (Multiset.mem_coe.mpr here) with stays' | ends
        · exact Multiset.mem_coe.mp stays'
        · obtain ⟨env, rx, rfl, _⟩ := ends.packet
          cases silent
  · exact ⟨reach, ended, drained, ⟨[], by simp, by simp⟩, fun e member _ => member⟩

/-- What is left of an endpoint after its `recv_thread` has returned. -/
structure Deaf (c d : ThreadsConfig) : Prop where
  ended : d.state.recv = .ended
  /-- What is received from then on, followed by what is still pending, is what was pending then. -/
  received : receivedPackets d.log ++ pendingPackets d.state =
    receivedPackets c.log ++ pendingPackets c.state
  fails : pendingPackets c.state = [] → FailsAll c d

/-- One failure of `k_calloc` or `recvfrom` makes the endpoint deaf for good: in every continuation
only what was already queued is received, and after that no request succeeds. -/
theorem deaf_for_good (laws : z.Encodes) (reach : (threads z app sock resources).Reachable ok c)
    (ended : c.state.recv = .ended) (leads : (threads z app sock resources).Leads ok c d) : Deaf c d :=
  have ⟨still, received⟩ := ended_conserves laws reach ended leads
  ⟨still, received, fun drained => ended_failsAll laws reach ended drained leads⟩

/-- A request is transmitted, and its response is queued; then an allocation fails. -/
def deafStart : ThreadsConfig :=
  (threads rfcZephyr plainApp 3 mainResources).run (threads rfcZephyr plainApp 3 mainResources).start
    [.other (samplePost 0), .recv true none, .other (.transmit (calmEnv 1 5)),
      .recv true (some (answerDatagram, serverAddr)), .recv true none, .recv true none, .recv false none]

/-- The response is processed. -/
def drainedRun : ThreadsConfig :=
  (threads rfcZephyr plainApp 3 mainResources).run deafStart
    [.txrx (calmEnv 2 6), .txrx (calmEnv 2 7), .txrx (calmEnv 2 8)]

/-- Another request is transmitted, five times; the server answers, and nobody listens. -/
def deafRun : ThreadsConfig :=
  (threads rfcZephyr plainApp 3 mainResources).run drainedRun
    [.other (samplePost 1), .other (.transmit (calmEnv 2 10)),
      .recv true (some (answerDatagram, serverAddr)), .txrx (calmEnv 2 11),
      .other (.timeout (calmEnv 2 10010) 10), .other (.timeout (calmEnv 2 30010) 10010),
      .other (.timeout (calmEnv 2 70010) 30010), .other (.timeout (calmEnv 2 150010) 70010),
      .other (.timeout (calmEnv 2 310010) 150010)]

theorem deafStart_reachable :
    (threads rfcZephyr plainApp 3 mainResources).Reachable (fun _ _ => True) deafStart :=
  Machine.reachable_run _ (Machine.admits_true _ _)

/-- The queued response completes the first request, and the second one fails. -/
theorem deaf_for_good_posted :
    receivedPackets drainedRun.log = pendingPackets deafStart.state ∧
    (endpointOutputs drainedRun.log).countP (Output.invokes 0) = 1 ∧
    FailsAll drainedRun deafRun ∧
    ∃ data, .invoked 1 .postHandler data (-eagain) none ∈ endpointOutputs deafRun.log := by
  have start : Deaf deafStart drainedRun := deaf_for_good rfcZephyr_encodes deafStart_reachable
    (by decide +kernel) (Machine.leads_run _ _ (Machine.admits_true _ _))
  have drained : pendingPackets drainedRun.state = [] := by decide +kernel
  have received := start.received
  have before : receivedPackets deafStart.log = [] := by decide +kernel
  rw [drained, before, List.append_nil, List.nil_append] at received
  have reached : (threads rfcZephyr plainApp 3 mainResources).Reachable (fun _ _ => True) drainedRun :=
    (Machine.leads_run _ _ (Machine.admits_true _ _)).reachable deafStart_reachable
  have deaf : Deaf drainedRun deafRun := deaf_for_good rfcZephyr_encodes reached
    (by decide +kernel) (Machine.leads_run _ _ (Machine.admits_true _ _))
  exact ⟨received, by decide +kernel, deaf.fails drained, ⟨1, serverAddr⟩, by decide +kernel⟩

end DtApp.Coap
