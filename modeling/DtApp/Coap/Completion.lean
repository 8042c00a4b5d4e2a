import DtApp.Coap.History
import DtApp.Coap.Reference

/-!
# Exactly-once completion

A posted request is a token that moves from the queue to the table to the history of
handler calls. Counting the three places for one call gives a quantity that every move
keeps, except the post that queues the item.
-/
namespace DtApp.Coap

/-- Where a posted request is. -/
inductive Phase where
  | queued
  | inflight
  | completed
  deriving DecidableEq

/-- What holds of a request and its handler in each phase. -/
def InPhase (c : EndpointConfig) (call : Nat) (handler : ResponseHandler) (data : HandlerData) :
    Phase → Prop
  | .queued => queuedFor call c.state.view.queue = 1 ∧ inflightFor call c.state.view.table = 0 ∧
      c.log.countP (Output.invokes call) = 0
  | .inflight => queuedFor call c.state.view.queue = 0 ∧ inflightFor call c.state.view.table = 1 ∧
      c.log.countP (Output.invokes call) = 0 ∧
      ∀ e ∈ c.state.ep.inflight.items, e.call = call →
        e.responseHandler = handler ∧ e.responseHandlerData = data
  | .completed => queuedFor call c.state.view.queue = 0 ∧ inflightFor call c.state.view.table = 0 ∧
      c.log.countP (Output.invokes call) = 1 ∧
      ∀ handler' data' err response, Output.invoked call handler' data' err response ∈ c.log →
        handler' = handler ∧ data' = data

variable {z : Zephyr} {app : App} {sock : Int} {resources : List CoapResource}
  {ok : EndpointConfig → Event → Prop} {c : EndpointConfig}

/-- A call that failed never had an item, and its handler is never called. -/
theorem refused_never_invoked (laws : z.Encodes) (reach : (endpoint z app sock resources).Reachable ok c)
    {call : Nat} {handler : ResponseHandler} {data : HandlerData} {ret : Int}
    (returned : Output.posted call handler data ret ∈ c.log) (failed : ret ≠ 0) :
    (∀ tx, Output.queued tx ∈ c.log → tx.call ≠ call) ∧
      queuedFor call c.state.view.queue = 0 ∧ inflightFor call c.state.view.table = 0 ∧
      c.log.countP (Output.invokes call) = 0 := by
  have places := reachable_conserves laws reach call
  rw [accepts_eq laws reach returned, if_neg failed] at places
  refine ⟨?_, by omega, by omega, by omega⟩
  -- whoever queued an item got 0 back, and calls return once
  rintro tx queued rfl
  have succeeded := ((reachable_origins laws reach).posted tx queued).2
  exact failed (posted_unique laws reach returned succeeded).2.2

/-- The handler and the data of a call are those it was posted with. -/
theorem queued_same (laws : z.Encodes) (reach : (endpoint z app sock resources).Reachable ok c)
    {handler : ResponseHandler} {data : HandlerData} {ret : Int} {tx : PacketTxDataItem}
    (returned : Output.posted tx.call handler data ret ∈ c.log) (queued : Output.queued tx ∈ c.log) :
    tx.responseHandler = handler ∧ tx.responseHandlerData = data := by
  have succeeded := ((reachable_origins laws reach).posted tx queued).2
  have same := posted_unique laws reach returned succeeded
  exact ⟨same.1.symm, same.2.1.symm⟩

/-- An accepted request is in one phase. -/
theorem accepted_inPhase (laws : z.Encodes) (reach : (endpoint z app sock resources).Reachable ok c)
    {call : Nat} {handler : ResponseHandler} {data : HandlerData}
    (returned : Output.posted call handler data 0 ∈ c.log) :
    ∃ phase, InPhase c call handler data phase := by
  have origins := reachable_origins laws reach
  have places := reachable_conserves laws reach call
  rw [accepts_eq laws reach returned, if_pos rfl] at places
  -- the three counts add up to one
  by_cases queued : queuedFor call c.state.view.queue = 1
  · exact ⟨.queued, queued, by omega, by omega⟩
  · by_cases inflight : inflightFor call c.state.view.table = 1
    · refine ⟨.inflight, by omega, inflight, by omega, ?_⟩
      rintro e member rfl
      obtain ⟨tx, accepted, of⟩ := origins.table e member
      rw [of.call] at returned
      rw [of.handler, of.data]
      exact queued_same laws reach returned accepted
    · refine ⟨.completed, by omega, by omega, by omega, ?_⟩
      intro handler' data' err response invoked
      obtain ⟨tx, accepted, rfl, rfl, rfl⟩ := origins.calls _ _ _ _ _ invoked
      exact queued_same laws reach returned accepted

/-- The counts of the three places tell the phases apart. -/
theorem InPhase.unique {call : Nat} {handler : ResponseHandler} {data : HandlerData}
    {phase phase' : Phase} (first : InPhase c call handler data phase)
    (second : InPhase c call handler data phase') : phase = phase' := by
  cases phase <;> cases phase' <;> first
    | rfl
    | (simp only [InPhase] at first second; omega)

/-- Exactly-once completion: a call that failed queues nothing and its handler is not called
in any continuation; a call that returned 0 is in exactly one phase in every reachable state. -/
theorem posted_exactly_once (laws : z.Encodes)
    (reach : (endpoint z app sock resources).Reachable anyEvent c) (call : Nat)
    (handler : ResponseHandler) (data : HandlerData) (ret : Int)
    (returned : Output.posted call handler data ret ∈ c.log) :
    (ret ≠ 0 → ∀ d, (endpoint z app sock resources).Leads anyEvent c d →
      (∀ tx, Output.queued tx ∈ d.log → tx.call ≠ call) ∧
        queuedFor call d.state.view.queue = 0 ∧ inflightFor call d.state.view.table = 0 ∧
        d.log.countP (Output.invokes call) = 0) ∧
    (ret = 0 → ∃! phase, InPhase c call handler data phase) := by
  constructor
  · -- the failed call is still in the log of every continuation
    intro failed d leads
    exact refused_never_invoked laws (leads.reachable reach) (leads.log_prefix.subset returned) failed
  · rintro rfl
    obtain ⟨phase, inPhase⟩ := accepted_inPhase laws reach returned
    exact ⟨phase, inPhase, fun other same => same.unique inPhase⟩

theorem posted_exactly_once_inflight :
    ∃! phase, InPhase (sampleRun [samplePost 0, .transmit (calmEnv 1 5)]) 0 .postHandler
      ⟨0, serverAddr⟩ phase :=
  (posted_exactly_once rfcZephyr_encodes (sampleRun_reachable _) 0 .postHandler ⟨0, serverAddr⟩ 0
    (by decide +kernel)).2 rfl

end DtApp.Coap
