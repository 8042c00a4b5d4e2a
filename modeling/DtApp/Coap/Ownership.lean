import DtApp.Coap.Completion

/-!
# Message buffers

Each call of `coap_endpoint_post_async` allocates one buffer. A buffer is named by its call,
and whoever holds a packet with this owner refers to it. The log says when it is released.
-/
namespace DtApp.Coap

/-! ## Allocations, references and releases -/

/-- Whether the calls of `coap_endpoint_post_async` got their buffers, in the order of the calls. -/
def allocations (es : List Event) : List Bool :=
  es.filterMap fun
    | .post env _ => some (env.calloc 0)
    | _ => none

/-- The call allocated its buffer. -/
def Allocated (es : List Event) (call : Nat) : Prop := (allocations es)[call]? = some true

instance (es : List Event) (call : Nat) : Decidable (Allocated es call) :=
  inferInstanceAs (Decidable (_ = _))

/-- The buffer of this call was released. -/
def Output.releases (call : Nat) : Output → Bool
  | .freed c => c == call
  | _ => false

/-- The number of queued items that refer to a buffer. -/
def queueRefs (call : Nat) (queue : List PacketTxDataItem) : Nat :=
  queue.countP fun tx => tx.packet.owner = some call

/-- The number of in-flight entries that refer to a buffer. -/
def tableRefs (call : Nat) (ep : CoapEndpoint) : Nat :=
  ep.inflight.items.countP fun e => e.packet.owner = some call

theorem allocations_append (es : List Event) (e : Event) :
    allocations (es ++ [e]) = allocations es ++ allocations [e] :=
  List.filterMap_append

theorem allocations_other {e : Event} (noPost : ∀ env args, e ≠ .post env args) : allocations [e] = [] := by
  cases e with
  | post env args => exact absurd rfl (noPost env args)
  | transmit | timeout | receive => rfl

theorem Quiet.releases {outs : List Output} (quiet : Quiet outs) (call : Nat) :
    outs.countP (Output.releases call) = 0 :=
  quiet.countP_eq_zero _ fun o holds => by cases o <;> first | rfl | cases holds

variable {z : Zephyr}

/-! ## The ledger -/

/-- Completing a request releases its buffer. -/
theorem completion_releases (call other : Nat) (handler : ResponseHandler) (data : HandlerData)
    (err : Int) (response : Option CoapPacket) (effects : List Output) (quiet : Quiet effects) :
    (completion other handler data err response effects).countP (Output.releases call) =
      if other = call then 1 else 0 := by
  simp [completion, List.countP_append, List.countP_cons, quiet.releases, Output.releases]

/-- Steps of the thread release the buffers of the requests that they complete, and no others. -/
theorem Move.releases {v v' : View} {e : Event} {outs : List Output} (move : Move z v e outs v')
    (noPost : ∀ env args, e ≠ .post env args) (call : Nat) :
    outs.countP (Output.releases call) = outs.countP (Output.invokes call) ∧
      outs.countP (Output.accepts call) = 0 := by
  have ended : ∀ (other : Nat) (handler : ResponseHandler) (data : HandlerData) (err : Int)
      (response : Option CoapPacket) (effects : List Output), Quiet effects →
      (completion other handler data err response effects).countP (Output.releases call) =
        (completion other handler data err response effects).countP (Output.invokes call) := by
    intro other handler data err response effects quiet
    rw [completion_releases _ _ _ _ _ _ _ quiet, completion_invokes _ _ _ _ _ _ _ quiet]
  cases move with
  | refused | queued => exact absurd rfl (noPost _ _)
  | idle => exact ⟨rfl, rfl⟩
  | stored => exact ⟨rfl, rfl⟩
  | dropped quiet => exact ⟨ended _ _ _ _ _ _ quiet, completion_accepts _ _ _ _ _ _ _ quiet⟩
  | resent e => exact ⟨rfl, rfl⟩
  | acknowledged e => exact ⟨rfl, rfl⟩
  | unclaimed quiet =>
    simp [Output.releases, Output.invokes, Output.accepts, quiet.releases, quiet.invokes, quiet.accepts]
  | gaveUp e armed limit quiet =>
    simp only [List.countP_cons, Output.releases, Output.invokes, Output.accepts, Bool.false_eq_true,
      if_false, Nat.add_zero]
    exact ⟨ended _ _ _ _ _ _ quiet, completion_accepts _ _ _ _ _ _ _ quiet⟩
  | canceled e matched noRequest reset quiet =>
    simp only [List.countP_cons, Output.releases, Output.invokes, Output.accepts, Bool.false_eq_true,
      if_false, Nat.add_zero]
    exact ⟨ended _ _ _ _ _ _ quiet, completion_accepts _ _ _ _ _ _ _ quiet⟩
  | completed e matched response notReset quiet =>
    simp only [List.countP_cons, Output.releases, Output.invokes, Output.accepts, Bool.false_eq_true,
      if_false, Nat.add_zero]
    exact ⟨ended _ _ _ _ _ _ quiet, completion_accepts _ _ _ _ _ _ _ quiet⟩

/-- A call that gets a buffer queues its item, or fails and releases the buffer. -/
theorem coapEndpointPostAsync_allocated (env : Env) (call : Nat) (args : PostArgs)
    (allocated : env.calloc 0 = true) :
    (∃ packet, coapEndpointPostAsync z env call args = (0, some (txItem call args packet), [])) ∨
      ∃ err < 0, coapEndpointPostAsync z env call args = (err, none, [.freed call]) := by
  simp only [coapEndpointPostAsync, allocated, Bool.not_true, Bool.false_eq_true, if_false]
  by_cases item : env.calloc 1 = true
  · by_cases failed : (encodePost z env call args).1 < 0
    · exact .inr ⟨_, failed, by simp [item, failed]⟩
    · exact .inl ⟨(encodePost z env call args).2, by simp [item, failed]⟩
  · exact .inr ⟨-enomem, by decide, by simp [item]⟩

theorem postStep_releases (env : Env) (s : EndpointState) (args : PostArgs) (call : Nat) :
    (postStep z env s args).2.countP (Output.releases call) +
        (postStep z env s args).2.countP (Output.accepts call) =
      (if env.calloc 0 = true ∧ s.posts = call then 1 else 0) ∧
    (postStep z env s args).2.countP (Output.invokes call) = 0 := by
  by_cases allocated : env.calloc 0 = true
  · rcases coapEndpointPostAsync_allocated (z := z) env s.posts args allocated with
      ⟨packet, posted⟩ | ⟨err, negative, posted⟩
    · simp [postStep, posted, allocated, List.countP_cons, Output.releases, Output.accepts, Output.invokes]
    · have failed : err ≠ 0 := by omega
      simp [postStep, posted, allocated, failed, List.countP_cons, Output.releases, Output.accepts,
        Output.invokes]
  · simp [postStep, coapEndpointPostAsync, allocated, Output.releases, Output.accepts, Output.invokes,
      enomem]

section runs

variable {app : App} {sock : Int} {resources : List CoapResource}

/-- After a run: every buffer that was allocated is on the way of its request or released. -/
structure Ledger (es : List Event) (c : EndpointConfig) : Prop where
  length : (allocations es).length = c.state.posts
  balance : ∀ call, c.log.countP (Output.releases call) + c.log.countP (Output.accepts call) =
    c.log.countP (Output.invokes call) + if Allocated es call then 1 else 0
  accepted : ∀ call, c.log.countP (Output.accepts call) ≤ if Allocated es call then 1 else 0

/-- One more call is made; it is the one behind those that were made before. -/
theorem allocated_post (es : List Event) (env : Env) (args : PostArgs) (call : Nat) :
    Allocated (es ++ [.post env args]) call ↔
      Allocated es call ∨ env.calloc 0 = true ∧ (allocations es).length = call := by
  have last : allocations [.post env args] = [env.calloc 0] := rfl
  rw [Allocated, Allocated, allocations_append, last, List.getElem?_append]
  by_cases old : call < (allocations es).length
  · rw [if_pos old]
    constructor
    · exact .inl
    · rintro (allocated | ⟨_, rfl⟩)
      · exact allocated
      · exact absurd old (Nat.lt_irrefl _)
  · have none : (allocations es)[call]? = none := List.getElem?_eq_none (Nat.not_lt.mp old)
    rw [if_neg old, none, List.getElem?_singleton]
    by_cases first : call - (allocations es).length = 0
    · have same : (allocations es).length = call := by omega
      simp [same]
    · have other : (allocations es).length ≠ call := by omega
      simp [first, other]

theorem Ledger.post {es : List Event} {c : EndpointConfig} (ledger : Ledger es c) (env : Env)
    (args : PostArgs) :
    Ledger (es ++ [.post env args]) ((endpoint z app sock resources).next c (.post env args)) := by
  have length := ledger.length
  have allocated : ∀ call, (if Allocated (es ++ [.post env args]) call then 1 else 0) =
      (if Allocated es call then 1 else 0) +
        if env.calloc 0 = true ∧ c.state.posts = call then 1 else 0 := by
    intro call
    simp only [allocated_post, length]
    by_cases old : Allocated es call
    · have bound : call < (allocations es).length := List.getElem?_eq_some_iff.mp old |>.1
      have other : c.state.posts ≠ call := by omega
      simp [old, other]
    · simp [old]
  constructor
  · rw [allocations_append, List.length_append, length]
    rfl
  · intro call
    obtain ⟨balance, silent⟩ := postStep_releases (z := z) env c.state args call
    have before := ledger.balance call
    have alloc := allocated call
    simp only [Machine.next, endpoint, step, List.countP_append]
    omega
  · intro call
    obtain ⟨balance, _⟩ := postStep_releases (z := z) env c.state args call
    have before := ledger.accepted call
    have alloc := allocated call
    simp only [Machine.next, endpoint, step, List.countP_append]
    omega

/-- A step of the thread changes nothing about allocations. -/
theorem Ledger.other (laws : z.Encodes) {es : List Event} {c : EndpointConfig} (ledger : Ledger es c)
    (reach : (endpoint z app sock resources).Reachable anyEvent c) (e : Event)
    (noPost : ∀ env args, e ≠ .post env args) :
    Ledger (es ++ [e]) ((endpoint z app sock resources).next c e) := by
  have same : allocations (es ++ [e]) = allocations es := by
    rw [allocations_append, allocations_other noPost, List.append_nil]
  have move := step_refines app laws c.state e (reachable_allPosts laws reach)
  have allocated : ∀ call, Allocated (es ++ [e]) call ↔ Allocated es call := by
    intro call
    rw [Allocated, Allocated, same]
  constructor
  · rw [same, ledger.length]
    exact (step_posts c.state e noPost).symm
  · intro call
    obtain ⟨releases, accepts⟩ := move.releases noPost call
    have before := ledger.balance call
    simp only [Machine.next, endpoint, List.countP_append, allocated]
    omega
  · intro call
    have accepts := (move.releases noPost call).2
    have before := ledger.accepted call
    simp only [Machine.next, endpoint, List.countP_append, allocated]
    omega

theorem run_ledger (laws : z.Encodes) (es : List Event) :
    Ledger es ((endpoint z app sock resources).run (endpoint z app sock resources).start es) := by
  refine Machine.run_invariant Ledger ⟨rfl, fun _ => rfl, fun _ => Nat.zero_le _⟩ ?_ es
  intro es e ledger
  have reach := (endpoint z app sock resources).reachable_run es (Machine.admits_true es _)
  cases e with
  | post env args => exact ledger.post env args
  | transmit | timeout | receive =>
    exact ledger.other laws reach _ fun _ _ absurd => by cases absurd

end runs

/-! ## References -/

theorem PostPacket.owner_iff (laws : z.Encodes) {call : Nat} {p : CoapPacket} (post : PostPacket z call p)
    (other : Nat) : p.owner = some other ↔ call = other := by
  rw [(post.header laws).2.2.2, Option.some.injEq]

/-- A request holds its own buffer, so references are counted with the requests. -/
theorem queueRefs_eq (laws : z.Encodes) {s : EndpointState} (all : s.view.AllPosts z) (call : Nat) :
    queueRefs call s.txFifo = queuedFor call s.view.queue := by
  apply List.countP_congr
  intro tx member
  rw [decide_eq_true_iff, decide_eq_true_iff]
  exact (all.queue tx member).owner_iff laws call

theorem tableRefs_eq (laws : z.Encodes) {s : EndpointState} (all : s.view.AllPosts z) (call : Nat) :
    tableRefs call s.ep = inflightFor call s.view.table := by
  rw [inflightFor, EndpointState.view, Multiset.coe_countP]
  apply List.countP_congr
  intro e member
  rw [decide_eq_true_iff, decide_eq_true_iff]
  exact (all.table e (Multiset.mem_coe.mpr member)).owner_iff laws call

/-- Handlers of the application send packets in storage of their own. -/
def App.SendsOwn (app : App) : Prop :=
  ∀ f data err response, ∀ sent ∈ app.responseHandler f data err response, sent.1.owner = none

theorem plainApp_sendsOwn : plainApp.SendsOwn := fun _ _ _ _ _ sent => absurd sent List.not_mem_nil

theorem Zephyr.KeepsStorage.buildsAnswers (keeps : z.KeepsStorage) :
    z.BuildsAnswers fun p => p.owner = none where
  init maxLen type token code id fine := keeps.init stackBuffer maxLen type token code id fine
  marker p own fine := (keeps.marker p fine).trans own
  payload p bytes own fine := (keeps.payload p bytes fine).trans own

section answers

variable {app : App}

theorem invokeHandler_owner (keeps : z.KeepsStorage) (own : app.SendsOwn) (env : Env) (ep : CoapEndpoint)
    (call : Nat) (handler : ResponseHandler) (data : HandlerData) (err : Int)
    (response : Option CoapPacket) {sock : Int} {packet : CoapPacket} {addr : SockAddr}
    (sent : .sendto none sock packet addr ∈ invokeHandler z app env ep call handler data err response) :
    packet.owner = none := by
  cases handler with
  | postHandler =>
    obtain ⟨acked, answering, eq⟩ := postHandler_eq z env keeps.buildsAnswers ep data err response
    simp only [invokeHandler, eq, List.mem_cons, List.cons_append, List.mem_append, reduceCtorEq,
      List.not_mem_nil, false_or, or_false] at sent
    exact answering.sendto sent
  | other f =>
    simp only [invokeHandler, List.mem_cons, reduceCtorEq, false_or, List.mem_map] at sent
    obtain ⟨pair, member, eq⟩ := sent
    cases eq
    exact own f data err response pair member

/-- What is sent besides requests is in no buffer of a call. -/
theorem step_sends_owner (keeps : z.KeepsStorage) (own : app.SendsOwn) (s : EndpointState) (event : Event)
    {sock : Int} {packet : CoapPacket} {addr : SockAddr}
    (sent : .sendto none sock packet addr ∈ (step z app s event).2) : packet.owner = none := by
  have effects : Effects z app (fun p => p.owner = none) (step z app s event).2 :=
    step_effects keeps.buildsAnswers s event
  rcases effects.sendto sent with own' | ⟨env, ep, call, handler, data, err, response, handled⟩
  · exact own'
  · exact invokeHandler_owner keeps own env ep call handler data err response handled

end answers

theorem completion_sendto {other call : Nat} {handler : ResponseHandler} {data : HandlerData} {err : Int}
    {response : Option CoapPacket} {effects : List Output} (quiet : Quiet effects) {sock : Int}
    {packet : CoapPacket} {addr : SockAddr} :
    Output.sendto (some call) sock packet addr ∉ completion other handler data err response effects := by
  have noEffect : Output.sendto (some call) sock packet addr ∉ effects := quiet.notMem rfl
  simp [completion, noEffect]

/-- A step that sends a request releases nothing. -/
theorem Move.sendto_keeps {v v' : View} {event : Event} {outs : List Output} (move : Move z v event outs v')
    {request : Nat} {sock : Int} {packet : CoapPacket} {addr : SockAddr}
    (sent : Output.sendto (some request) sock packet addr ∈ outs) (call : Nat) :
    Output.freed call ∉ outs := by
  cases move with
  | refused negative released => rcases released with rfl | rfl <;> simp at sent
  | queued => simp at sent
  | idle => exact List.not_mem_nil
  | stored => simp
  | resent e => simp
  | dropped quiet => exact absurd sent (completion_sendto quiet)
  | gaveUp e armed limit quiet =>
    have ended := (List.mem_cons.mp sent).resolve_left (by simp)
    exact absurd ended (completion_sendto quiet)
  | unclaimed quiet =>
    have handled := (List.mem_cons.mp sent).resolve_left (by simp)
    exact absurd handled (quiet.notMem rfl)
  | canceled e matched noRequest reset quiet =>
    have ended := (List.mem_cons.mp sent).resolve_left (by simp)
    exact absurd ended (completion_sendto quiet)
  | completed e matched response notReset quiet =>
    have ended := (List.mem_cons.mp sent).resolve_left (by simp)
    exact absurd ended (completion_sendto quiet)
  | acknowledged e => simp at sent

/-! ## Ownership -/

/-- Where a buffer can be. -/
inductive BufferPlace where
  | queued
  | inflight
  | released
  deriving DecidableEq

/-- The buffer is in this place, once, and in no other. -/
def BufferIn (c : EndpointConfig) (call : Nat) : BufferPlace → Prop
  | .queued => queueRefs call c.state.txFifo = 1 ∧ tableRefs call c.state.ep = 0 ∧
      c.log.countP (Output.releases call) = 0
  | .inflight => queueRefs call c.state.txFifo = 0 ∧ tableRefs call c.state.ep = 1 ∧
      c.log.countP (Output.releases call) = 0
  | .released => queueRefs call c.state.txFifo = 0 ∧ tableRefs call c.state.ep = 0 ∧
      c.log.countP (Output.releases call) = 1

/-- Every buffer has one owner until it is released, and it is released once. -/
structure BuffersOwned (es : List Event) (c : EndpointConfig) : Prop where
  placed : ∀ call, Allocated es call → ∃! place, BufferIn c call place
  -- nothing refers to a buffer that was not allocated, and none is released
  unallocated : ∀ call, ¬Allocated es call → queueRefs call c.state.txFifo = 0 ∧
    tableRefs call c.state.ep = 0 ∧ c.log.countP (Output.releases call) = 0
  once : ∀ call, c.log.countP (Output.releases call) ≤ 1
  unaliased : ∀ call, queueRefs call c.state.txFifo + tableRefs call c.state.ep ≤ 1
  reads : ∀ before after request sock packet addr call,
    c.log = before ++ Output.sendto request sock packet addr :: after → packet.owner = some call →
    Output.freed call ∉ before
  completed : ∀ call handler data err response, Output.invoked call handler data err response ∈ c.log →
    c.log.countP (Output.releases call) = 1
  refused : ∀ call handler data ret, Output.posted call handler data ret ∈ c.log → ret ≠ 0 →
    Allocated es call → c.log.countP (Output.releases call) = 1

section

variable {app : App} {sock : Int} {resources : List CoapResource}

/-- References and releases of a buffer add up to whether it was allocated. -/
theorem run_places (laws : z.Encodes) (es : List Event) {c : EndpointConfig}
    (run : c = (endpoint z app sock resources).run (endpoint z app sock resources).start es) (call : Nat) :
    queueRefs call c.state.txFifo + tableRefs call c.state.ep + c.log.countP (Output.releases call) =
      if Allocated es call then 1 else 0 := by
  have reach := (endpoint z app sock resources).reachable_run es (Machine.admits_true es _)
  have ledger : Ledger es ((endpoint z app sock resources).run _ es) := run_ledger laws es
  rw [← run] at reach ledger
  have all := reachable_allPosts laws reach
  have conserves := reachable_conserves laws reach call
  have balance := ledger.balance call
  rw [queueRefs_eq laws all, tableRefs_eq laws all]
  omega

/-- A request is sent from a buffer that was not released before. -/
theorem sendto_live (laws : z.Encodes) (keeps : z.KeepsStorage) (own : app.SendsOwn) {c : EndpointConfig}
    (reach : (endpoint z app sock resources).Reachable anyEvent c) {before after : List Output}
    {request : Option Nat} {sock' : Int} {packet : CoapPacket} {addr : SockAddr} {call : Nat}
    (log : c.log = before ++ Output.sendto request sock' packet addr :: after)
    (owner : packet.owner = some call) : Output.freed call ∉ before := by
  obtain ⟨d, e, first, last, reached, _, _, outs, rfl⟩ := reach.origin log
  have sent : Output.sendto request sock' packet addr ∈ (step z app d.state e).2 := by
    rw [show (step z app d.state e).2 = _ from outs]
    exact List.mem_append_right _ List.mem_cons_self
  cases request with
  | none =>
    -- an answer is not in a buffer of a call
    rw [step_sends_owner keeps own d.state e sent] at owner
    cases owner
  | some request =>
    have move := step_refines app laws d.state e (reachable_allPosts laws reached)
    have kept := move.sendto_keeps sent call
    rw [show (step z app d.state e).2 = _ from outs] at kept
    -- the item or entry that is sent refers to the buffer, so it was not released before
    have referred : 0 < queueRefs call d.state.txFifo + tableRefs call d.state.ep := by
      rcases move.sendto sent with ⟨env, rfl, tx, member, _, rfl⟩ | ⟨env, polledAt, rfl, e, member, _, rfl⟩
      · exact Nat.add_pos_left (List.countP_pos_iff.mpr ⟨tx, member, decide_eq_true owner⟩) _
      · have entry : e ∈ d.state.ep.inflight.items := Multiset.mem_coe.mp member
        exact Nat.add_pos_right _ (List.countP_pos_iff.mpr ⟨e, entry, decide_eq_true owner⟩)
    obtain ⟨es, run⟩ := reached.exists_run
    have places := run_places laws es run call
    have bound : (if Allocated es call then 1 else 0) ≤ 1 := by split <;> omega
    intro freed
    rcases List.mem_append.mp freed with old | new
    · have released : 0 < d.log.countP (Output.releases call) :=
        List.countP_pos_iff.mpr ⟨_, old, by simp [Output.releases]⟩
      omega
    · exact kept (List.mem_append_left _ new)

theorem BufferIn.unique {c : EndpointConfig} {call : Nat} {place place' : BufferPlace}
    (first : BufferIn c call place) (second : BufferIn c call place') : place = place' := by
  cases place <;> cases place' <;> first
    | rfl
    | (simp only [BufferIn] at first second; omega)

theorem buffers_owned (laws : z.Encodes) (keeps : z.KeepsStorage) (own : app.SendsOwn) (es : List Event) :
    BuffersOwned es ((endpoint z app sock resources).run (endpoint z app sock resources).start es) := by
  have reach := (endpoint z app sock resources).reachable_run es (Machine.admits_true es _)
  have ledger : Ledger es ((endpoint z app sock resources).run _ es) := run_ledger laws es
  have places := run_places laws es (c := (endpoint z app sock resources).run _ es) rfl
  have bound : ∀ call, (if Allocated es call then 1 else 0) ≤ 1 := by
    intro call
    split <;> omega
  generalize (endpoint z app sock resources).run (endpoint z app sock resources).start es = c at *
  constructor
  · intro call allocated
    have sum := places call
    rw [if_pos allocated] at sum
    have somewhere : ∃ place, BufferIn c call place := by
      by_cases queued : queueRefs call c.state.txFifo = 1
      · exact ⟨.queued, queued, by omega, by omega⟩
      · by_cases inflight : tableRefs call c.state.ep = 1
        · exact ⟨.inflight, by omega, inflight, by omega⟩
        · exact ⟨.released, by omega, by omega, by omega⟩
    obtain ⟨place, here⟩ := somewhere
    exact ⟨place, here, fun other there => there.unique here⟩
  · intro call unallocated
    have sum := places call
    rw [if_neg unallocated] at sum
    omega
  · intro call
    have sum := places call
    have most := bound call
    omega
  · intro call
    have sum := places call
    have most := bound call
    omega
  · intro before after request sock packet addr call log owner
    exact sendto_live laws keeps own reach log owner
  · intro call handler data err response invoked
    -- whoever is completed was accepted, hence has a buffer
    have least : 0 < c.log.countP (Output.invokes call) :=
      List.countP_pos_iff.mpr ⟨_, invoked, by simp [Output.invokes]⟩
    have balance := ledger.balance call
    have accepted := ledger.accepted call
    have sum := places call
    have most := bound call
    omega
  · intro call handler data ret returned failed allocated
    have accepts := accepts_eq laws reach returned
    rw [if_neg failed] at accepts
    have balance := ledger.balance call
    rw [if_pos allocated] at balance
    have sum := places call
    rw [if_pos allocated] at sum
    omega

end

/-- A request that is sent and then canceled. -/
def canceledRun : List Event :=
  [samplePost 0, .transmit (calmEnv 1 5), .receive (calmEnv 0 6) (sampleRx ⟨.reset, 0, 1, []⟩ serverAddr)]

theorem buffers_owned_canceled :
    Allocated canceledRun 0 ∧ BuffersOwned canceledRun (sampleRun canceledRun) :=
  ⟨by decide +kernel,
    buffers_owned rfcZephyr_encodes rfcZephyr_keepsStorage plainApp_sendsOwn canceledRun⟩

end DtApp.Coap
