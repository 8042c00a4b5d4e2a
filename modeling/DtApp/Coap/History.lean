import DtApp.Coap.Lifecycle

/-!
# The history of a run

What the log of a run says about the requests in it: each call returns once, everything
queued, in flight or completed stems from a queued item, and the places where a request can
be are counted.
-/
namespace DtApp.Coap

/-! ## Counting -/

/-- `coap_endpoint_post_async` returned to this call. -/
def Output.returns (call : Nat) : Output → Bool
  | .posted c _ _ _ => c == call
  | _ => false

/-- `coap_endpoint_post_async` returned 0 to this call. -/
def Output.accepts (call : Nat) : Output → Bool
  | .posted c _ _ result => c == call && result == 0
  | _ => false

theorem accepts_le_returns (log : List Output) (call : Nat) :
    log.countP (Output.accepts call) ≤ log.countP (Output.returns call) := by
  apply List.countP_mono_left
  intro o _ accepted
  cases o <;> simp_all [Output.accepts, Output.returns]

/-- The response handler of this call was invoked. -/
def Output.invokes (call : Nat) : Output → Bool
  | .invoked c _ _ _ _ => c == call
  | _ => false

/-- The number of queued items of a call. -/
def queuedFor (call : Nat) (queue : List PacketTxDataItem) : Nat := queue.countP fun tx => tx.call = call

/-- The number of in-flight entries of a call. -/
def inflightFor (call : Nat) (table : Multiset InflightPacket) : Nat :=
  table.countP fun e => e.call = call

/-- Outputs of handlers are about no request. -/
theorem Quiet.countP_eq_zero {outs : List Output} (quiet : Quiet outs) (p : Output → Bool)
    (silent : ∀ o, p o = true → o.fromHandler = false) : outs.countP p = 0 := by
  rw [List.countP_eq_zero]
  intro o member holds
  have handler := quiet o member
  rw [silent o holds] at handler
  cases handler

theorem Quiet.filterMap_eq_nil {α : Type} {outs : List Output} (quiet : Quiet outs) (f : Output → Option α)
    (silent : ∀ o, f o ≠ none → o.fromHandler = false) : outs.filterMap f = [] := by
  refine List.filterMap_eq_nil_iff.mpr fun o member => ?_
  by_contra some
  have handler := quiet o member
  rw [silent o some] at handler
  cases handler

theorem Quiet.returns {outs : List Output} (quiet : Quiet outs) (call : Nat) :
    outs.countP (Output.returns call) = 0 :=
  quiet.countP_eq_zero _ fun o holds => by cases o <;> first | rfl | cases holds

theorem Quiet.accepts {outs : List Output} (quiet : Quiet outs) (call : Nat) :
    outs.countP (Output.accepts call) = 0 :=
  quiet.countP_eq_zero _ fun o holds => by cases o <;> first | rfl | cases holds

theorem Quiet.invokes {outs : List Output} (quiet : Quiet outs) (call : Nat) :
    outs.countP (Output.invokes call) = 0 :=
  quiet.countP_eq_zero _ fun o holds => by cases o <;> first | rfl | cases holds

@[simp] theorem inflightFor_cons (call : Nat) (e : InflightPacket) (table : Multiset InflightPacket) :
    inflightFor call (e ::ₘ table) = inflightFor call table + if e.call = call then 1 else 0 :=
  Multiset.countP_cons _ _ _

@[simp] theorem queuedFor_cons (call : Nat) (tx : PacketTxDataItem) (queue : List PacketTxDataItem) :
    queuedFor call (tx :: queue) = queuedFor call queue + if tx.call = call then 1 else 0 := by
  simp [queuedFor, List.countP_cons]

@[simp] theorem queuedFor_append (call : Nat) (queue new : List PacketTxDataItem) :
    queuedFor call (queue ++ new) = queuedFor call queue + queuedFor call new :=
  List.countP_append

@[simp] theorem queuedFor_nil (call : Nat) : queuedFor call [] = 0 := rfl

theorem queuedFor_eq_zero (call : Nat) (queue : List PacketTxDataItem) :
    queuedFor call queue = 0 ↔ ∀ tx ∈ queue, tx.call ≠ call := by
  simp [queuedFor, List.countP_eq_zero]

theorem Quiet.notMem {outs : List Output} (quiet : Quiet outs) {o : Output}
    (request : o.fromHandler = false) : o ∉ outs := by
  intro member
  rw [quiet o member] at request
  cases request

theorem completion_invokes (call other : Nat) (handler : ResponseHandler) (data : HandlerData)
    (err : Int) (response : Option CoapPacket) (effects : List Output) (quiet : Quiet effects) :
    (completion other handler data err response effects).countP (Output.invokes call) =
      if other = call then 1 else 0 := by
  simp [completion, List.countP_append, List.countP_cons, quiet.invokes, Output.invokes]

theorem completion_accepts (call other : Nat) (handler : ResponseHandler) (data : HandlerData)
    (err : Int) (response : Option CoapPacket) (effects : List Output) (quiet : Quiet effects) :
    (completion other handler data err response effects).countP (Output.accepts call) = 0 := by
  simp [completion, List.countP_append, quiet.accepts, Output.accepts]

variable {z : Zephyr}

/-- A move keeps the number of places where a request is, unless it accepts the request. -/
theorem Move.conserves {v v' : View} {e : Event} {outs : List Output} (move : Move z v e outs v')
    (call : Nat) :
    queuedFor call v'.queue + inflightFor call v'.table + outs.countP (Output.invokes call) =
      queuedFor call v.queue + inflightFor call v.table + outs.countP (Output.accepts call) := by
  cases move with
  | @refused v env args err freed negative released =>
    -- an error is not an acceptance
    have failed : err ≠ 0 := by omega
    rcases released with rfl | rfl <;> simp [Output.invokes, Output.accepts, failed]
  | queued =>
    simp only [queuedFor_append, queuedFor_cons, queuedFor_nil, txItem, List.countP_cons,
      List.countP_nil, Output.invokes, Output.accepts]
    simp
    omega
  | idle => rfl
  | stored =>
    simp only [inflightFor_cons, queuedFor_cons, fillInflight_call, List.countP_cons,
      List.countP_nil, Output.invokes, Output.accepts, Bool.false_eq_true, if_false]
    omega
  | dropped quiet =>
    simp only [queuedFor_cons, completion_invokes _ _ _ _ _ _ _ quiet,
      completion_accepts _ _ _ _ _ _ _ quiet]
    omega
  | resent e =>
    simp only [inflightFor_cons, retransmitted, List.countP_cons, List.countP_nil, Output.invokes,
      Output.accepts, Bool.false_eq_true, if_false]
  | gaveUp e armed limit quiet =>
    simp only [inflightFor_cons, List.countP_cons, InflightPacket.completion, Output.invokes,
      Output.accepts, Bool.false_eq_true, if_false, completion_invokes _ _ _ _ _ _ _ quiet,
      completion_accepts _ _ _ _ _ _ _ quiet]
    omega
  | unclaimed quiet =>
    simp only [List.countP_cons, Output.invokes, Output.accepts, quiet.invokes, quiet.accepts,
      Bool.false_eq_true, if_false]
  | canceled e matched noRequest reset quiet =>
    simp only [inflightFor_cons, List.countP_cons, InflightPacket.completion, Output.invokes,
      Output.accepts, Bool.false_eq_true, if_false, completion_invokes _ _ _ _ _ _ _ quiet,
      completion_accepts _ _ _ _ _ _ _ quiet]
    omega
  | completed e matched response notReset quiet =>
    simp only [inflightFor_cons, List.countP_cons, InflightPacket.completion, Output.invokes,
      Output.accepts, Bool.false_eq_true, if_false, completion_invokes _ _ _ _ _ _ _ quiet,
      completion_accepts _ _ _ _ _ _ _ quiet]
    omega
  | acknowledged e =>
    simp only [inflightFor_cons, List.countP_cons, List.countP_nil, Output.invokes, Output.accepts,
      Bool.false_eq_true, if_false]

theorem numbered_succ (posts call : Nat) :
    (if call < posts + 1 then 1 else 0) =
      (if call < posts then 1 else 0) + if posts = call then 1 else 0 := by
  rcases Nat.lt_trichotomy call posts with less | rfl | greater
  · rw [if_pos (by omega), if_pos less, if_neg (by omega)]
  · rw [if_pos (by omega), if_neg (by omega), if_pos rfl]
  · rw [if_neg (by omega), if_neg (by omega), if_neg (by omega)]

/-- A post returns to its own call, and nothing else returns. -/
theorem Move.returns {v v' : View} {e : Event} {outs : List Output} (move : Move z v e outs v')
    (call : Nat) :
    (if call < v'.posts then 1 else 0) =
      (if call < v.posts then 1 else 0) + outs.countP (Output.returns call) := by
  cases move with
  | @refused v env args err freed negative released =>
    -- whether a buffer was released does not matter
    have own : (freed ++ [Output.posted v.posts args.responseHandler args.responseHandlerData err]).countP
        (Output.returns call) = if v.posts = call then 1 else 0 := by
      rcases released with rfl | rfl <;> simp [List.countP_cons, Output.returns]
    rw [own]
    exact numbered_succ v.posts call
  | queued =>
    simp only [List.countP_cons, List.countP_nil, Output.returns, Bool.false_eq_true, if_false,
      beq_iff_eq, Nat.zero_add, Nat.add_zero]
    exact numbered_succ _ call
  | idle => rfl
  | stored => rfl
  | dropped quiet => simp [completion, Output.returns, quiet.returns]
  | resent e => rfl
  | gaveUp e armed limit quiet =>
    simp [InflightPacket.completion, completion, Output.returns, quiet.returns]
  | unclaimed quiet => simp [Output.returns, quiet.returns]
  | canceled e matched noRequest reset quiet =>
    simp [InflightPacket.completion, completion, Output.returns, quiet.returns]
  | completed e matched response notReset quiet =>
    simp [InflightPacket.completion, completion, Output.returns, quiet.returns]
  | acknowledged e => rfl

theorem Move.posts_le {v v' : View} {e : Event} {outs : List Output} (move : Move z v e outs v') :
    v.posts ≤ v'.posts := by
  cases move with
  | refused | queued => exact Nat.le_succ _
  | idle | stored | dropped | resent | gaveUp | unclaimed | canceled | completed | acknowledged =>
    exact Nat.le_refl _

/-! ## Where requests come from -/

/-- The entry was filled from the item. -/
structure InflightPacket.Of (e : InflightPacket) (tx : PacketTxDataItem) : Prop where
  call : e.call = tx.call
  packet : e.packet = tx.packet
  addr : e.addr = tx.addr
  handler : e.responseHandler = tx.responseHandler
  data : e.responseHandlerData = tx.responseHandlerData

/-- Every item, entry and handler call of a run goes back to a queued item. -/
structure Origins (z : Zephyr) (v : View) (log : List Output) : Prop where
  queue : ∀ tx ∈ v.queue, Output.queued tx ∈ log
  table : ∀ e ∈ v.table, ∃ tx, Output.queued tx ∈ log ∧ e.Of tx
  calls : ∀ call handler data err response, Output.invoked call handler data err response ∈ log →
    ∃ tx, Output.queued tx ∈ log ∧ tx.call = call ∧ tx.responseHandler = handler ∧
      tx.responseHandlerData = data
  posted : ∀ tx, Output.queued tx ∈ log → PostPacket z tx.call tx.packet ∧
    Output.posted tx.call tx.responseHandler tx.responseHandlerData 0 ∈ log

theorem InflightPacket.Of.con (env : Env) {tx : PacketTxDataItem}
    (con : z.coapHeaderGetType tx.packet = .con) : (fillInflight z env tx).Of tx := by
  rw [fillInflight_con z env tx con]
  exact ⟨rfl, rfl, rfl, rfl, rfl⟩

/-- An item is queued by a call that returns 0. -/
theorem Move.queued_posted {v v' : View} {event : Event} {outs : List Output}
    (move : Move z v event outs v') (tx : PacketTxDataItem) (member : Output.queued tx ∈ outs) :
    PostPacket z tx.call tx.packet ∧
      Output.posted tx.call tx.responseHandler tx.responseHandlerData 0 ∈ outs := by
  obtain ⟨env, args, packet, rfl, rfl, post⟩ := move.queues tx member
  refine ⟨post, ?_⟩
  -- a post queues before it returns, both in one step
  cases move with
  | refused negative released => rcases released with rfl | rfl <;> simp at member
  | queued built =>
    simp only [List.mem_cons, Output.queued.injEq, reduceCtorEq, List.not_mem_nil, or_false] at member
    rw [member]
    exact List.mem_cons_of_mem _ List.mem_cons_self
  | idle => cases member

theorem Move.origins {v v' : View} {e : Event} {outs log : List Output} (laws : z.Encodes)
    (move : Move z v e outs v') (origins : Origins z v log) : Origins z v' (log ++ outs) := by
  -- what stems from a queued item still does when the log has grown
  have older : ∀ {P : PacketTxDataItem → Prop}, (∃ tx, Output.queued tx ∈ log ∧ P tx) →
      ∃ tx, Output.queued tx ∈ log ++ outs ∧ P tx := by
    rintro P ⟨tx, queued, holds⟩
    exact ⟨tx, List.mem_append_left _ queued, holds⟩
  have entry : ∀ e ∈ v.table, ∃ tx, Output.queued tx ∈ log ∧ tx.call = e.call ∧
      tx.responseHandler = e.responseHandler ∧ tx.responseHandlerData = e.responseHandlerData := by
    intro e member
    obtain ⟨tx, queued, of⟩ := origins.table e member
    exact ⟨tx, queued, of.call.symm, of.handler.symm, of.data.symm⟩
  constructor
  · intro tx member
    rcases move.waiting tx member with old | new
    · exact List.mem_append_left _ (origins.queue tx old)
    · exact List.mem_append_right _ new
  · intro e member
    cases move.remains e member with
    | kept old => exact older (origins.table e old)
    | @stored env tx waiting =>
      have queued := origins.queue tx waiting
      exact older ⟨tx, queued, .con env ((origins.posted tx queued).1.header laws).1⟩
    | resent old | acknowledged old =>
      -- the changed entry stems from the same item
      obtain ⟨tx, queued, of⟩ := origins.table _ old
      exact older ⟨tx, queued, of.call, of.packet, of.addr, of.handler, of.data⟩
  · intro call handler data err response member
    rcases List.mem_append.mp member with old | new
    · exact older (origins.calls _ _ _ _ _ old)
    · cases move.explained _ new with
      | handler absurd => cases absurd
      -- without memory the handler is called from the item, else from the entry
      | @dropped env tx _ waiting => exact older ⟨tx, origins.queue tx waiting, rfl, rfl, rfl⟩
      | gaveUp ended | canceled ended | completed ended => exact older (entry _ ended)
  · intro tx member
    rcases List.mem_append.mp member with old | new
    · exact ⟨(origins.posted tx old).1, List.mem_append_left _ (origins.posted tx old).2⟩
    · obtain ⟨post, posted⟩ := move.queued_posted tx new
      exact ⟨post, List.mem_append_right _ posted⟩

/-- Only transmissions and timeouts send requests, the queued and the armed ones. -/
theorem Move.sendto {v v' : View} {event : Event} {outs : List Output} (move : Move z v event outs v')
    {call : Nat} {sock : Int} {packet : CoapPacket} {addr : SockAddr}
    (sent : Output.sendto (some call) sock packet addr ∈ outs) :
    (∃ env, event = .transmit env ∧ ∃ tx ∈ v.queue, tx.call = call ∧ packet = tx.packet) ∨
      ∃ env polledAt, event = .timeout env polledAt ∧ ∃ e ∈ v.table, e.call = call ∧ packet = e.packet := by
  cases move.explained _ sent with
  | handler absurd => cases absurd
  | @transmitted env tx _ waiting => exact .inl ⟨env, rfl, tx, waiting, rfl, rfl⟩
  | @resent env polledAt e _ member => exact .inr ⟨env, polledAt, rfl, e, member, rfl, rfl⟩

/-! ## Reachable configurations -/

section runs

variable {app : App} {sock : Int} {resources : List CoapResource} {ok : EndpointConfig → Event → Prop}
  {c : EndpointConfig}

theorem reachable_origins (laws : z.Encodes)
    (reach : (endpoint z app sock resources).Reachable ok c) : Origins z c.state.view c.log := by
  apply reachable_invariant laws (Origins z) _ _ reach
  · exact ⟨by simp, by simp, by simp, by simp⟩
  · exact fun v log e outs v' _ move origins => move.origins laws origins

/-- The places of a request, counted. -/
theorem reachable_conserves (laws : z.Encodes)
    (reach : (endpoint z app sock resources).Reachable ok c) (call : Nat) :
    queuedFor call c.state.view.queue + inflightFor call c.state.view.table +
      c.log.countP (Output.invokes call) = c.log.countP (Output.accepts call) := by
  apply reachable_invariant laws (fun v log => queuedFor call v.queue + inflightFor call v.table +
    log.countP (Output.invokes call) = log.countP (Output.accepts call)) _ _ reach
  · rfl
  · intro v log e outs v' _ move before
    have step := move.conserves call
    -- what the move moves, the counts of the two logs add up to
    simp only [List.countP_append]
    omega

theorem reachable_returns (laws : z.Encodes)
    (reach : (endpoint z app sock resources).Reachable ok c) (call : Nat) :
    c.log.countP (Output.returns call) = if call < c.state.view.posts then 1 else 0 := by
  apply reachable_invariant laws
    (fun v log => log.countP (Output.returns call) = if call < v.posts then 1 else 0) _ _ reach
  · rfl
  · intro v log e outs v' _ move before
    have step := move.returns call
    simp only [List.countP_append]
    omega

/-- A call is in at most one place, and in none before it is made. -/
theorem reachable_places (laws : z.Encodes) (reach : (endpoint z app sock resources).Reachable ok c)
    (call : Nat) :
    queuedFor call c.state.view.queue + inflightFor call c.state.view.table +
      c.log.countP (Output.invokes call) ≤ if call < c.state.view.posts then 1 else 0 := by
  rw [reachable_conserves laws reach call, ← reachable_returns laws reach call]
  exact accepts_le_returns c.log call

/-- A call returns once. -/
theorem posted_unique (laws : z.Encodes) (reach : (endpoint z app sock resources).Reachable ok c)
    {call : Nat} {handler handler' : ResponseHandler} {data data' : HandlerData} {ret ret' : Int}
    (first : Output.posted call handler data ret ∈ c.log)
    (second : Output.posted call handler' data' ret' ∈ c.log) :
    handler = handler' ∧ data = data' ∧ ret = ret' := by
  have once : c.log.countP (Output.returns call) ≤ 1 := by
    rw [reachable_returns laws reach call]
    split <;> omega
  have eq := Machine.eq_of_countP_le_one once first second (by simp [Output.returns])
    (by simp [Output.returns])
  simpa using eq

/-- A request is accepted at most once, namely when its call returned 0. -/
theorem accepts_eq (laws : z.Encodes) (reach : (endpoint z app sock resources).Reachable ok c)
    {call : Nat} {handler : ResponseHandler} {data : HandlerData} {ret : Int}
    (returned : Output.posted call handler data ret ∈ c.log) :
    c.log.countP (Output.accepts call) = if ret = 0 then 1 else 0 := by
  by_cases zero : ret = 0
  · rw [if_pos zero]
    -- at least once, as it stands in the log, and at most once, as calls return once
    have least : 0 < c.log.countP (Output.accepts call) :=
      List.countP_pos_iff.mpr ⟨_, returned, by simp [Output.accepts, zero]⟩
    have most := accepts_le_returns c.log call
    rw [reachable_returns laws reach call] at most
    split at most <;> omega
  · rw [if_neg zero, List.countP_eq_zero]
    -- a second return of this call would have to be 0
    intro o member accepted
    cases o with
    | posted call' handler' data' ret' =>
      simp only [Output.accepts, Bool.and_eq_true, beq_iff_eq] at accepted
      rw [accepted.1, accepted.2] at member
      exact zero (posted_unique laws reach returned member).2.2
    | _ => cases accepted

theorem inflightFor_pos {call : Nat} {table : Multiset InflightPacket} {e : InflightPacket}
    (member : e ∈ table) (same : e.call = call) : 0 < inflightFor call table :=
  Multiset.countP_pos.mpr ⟨e, member, same⟩

theorem inflightFor_le_one (laws : z.Encodes) (reach : (endpoint z app sock resources).Reachable ok c)
    (call : Nat) : inflightFor call c.state.view.table ≤ 1 := by
  have places := reachable_places laws reach call
  have bound : (if call < c.state.view.posts then 1 else 0) ≤ 1 := by split <;> omega
  exact (Nat.le_add_left _ _).trans ((Nat.le_add_right _ _).trans (places.trans bound))

/-- No entry stands in the table twice. -/
theorem entry_count_le_one (laws : z.Encodes) (reach : (endpoint z app sock resources).Reachable ok c)
    (e : InflightPacket) : c.state.ep.inflight.items.count e ≤ 1 := by
  have most : c.state.ep.inflight.items.countP (fun e' => e'.call = e.call) ≤ 1 :=
    inflightFor_le_one laws reach e.call
  refine (List.countP_mono_left fun e' _ same => ?_).trans most
  rw [beq_iff_eq.mp same]
  simp

/-- A call has at most one entry. -/
theorem entries_unique (laws : z.Encodes) (reach : (endpoint z app sock resources).Reachable ok c)
    (e e' : InflightPacket) (member : e ∈ c.state.ep.inflight.items)
    (member' : e' ∈ c.state.ep.inflight.items) (same : e'.call = e.call) : e' = e := by
  have most : inflightFor e.call (c.state.ep.inflight.items : Multiset InflightPacket) ≤ 1 :=
    inflightFor_le_one laws reach e.call
  -- take the one entry out: another one would be counted again
  obtain ⟨rest, split⟩ := Multiset.exists_cons_of_mem (Multiset.mem_coe.mpr member)
  rw [split, inflightFor_cons, if_pos rfl] at most
  have member'' : e' ∈ e ::ₘ rest := split ▸ Multiset.mem_coe.mpr member'
  rcases Multiset.mem_cons.mp member'' with eq | other
  · exact eq
  · have counted := inflightFor_pos other same
    omega

end runs

end DtApp.Coap
