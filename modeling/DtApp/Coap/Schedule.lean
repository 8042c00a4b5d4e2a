import DtApp.Library.Backoff
import DtApp.Coap.History
import DtApp.Coap.Reference

/-!
# The retransmission schedule

Each request in flight runs a doubling timer. Its entry and the history of its sends
determine each other, whatever happens to the other requests.
-/
namespace DtApp.Coap

open Backoff

/-! ## What the history says about a request -/

/-- Outputs that the timer of a call accounts for. -/
def Output.timed (call : Nat) : Output → Bool
  | .armed c _ _ => c == call
  | .expired c => c == call
  | .sendto (some c) _ _ _ => c == call
  | _ => false

/-- The uptimes and random numbers with which a call was armed. -/
def armings (call : Nat) (log : List Output) : List (Nat × Nat) :=
  log.filterMap fun
    | .armed c uptime rand => if c = call then some (uptime, rand) else none
    | _ => none

/-- The datagrams handed to the socket for a call. -/
def sendsFor (call : Nat) (log : List Output) : List (CoapPacket × SockAddr) :=
  log.filterMap fun
    | .sendto (some c) _ packet addr => if c = call then some (packet, addr) else none
    | _ => none

/-- How often the timer of a call expired. -/
def expiriesFor (call : Nat) (log : List Output) : Nat :=
  log.countP fun
    | .expired c => c = call
    | _ => false

/-- No output of the list concerns the timer of the call. -/
def Untimed (call : Nat) (outs : List Output) : Prop := ∀ o ∈ outs, o.timed call = false

theorem untimed_append (call : Nat) (xs ys : List Output) :
    Untimed call (xs ++ ys) ↔ Untimed call xs ∧ Untimed call ys :=
  List.forall_mem_append

theorem untimed_cons (call : Nat) (o : Output) (outs : List Output) :
    Untimed call (o :: outs) ↔ o.timed call = false ∧ Untimed call outs :=
  List.forall_mem_cons

theorem untimed_nil (call : Nat) : Untimed call [] := by simp [Untimed]

theorem Quiet.untimed {outs : List Output} (quiet : Quiet outs) (call : Nat) : Untimed call outs := by
  intro o member
  have handler := quiet o member
  match o with
  | .armed .. => cases handler
  | .expired _ => cases handler
  | .sendto (some _) .. => cases handler
  | .sendto none .. | .posted .. | .queued _ | .received _ | .invoked .. | .messagePost ..
  | .otherMethod .. | .ret .. | .semGive _ | .freed _ | .fault => rfl

theorem completion_untimed (call other : Nat) (handler : ResponseHandler) (data : HandlerData)
    (err : Int) (response : Option CoapPacket) (effects : List Output) (quiet : Quiet effects) :
    Untimed call (completion other handler data err response effects) := by
  simp only [completion, List.cons_append, untimed_cons, untimed_append]
  exact ⟨rfl, quiet.untimed call, rfl, untimed_nil call⟩

theorem Untimed.armings {call : Nat} {outs : List Output} (untimed : Untimed call outs) :
    armings call outs = [] := by
  rw [Coap.armings, List.filterMap_eq_nil_iff]
  intro o member
  have other := untimed o member
  cases o <;> simp_all [Output.timed]

theorem Untimed.sendsFor {call : Nat} {outs : List Output} (untimed : Untimed call outs) :
    sendsFor call outs = [] := by
  rw [Coap.sendsFor, List.filterMap_eq_nil_iff]
  intro o member
  have other := untimed o member
  match o with
  | .sendto (some _) .. => simpa [Output.timed] using other
  | .sendto none .. | .armed .. | .expired _ | .posted .. | .queued _ | .received _ | .invoked ..
  | .messagePost .. | .otherMethod .. | .ret .. | .semGive _ | .freed _ | .fault => rfl

theorem Untimed.expiriesFor {call : Nat} {outs : List Output} (untimed : Untimed call outs) :
    expiriesFor call outs = 0 := by
  rw [Coap.expiriesFor, List.countP_eq_zero]
  intro o member
  have other := untimed o member
  cases o <;> simp_all [Output.timed]

@[simp] theorem armings_append (call : Nat) (xs ys : List Output) :
    armings call (xs ++ ys) = armings call xs ++ armings call ys :=
  List.filterMap_append

@[simp] theorem sendsFor_append (call : Nat) (xs ys : List Output) :
    sendsFor call (xs ++ ys) = sendsFor call xs ++ sendsFor call ys :=
  List.filterMap_append

@[simp] theorem expiriesFor_append (call : Nat) (xs ys : List Output) :
    expiriesFor call (xs ++ ys) = expiriesFor call xs + expiriesFor call ys :=
  List.countP_append

/-! ## The schedule -/

/-- The first timeout for a random number. -/
def firstTimeout (rand : Nat) : Int := 10000 + rand % 1000

/-- The entry of a request that was transmitted at `start`, as its timer has it after the
expirations that were survived so far. -/
structure OnSchedule (log : List Output) (e : InflightPacket) (start rand : Nat) : Prop where
  count : e.retransmissionCount ≤ maxRetransmissionCount
  timeout : e.timeout = timeoutAt (firstTimeout rand) e.retransmissionCount
  noOverflow : e.timeout < 2 ^ 31
  deadline : e.deadline ≡ deadlineAt start (firstTimeout rand) e.retransmissionCount [ZMOD 2 ^ 32]
  sent : sendsFor e.call log = List.replicate (1 + e.retransmissionCount) (e.packet, e.addr)
  expired : expiriesFor e.call log = e.retransmissionCount

theorem firstTimeout_range (rand : Nat) : 10000 ≤ firstTimeout rand ∧ firstTimeout rand < 11000 := by
  simp only [firstTimeout]
  omega

/-- Even the timeout that is computed when the request is given up fits an `s32_t`. -/
theorem timeoutAt_small (rand k : Nat) (bound : k ≤ maxRetransmissionCount + 1) :
    0 < timeoutAt (firstTimeout rand) k ∧ timeoutAt (firstTimeout rand) k < 2 ^ 31 := by
  obtain ⟨low, high⟩ := firstTimeout_range rand
  -- between the first timeout and the one that is set when the request is given up
  have least := timeoutAt_mono (firstTimeout rand) (by omega) (Nat.zero_le k)
  have most := timeoutAt_mono (firstTimeout rand) (by omega) bound
  rw [timeoutAt_zero] at least
  simp only [timeoutAt, maxRetransmissionCount] at most ⊢
  constructor
  · simp only [timeoutAt] at least
    omega
  · omega

theorem s32_modEq (x : Int) : s32 x ≡ x [ZMOD 2 ^ 32] := wrap_modEq 31 x

theorem OnSchedule.frame {log outs : List Output} {e : InflightPacket} {start rand : Nat}
    (scheduled : OnSchedule log e start rand) (untimed : Untimed e.call outs) :
    OnSchedule (log ++ outs) e start rand := by
  refine ⟨scheduled.count, scheduled.timeout, scheduled.noOverflow, scheduled.deadline, ?_, ?_⟩
  · rw [sendsFor_append, untimed.sendsFor, List.append_nil, scheduled.sent]
  · rw [expiriesFor_append, untimed.expiriesFor, scheduled.expired, Nat.add_zero]

variable {z : Zephyr}

/-- A transmitted request starts its timer. -/
theorem OnSchedule.start (env : Env) (tx : PacketTxDataItem) (con : z.coapHeaderGetType tx.packet = .con)
    (log : List Output) (fresh : Untimed tx.call log) (sock : Int) :
    OnSchedule (log ++ [.armed tx.call env.uptime env.rand, .sendto (some tx.call) sock tx.packet tx.addr])
      (fillInflight z env tx) env.uptime env.rand := by
  -- the entry as `new_inflight_packet` arms it
  have first : kSeconds 10 + (env.rand : Int) % kSeconds 1 = firstTimeout env.rand := by
    simp [kSeconds, firstTimeout]
  have small := (firstTimeout_range env.rand).2
  rw [fillInflight_con z env tx con, first]
  refine ⟨Nat.zero_le _, (timeoutAt_zero _).symm, small.trans (by norm_num), ?_, ?_, ?_⟩
  · rw [deadlineAt_zero]
    exact (s32_modEq _).trans ((Int.mod_modEq _ _).add_right _)
  · rw [sendsFor_append, fresh.sendsFor]
    simp [sendsFor]
  · rw [expiriesFor_append, fresh.expiriesFor]
    simp [expiriesFor]

/-- A retransmission moves the timer on. -/
theorem OnSchedule.resend {log : List Output} {e : InflightPacket} {start rand : Nat}
    (scheduled : OnSchedule log e start rand)
    (below : (retransmitted e).retransmissionCount ≤ maxRetransmissionCount) (sock : Int) :
    OnSchedule (log ++ [.expired e.call, .sendto (some e.call) sock e.packet e.addr])
      (retransmitted e) start rand := by
  have bound := scheduled.count
  simp only [maxRetransmissionCount] at bound
  -- the counter is far from its wrap-around
  have count : (retransmitted e).retransmissionCount = e.retransmissionCount + 1 := by
    simp only [retransmitted]
    omega
  have small := timeoutAt_small rand (e.retransmissionCount + 1)
    (by simp only [maxRetransmissionCount]; omega)
  have timeout : (retransmitted e).timeout =
      timeoutAt (firstTimeout rand) (e.retransmissionCount + 1) := by
    simp only [retransmitted, scheduled.timeout, ← timeoutAt_succ]
    exact wrap_of_range 31 _ (by omega) small.2
  refine ⟨below, by rw [timeout, count], by rw [timeout]; exact small.2, ?_, ?_, ?_⟩
  · -- both words are only known modulo 2 ^ 32, and that is enough
    rw [count, deadlineAt_succ, ← timeout]
    exact (s32_modEq _).trans (scheduled.deadline.add_right _)
  · rw [sendsFor_append, count, ← Nat.add_assoc, List.replicate_succ']
    change sendsFor e.call log ++ _ = _
    rw [scheduled.sent]
    simp [sendsFor, retransmitted]
  · rw [expiriesFor_append, count]
    change expiriesFor e.call log + _ = _
    rw [scheduled.expired]
    simp [expiriesFor, retransmitted]

/-! ## Runs -/

/-- The request was armed once, and follows its schedule until it is acknowledged. -/
def Tracked (log : List Output) (e : InflightPacket) : Prop :=
  ∃ start rand, armings e.call log = [(start, rand)] ∧
    (e.retransmit = true → OnSchedule log e start rand)

/-- A request that was not transmitted has no history, and one in flight is tracked. -/
structure Timed (v : View) (log : List Output) : Prop where
  fresh : ∀ call, v.posts ≤ call ∨ 0 < queuedFor call v.queue → Untimed call log
  table : ∀ e ∈ v.table, Tracked log e

/-- A call is queued or in flight at most once, and only after it was made. -/
def Places (v : View) : Prop :=
  ∀ call, queuedFor call v.queue + inflightFor call v.table ≤ if call < v.posts then 1 else 0

/-- A request that is somewhere was made, and is there once. -/
theorem Places.alone {v : View} (places : Places v) (call : Nat)
    (here : 0 < queuedFor call v.queue + inflightFor call v.table) :
    call < v.posts ∧ queuedFor call v.queue + inflightFor call v.table = 1 := by
  have most := places call
  by_cases made : call < v.posts
  · rw [if_pos made] at most
    exact ⟨made, by omega⟩
  · rw [if_neg made] at most
    omega

/-- A queued request is nowhere else. -/
theorem Places.queued {tx : PacketTxDataItem} {queue : List PacketTxDataItem}
    {table : Multiset InflightPacket} {posts : Nat} (places : Places ⟨tx :: queue, table, posts⟩) :
    tx.call < posts ∧ queuedFor tx.call queue = 0 ∧ inflightFor tx.call table = 0 := by
  obtain ⟨made, once⟩ := places.alone tx.call (by simp)
  simp only [queuedFor_cons, if_true] at once
  exact ⟨made, by omega, by omega⟩

/-- A request in flight is nowhere else. -/
theorem Places.inflight {e : InflightPacket} {queue : List PacketTxDataItem}
    {table : Multiset InflightPacket} {posts : Nat} (places : Places ⟨queue, e ::ₘ table, posts⟩) :
    e.call < posts ∧ queuedFor e.call queue = 0 ∧ inflightFor e.call table = 0 := by
  obtain ⟨made, once⟩ := places.alone e.call (by simp)
  simp only [inflightFor_cons, if_true] at once
  exact ⟨made, by omega, by omega⟩

theorem Tracked.frame {log outs : List Output} {e : InflightPacket} (tracked : Tracked log e)
    (untimed : Untimed e.call outs) : Tracked (log ++ outs) e := by
  obtain ⟨start, rand, once, scheduled⟩ := tracked
  refine ⟨start, rand, ?_, fun armed => (scheduled armed).frame untimed⟩
  rw [armings_append, untimed.armings, List.append_nil, once]

/-- Outputs about the timer of no call keep the history of every entry that stays. -/
theorem Timed.silent {v v' : View} {log outs : List Output} (timed : Timed v log)
    (untimed : ∀ call, Untimed call outs) (posts : v.posts ≤ v'.posts)
    (queue : ∀ call, 0 < queuedFor call v'.queue → v.posts ≤ call ∨ 0 < queuedFor call v.queue)
    (table : ∀ e ∈ v'.table, e ∈ v.table) : Timed v' (log ++ outs) := by
  constructor
  · intro call waiting
    refine (untimed_append _ _ _).mpr ⟨timed.fresh call ?_, untimed call⟩
    rcases waiting with later | queued
    · exact .inl (posts.trans later)
    · exact queue call queued
  · intro e member
    exact (timed.table e (table e member)).frame (untimed e.call)

/-- Outputs about the timer of one call that is in flight keep the history of the others. -/
theorem Timed.others {queue queue' : List PacketTxDataItem} {table : Multiset InflightPacket}
    {posts : Nat} {log outs : List Output} {call : Nat} (timed : Timed ⟨queue, table, posts⟩ log)
    (untimed : ∀ other, other ≠ call → Untimed other outs) (made : call < posts)
    (gone : queuedFor call queue' = 0) (alone : inflightFor call table = 0)
    (shorter : ∀ other, 0 < queuedFor other queue' → 0 < queuedFor other queue) :
    Timed ⟨queue', table, posts⟩ (log ++ outs) := by
  constructor
  · intro other waiting
    -- a call that waits or was not made is not the one that was just taken out
    have different : other ≠ call := by
      rintro rfl
      rcases waiting with later | queued
      · exact absurd made (Nat.not_lt.mpr later)
      · exact absurd queued (Nat.not_lt.mpr (Nat.le_of_eq gone))
    refine (untimed_append _ _ _).mpr ⟨timed.fresh other ?_, untimed other different⟩
    exact waiting.imp_right (shorter other)
  · intro e member
    have different : e.call ≠ call := by
      intro same
      exact absurd (inflightFor_pos member same) (Nat.not_lt.mpr (Nat.le_of_eq alone))
    exact (timed.table e member).frame (untimed e.call different)

theorem Timed.add {queue : List PacketTxDataItem} {table : Multiset InflightPacket} {posts : Nat}
    {log : List Output} {e : InflightPacket} (timed : Timed ⟨queue, table, posts⟩ log)
    (own : Tracked log e) :
    Timed ⟨queue, e ::ₘ table, posts⟩ log := by
  refine ⟨timed.fresh, fun other member => ?_⟩
  rcases Multiset.mem_cons.mp member with rfl | old
  · exact own
  · exact timed.table other old

theorem Timed.remove {queue : List PacketTxDataItem} {table : Multiset InflightPacket} {posts : Nat}
    {log : List Output} {e : InflightPacket} (timed : Timed ⟨queue, e ::ₘ table, posts⟩ log) :
    Timed ⟨queue, table, posts⟩ log :=
  ⟨timed.fresh, fun other member => timed.table other (Multiset.mem_cons_of_mem member)⟩

theorem Move.timed (laws : z.Encodes) {v v' : View} {event : Event} {outs log : List Output}
    (move : Move z v event outs v') (all : v.AllPosts z) (places : Places v) (timed : Timed v log) :
    Timed v' (log ++ outs) := by
  cases move with
  | refused negative released =>
    refine timed.silent ?_ (Nat.le_succ _) (fun _ queued => .inr queued) fun _ member => member
    intro call
    rcases released with rfl | rfl <;> simp [Untimed, Output.timed]
  | @queued v env args packet built =>
    refine timed.silent ?_ (Nat.le_succ _) ?_ fun _ member => member
    · simp [Untimed, Output.timed]
    · intro call queued
      by_cases new : v.posts = call
      · exact .inl (Nat.le_of_eq new)
      · simp only [queuedFor_append, queuedFor_cons, txItem, new, if_false, queuedFor_nil,
          Nat.add_zero] at queued
        exact .inr queued
  | idle => simpa using timed
  | @stored env tx queue table posts sock =>
    -- the item is transmitted for the first time, so its call has no history yet
    obtain ⟨made, last, alone⟩ := places.queued
    have fresh := timed.fresh tx.call (.inr (by simp))
    have con := ((all.queue tx List.mem_cons_self).header laws).1
    have others : Timed ⟨queue, table, posts⟩
        (log ++ [.armed tx.call env.uptime env.rand, .sendto (some tx.call) sock tx.packet tx.addr]) := by
      refine timed.others ?_ made last alone ?_
      · intro other different
        simp [Untimed, Output.timed, different.symm]
      · intro other waiting
        rw [queuedFor_cons]
        omega
    refine others.add ⟨env.uptime, env.rand, ?_, fun _ => .start env tx con log fresh sock⟩
    rw [fillInflight_call, armings_append, fresh.armings]
    simp [armings]
  | @dropped env tx queue table posts effects quiet =>
    refine timed.silent (fun call => completion_untimed call _ _ _ _ _ _ quiet) (Nat.le_refl _) ?_
      fun _ member => member
    intro call waiting
    rw [queuedFor_cons]
    exact .inr (Nat.lt_of_lt_of_le waiting (Nat.le_add_right _ _))
  | @resent env polledAt queue table posts sock e armed below =>
    obtain ⟨made, last, alone⟩ := places.inflight
    -- only an armed entry is resent, and an armed entry is on schedule
    obtain ⟨start, rand, once, scheduled⟩ := timed.table e (Multiset.mem_cons_self _ _)
    have others : Timed ⟨queue, table, posts⟩
        (log ++ [.expired e.call, .sendto (some e.call) sock e.packet e.addr]) := by
      refine timed.remove.others ?_ made last alone (fun _ waiting => waiting)
      intro other different
      simp [Untimed, Output.timed, different.symm]
    refine others.add ⟨start, rand, ?_, fun _ => (scheduled armed).resend below sock⟩
    rw [armings_append]
    change armings e.call log ++ _ = _
    rw [once]
    simp [armings]
  | @gaveUp env polledAt queue table posts effects e armed limit quiet =>
    obtain ⟨made, last, alone⟩ := places.inflight
    refine timed.remove.others ?_ made last alone (fun _ waiting => waiting)
    intro other different
    refine (untimed_cons _ _ _).mpr ⟨by simp [Output.timed, different.symm], ?_⟩
    exact completion_untimed other _ _ _ _ _ _ quiet
  | unclaimed quiet =>
    refine timed.silent ?_ (Nat.le_refl _) (fun _ waiting => .inr waiting) fun _ member => member
    exact fun call => (untimed_cons _ _ _).mpr ⟨rfl, quiet.untimed call⟩
  | canceled e matched noRequest reset quiet =>
    refine timed.silent ?_ (Nat.le_refl _) (fun _ waiting => .inr waiting)
      fun _ member => Multiset.mem_cons_of_mem member
    exact fun call => (untimed_cons _ _ _).mpr ⟨rfl, completion_untimed call _ _ _ _ _ _ quiet⟩
  | completed e matched response notReset quiet =>
    refine timed.silent ?_ (Nat.le_refl _) (fun _ waiting => .inr waiting)
      fun _ member => Multiset.mem_cons_of_mem member
    exact fun call => (untimed_cons _ _ _).mpr ⟨rfl, completion_untimed call _ _ _ _ _ _ quiet⟩
  | @acknowledged env rx queue table posts e =>
    -- the entry stays tracked, but need not be on schedule any more
    have untimed : ∀ call, Untimed call [Output.received rx] := by simp [Untimed, Output.timed]
    obtain ⟨start, rand, once, _⟩ :=
      (timed.table e (Multiset.mem_cons_self _ _)).frame (untimed e.call)
    have others : Timed ⟨queue, table, posts⟩ (log ++ [.received rx]) :=
      timed.silent untimed (Nat.le_refl _) (fun _ waiting => .inr waiting)
        fun _ member => Multiset.mem_cons_of_mem member
    exact others.add ⟨start, rand, once, fun armed => by cases armed⟩

section runs

variable {app : App} {sock : Int} {resources : List CoapResource}
  {ok : EndpointConfig → Event → Prop} {c : EndpointConfig}

theorem reachable_timed (laws : z.Encodes) (reach : (endpoint z app sock resources).Reachable ok c) :
    Timed c.state.view c.log := by
  refine reach.invariant (fun c => Timed c.state.view c.log) ?_ ?_
  · exact ⟨fun _ _ => untimed_nil _, fun _ member => absurd member (Multiset.notMem_zero _)⟩
  · intro c event reached _ timed
    have all := reachable_allPosts laws reached
    refine (step_refines app laws c.state event all).timed laws all ?_ timed
    intro call
    exact (Nat.le_add_right _ _).trans (reachable_places laws reached call)

/-! ## The clock -/

/-- `k_poll` times out after the moment its timeout was computed, and not before a positive
timeout has elapsed. -/
def pollFair (c : EndpointConfig) : Event → Prop
  | .timeout env polledAt => polledAt ≤ env.uptime ∧
      (0 < pollTimeout c.state.ep polledAt → polledAt + pollTimeout c.state.ep polledAt ≤ env.uptime)
  | _ => True

/-- The timeout is computed less than `2 ^ 31` milliseconds before or after the deadline of
the selected entry. -/
def nearDeadline (c : EndpointConfig) : Event → Prop
  | .timeout _ polledAt => ∀ i start rand, nextRetransmission c.state.ep = some i →
      armings (c.state.ep.inflight.get i).call c.log = [(start, rand)] →
      |(polledAt : Int) - deadlineAt start (firstTimeout rand)
        (c.state.ep.inflight.get i).retransmissionCount| < 2 ^ 31
  | _ => True

/-- When `k_poll` times out, the selected entry is on schedule and its deadline has passed. -/
theorem timeout_due (laws : z.Encodes) (reach : (endpoint z app sock resources).Reachable ok c)
    (i : Fin c.state.ep.inflight.len) (selected : nextRetransmission c.state.ep = some i) :
    ∃ start rand, armings (c.state.ep.inflight.get i).call c.log = [(start, rand)] ∧
      OnSchedule c.log (c.state.ep.inflight.get i) start rand ∧
      ∀ env polledAt, pollFair c (.timeout env polledAt) → nearDeadline c (.timeout env polledAt) →
        deadlineAt start (firstTimeout rand) (c.state.ep.inflight.get i).retransmissionCount ≤
          env.uptime := by
  have armed := nextRetransmission_retransmit c.state.ep i selected
  obtain ⟨start, rand, once, scheduled⟩ :=
    (reachable_timed laws reach).table _ (Multiset.mem_coe.mpr (c.state.ep.inflight.get_mem i))
  refine ⟨start, rand, once, scheduled armed, ?_⟩
  rintro env polledAt ⟨later, elapsed⟩ near
  have remaining : pollTimeout c.state.ep polledAt =
      deadlineAt start (firstTimeout rand) (c.state.ep.inflight.get i).retransmissionCount - polledAt := by
    simp only [pollTimeout, selected]
    exact wrap_remaining 31 (scheduled armed).deadline (near i start rand selected once)
  rw [remaining] at elapsed
  -- a deadline that had passed before the wait has passed after it
  by_cases positive : (polledAt : Int) <
      deadlineAt start (firstTimeout rand) (c.state.ep.inflight.get i).retransmissionCount
  · have passed := elapsed (by omega)
    omega
  · omega

/-- What a timeout puts out: a retransmission of the selected entry, or its end. -/
theorem timeoutStep_cases (z : Zephyr) (app : App) (env : Env) (s : EndpointState)
    (i : Fin s.ep.inflight.len) (selected : nextRetransmission s.ep = some i) :
    (timeoutStep z app env s).2 = [.expired (s.ep.inflight.get i).call,
        .sendto (some (s.ep.inflight.get i).call) s.ep.sock (s.ep.inflight.get i).packet
          (s.ep.inflight.get i).addr] ∨
      maxRetransmissionCount < (retransmitted (s.ep.inflight.get i)).retransmissionCount ∧
        ∃ effects, Quiet effects ∧ (timeoutStep z app env s).2 =
          .expired (s.ep.inflight.get i).call :: .invoked (s.ep.inflight.get i).call
            (s.ep.inflight.get i).responseHandler (s.ep.inflight.get i).responseHandlerData (-eagain)
            none :: effects ++ kFree (s.ep.inflight.get i).packet := by
  rcases retransmitPacket_cases z app env s.ep i with ⟨limit, _, outs⟩ | ⟨_, _, outs⟩
  · obtain ⟨effects, quiet, invoked⟩ := invokeHandler_eq z app env s.ep (s.ep.inflight.get i).call
      (s.ep.inflight.get i).responseHandler (s.ep.inflight.get i).responseHandlerData (-eagain) none
    refine .inr ⟨limit, effects, quiet, ?_⟩
    simp only [timeoutStep, selected, outs, invoked, List.cons_append]
  · refine .inl ?_
    simp only [timeoutStep, selected, outs]

/-! ## Requests that are no longer armed -/

/-- A request that was dequeued is not queued again. -/
theorem Move.dequeued {v v' : View} {event : Event} {outs : List Output} {call : Nat}
    (move : Move z v event outs v') (made : call < v.posts) (dequeued : queuedFor call v.queue = 0) :
    call < v'.posts ∧ queuedFor call v'.queue = 0 := by
  rw [queuedFor_eq_zero] at dequeued ⊢
  refine ⟨Nat.lt_of_lt_of_le made move.posts_le, fun tx member => ?_⟩
  rcases move.waiting tx member with old | new
  · exact dequeued tx old
  · -- a new item has a new call
    obtain ⟨env, args, packet, rfl, rfl, _⟩ := move.queues tx new
    exact Nat.ne_of_gt made

/-- Its entry is the one from before, resent or acknowledged. -/
theorem Move.earlier {v v' : View} {event : Event} {outs : List Output} {call : Nat}
    (move : Move z v event outs v') (dequeued : queuedFor call v.queue = 0) (e' : InflightPacket)
    (member : e' ∈ v'.table) (same : e'.call = call) :
    ∃ e ∈ v.table, e.call = call ∧ (e' = e ∨ (e.retransmit = true ∧ e' = retransmitted e) ∨
      e' = { e with retransmit := false }) := by
  cases move.remains e' member with
  | kept old => exact ⟨e', old, same, .inl rfl⟩
  | @stored env tx waiting =>
    rw [fillInflight_call] at same
    exact absurd same ((queuedFor_eq_zero _ _).mp dequeued tx waiting)
  | resent old armed => exact ⟨_, old, same, .inr (.inl ⟨armed, rfl⟩)⟩
  | acknowledged old => exact ⟨_, old, same, .inr (.inr rfl)⟩

/-- The request was transmitted, and is not armed any more. -/
structure Stopped (call : Nat) (v : View) : Prop where
  made : call < v.posts
  dequeued : queuedFor call v.queue = 0
  unarmed : ∀ e ∈ v.table, e.call = call → e.retransmit = false

/-- A request that is not armed is never armed again. -/
theorem Move.stopped {v v' : View} {event : Event} {outs : List Output} {call : Nat}
    (move : Move z v event outs v') (stopped : Stopped call v) : Stopped call v' := by
  obtain ⟨made, dequeued⟩ := move.dequeued stopped.made stopped.dequeued
  refine ⟨made, dequeued, fun e' member same => ?_⟩
  obtain ⟨e, old, call, rfl | ⟨armed, _⟩ | rfl⟩ := move.earlier stopped.dequeued e' member same
  · exact stopped.unarmed _ old call
  · -- only an armed entry is resent
    rw [stopped.unarmed e old call] at armed
    cases armed
  · rfl

/-- The flag of a request that is armed was never cleared. -/
theorem armed_always (laws : z.Encodes) {b : EndpointConfig}
    (reach : (endpoint z app sock resources).Reachable ok b)
    (leads : (endpoint z app sock resources).Leads ok b c) (e e' : InflightPacket)
    (member : e ∈ c.state.ep.inflight.items) (armed : e.retransmit = true)
    (earlier : e' ∈ b.state.ep.inflight.items) (same : e'.call = e.call) : e'.retransmit = true := by
  -- if the flag had been cleared, the request would be stopped for good
  by_contra cleared
  have places := reachable_places laws reach e.call
  have counted := inflightFor_pos (Multiset.mem_coe.mpr earlier) same
  change 0 < inflightFor e.call b.state.view.table at counted
  have stopped : Stopped e.call b.state.view := by
    by_cases made : e.call < b.state.view.posts
    · rw [if_pos made] at places
      refine ⟨made, by omega, fun e'' member'' same'' => ?_⟩
      rw [entries_unique laws reach e' e'' earlier (Multiset.mem_coe.mp member'')
        (same''.trans same.symm)]
      simpa using cleared
    · rw [if_neg made] at places
      omega
  have later := leads.stable (fun c => (endpoint z app sock resources).Reachable ok c ∧
    Stopped e.call c.state.view) ?_ ⟨reach, stopped⟩
  · have off := later.2.unarmed e (Multiset.mem_coe.mpr member) rfl
    rw [armed] at off
    cases off
  · rintro d event admissible ⟨reached, stopped⟩
    exact ⟨reached.next admissible,
      (step_refines app laws d.state event (reachable_allPosts laws reached)).stopped stopped⟩

/-! ## The schedule of a run -/

/-- A datagram for a request is its first one, or a retransmission of its entry, and not
before the entry's deadline. -/
def SentOnSchedule (c : EndpointConfig) (event : Event) (outs : List Output) : Prop :=
  ∀ call sock packet addr, Output.sendto (some call) sock packet addr ∈ outs →
    (∃ env, event = .transmit env ∧ armings call c.log = [] ∧ sendsFor call c.log = []) ∨
    ∃ env polledAt start rand, event = .timeout env polledAt ∧
      armings call c.log = [(start, rand)] ∧
      ∃ e ∈ c.state.ep.inflight.items, e.call = call ∧ e.retransmit = true ∧
        (pollFair c event → nearDeadline c event →
          deadlineAt start (firstTimeout rand) e.retransmissionCount ≤ env.uptime)

/-- A request is given up at its fifth timeout, after five datagrams, and not before the
sum of its timeouts. -/
def GivenUpOnSchedule (c : EndpointConfig) (event : Event) (outs : List Output) : Prop :=
  ∀ call handler data response, Output.invoked call handler data (-eagain) response ∈ outs →
    ∃ env polledAt start rand, event = .timeout env polledAt ∧
      armings call c.log = [(start, rand)] ∧
      (sendsFor call (c.log ++ outs)).length = 5 ∧ expiriesFor call (c.log ++ outs) = 5 ∧
      (∃ e ∈ c.state.ep.inflight.items, e.call = call ∧ e.retransmit = true) ∧
      (pollFair c event → nearDeadline c event → start + 31 * firstTimeout rand ≤ env.uptime)

/-- Only a timeout reports `-EAGAIN`. -/
theorem Move.eagain {v v' : View} {event : Event} {outs : List Output}
    (move : Move z v event outs v') {call : Nat} {handler : ResponseHandler} {data : HandlerData}
    {response : Option CoapPacket}
    (invoked : Output.invoked call handler data (-eagain) response ∈ outs) :
    ∃ env polledAt, event = .timeout env polledAt := by
  cases move.explained _ invoked with
  | handler absurd => cases absurd
  | gaveUp => exact ⟨_, _, rfl⟩
  | dropped _ err | canceled _ err | completed _ _ _ err => exact absurd err (by decide)

theorem kFree_untimed (call : Nat) (packet : CoapPacket) : Untimed call (kFree packet) := by
  simp [Untimed, kFree, Output.timed]

theorem sent_onSchedule (laws : z.Encodes) (reach : (endpoint z app sock resources).Reachable ok c)
    (event : Event) : SentOnSchedule c event (step z app c.state event).2 := by
  intro call sock packet addr sent
  have move := step_refines app laws c.state event (reachable_allPosts laws reach)
  rcases move.sendto sent with ⟨env, rfl, tx, queued, same, _⟩ | ⟨env, polledAt, rfl, _⟩
  · -- a queued request has no history
    have waiting : 0 < queuedFor call c.state.view.queue :=
      List.countP_pos_iff.mpr ⟨tx, queued, by simpa using same⟩
    have fresh := (reachable_timed laws reach).fresh call (.inr waiting)
    exact .inl ⟨env, rfl, fresh.armings, fresh.sendsFor⟩
  · simp only [step] at sent
    cases selected : nextRetransmission c.state.ep with
    | none =>
      simp only [timeoutStep, selected] at sent
      cases sent
    | some i =>
      obtain ⟨start, rand, once, scheduled, due⟩ := timeout_due laws reach i selected
      have armed := nextRetransmission_retransmit c.state.ep i selected
      have same : call = (c.state.ep.inflight.get i).call := by
        rcases timeoutStep_cases z app env c.state i selected with
          outs | ⟨_, effects, quiet, outs⟩
        · rw [outs] at sent
          simp only [List.mem_cons, reduceCtorEq, Output.sendto.injEq, Option.some.injEq, false_or,
            List.not_mem_nil, or_false] at sent
          exact sent.1
        · -- giving up sends nothing for a request
          rw [outs] at sent
          have other := quiet.notMem (o := .sendto (some call) sock packet addr) rfl
          simp [kFree, other] at sent
      subst same
      exact .inr ⟨env, polledAt, start, rand, rfl, once, _, c.state.ep.inflight.get_mem i, rfl, armed,
        due env polledAt⟩

theorem givenUp_onSchedule (laws : z.Encodes) (reach : (endpoint z app sock resources).Reachable ok c)
    (event : Event) : GivenUpOnSchedule c event (step z app c.state event).2 := by
  intro call handler data response invoked
  have move := step_refines app laws c.state event (reachable_allPosts laws reach)
  obtain ⟨env, polledAt, rfl⟩ := move.eagain invoked
  simp only [step] at invoked ⊢
  cases selected : nextRetransmission c.state.ep with
  | none =>
    simp only [timeoutStep, selected] at invoked
    cases invoked
  | some i =>
    obtain ⟨start, rand, once, scheduled, due⟩ := timeout_due laws reach i selected
    have armed := nextRetransmission_retransmit c.state.ep i selected
    rcases timeoutStep_cases z app env c.state i selected with
      outs | ⟨limit, effects, quiet, outs⟩
    · rw [outs] at invoked
      simp at invoked
    · rw [outs] at invoked ⊢
      have other := quiet.notMem (o := .invoked call handler data (-eagain) response) rfl
      have same : call = (c.state.ep.inflight.get i).call := by
        simp only [List.cons_append, List.mem_cons, reduceCtorEq, false_or, Output.invoked.injEq,
          List.mem_append, other, kFree, List.mem_map, and_false, exists_false, or_false] at invoked
        exact invoked.1
      subst same
      -- on schedule the count is at most four, and one more is over the limit
      have four : (c.state.ep.inflight.get i).retransmissionCount = 4 := by
        have bound := scheduled.count
        simp only [retransmitted, maxRetransmissionCount] at limit bound
        omega
      -- what the handler does is not part of the history of sends
      have rest : Untimed (c.state.ep.inflight.get i).call (.invoked (c.state.ep.inflight.get i).call
          (c.state.ep.inflight.get i).responseHandler (c.state.ep.inflight.get i).responseHandlerData
          (-eagain) none :: effects ++ kFree (c.state.ep.inflight.get i).packet) := by
        rw [List.cons_append, untimed_cons, untimed_append]
        exact ⟨rfl, quiet.untimed _, kFree_untimed _ _⟩
      refine ⟨env, polledAt, start, rand, rfl, once, ?_, ?_,
        ⟨_, c.state.ep.inflight.get_mem i, rfl, armed⟩, fun fair near => ?_⟩
      · rw [List.cons_append, List.append_cons, sendsFor_append, rest.sendsFor, sendsFor_append,
          scheduled.sent, four]
        simp [sendsFor]
      · rw [List.cons_append, List.append_cons, expiriesFor_append, rest.expiriesFor, expiriesFor_append,
          scheduled.expired, four]
        simp [expiriesFor]
      · -- the fifth deadline is the start and 2 ^ 5 - 1 first timeouts
        have passed := due env polledAt fair near
        simp only [four, deadlineAt] at passed
        omega

/-- The retransmission schedule: in every reachable state each armed request was transmitted
once and its entry agrees with the schedule from then; datagrams and timeouts come when the
schedule says; and a request that is given up was armed ever since it was transmitted. -/
theorem retransmission_schedule (laws : z.Encodes)
    (reach : (endpoint z app sock resources).Reachable ok c) :
    (∀ e ∈ c.state.ep.inflight.items, e.retransmit = true →
      ∃ start rand, armings e.call c.log = [(start, rand)] ∧ OnSchedule c.log e start rand) ∧
    (∀ event, SentOnSchedule c event (step z app c.state event).2 ∧
      GivenUpOnSchedule c event (step z app c.state event).2) ∧
    (∀ e ∈ c.state.ep.inflight.items, e.retransmit = true → ∀ b,
      (endpoint z app sock resources).Reachable ok b → (endpoint z app sock resources).Leads ok b c →
        ∀ e' ∈ b.state.ep.inflight.items, e'.call = e.call → e'.retransmit = true) := by
  refine ⟨?_, ?_, ?_⟩
  · intro e member armed
    obtain ⟨start, rand, once, scheduled⟩ :=
      (reachable_timed laws reach).table e (Multiset.mem_coe.mpr member)
    exact ⟨start, rand, once, scheduled armed⟩
  · intro event
    exact ⟨sent_onSchedule laws reach event, givenUp_onSchedule laws reach event⟩
  · intro e member armed b reached leads e' earlier same
    exact armed_always laws reached leads e e' member armed earlier same

end runs

def firstSent : EndpointConfig := sampleRun [samplePost 0, .transmit (calmEnv 1 5)]

/-- The request was transmitted again, four times. -/
def resentRun : EndpointConfig :=
  sampleEndpoint.run firstSent [.timeout (calmEnv 2 10005) 6, .timeout (calmEnv 2 30005) 10006,
    .timeout (calmEnv 2 70005) 30006, .timeout (calmEnv 2 150005) 70006]

def lastTimeout : Event := .timeout (calmEnv 2 310005) 150006

theorem resentRun_led : sampleEndpoint.Leads anyEvent firstSent resentRun :=
  Machine.leads_run _ _ (Machine.admits_true _ _)

theorem retransmission_schedule_resent :
    ∃ e ∈ resentRun.state.ep.inflight.items, e.retransmissionCount = 4 ∧
      (∃ start rand, armings e.call resentRun.log = [(start, rand)] ∧ OnSchedule resentRun.log e start rand) ∧
      (∀ e' ∈ firstSent.state.ep.inflight.items, e'.call = e.call → e'.retransmit = true) ∧
      Output.invoked e.call .postHandler ⟨0, serverAddr⟩ (-eagain) none ∈
        (step rfcZephyr plainApp resentRun.state lastTimeout).2 ∧
      GivenUpOnSchedule resentRun lastTimeout (step rfcZephyr plainApp resentRun.state lastTimeout).2 := by
  have first : sampleEndpoint.Reachable anyEvent firstSent := sampleRun_reachable _
  obtain ⟨entries, steps, always⟩ :=
    retransmission_schedule rfcZephyr_encodes (resentRun_led.reachable first)
  have armed : ∃ e ∈ resentRun.state.ep.inflight.items, e.retransmissionCount = 4 ∧ e.retransmit = true ∧
      Output.invoked e.call .postHandler ⟨0, serverAddr⟩ (-eagain) none ∈
        (step rfcZephyr plainApp resentRun.state lastTimeout).2 := by decide +kernel
  obtain ⟨e, member, count, armed, ended⟩ := armed
  exact ⟨e, member, count, entries e member armed, always e member armed firstSent first resentRun_led, ended,
    (steps lastTimeout).2⟩

end DtApp.Coap
