import DtApp.Coap.TxrxLoop

/-!
# Transmit items

`coap_endpoint_post_async` allocates an item, fills it and puts it on `tx_fifo`; `txrx_thread` takes
it from there, transmits its packet and releases it. An item is named by the number of its allocation.
-/
namespace DtApp.Coap

open Inventory History

/-! ## Situations of an item -/

def PostPlace.item : PostPlace → Option Nat
  | .encoding _ item => some item
  | _ => none

def LoopPlace.txItem : LoopPlace → Option Nat
  | .transmitting item _ | .freeingTx item => some item
  | _ => none

/-- How many calls are filling the item. -/
def fillingTx (calls : List PostPlace) (item : Nat) : Nat :=
  calls.countP fun call => call.item == some item

def queuedTx (fifo : List (Nat × PacketTxDataItem)) (item : Nat) : Nat :=
  fifo.countP fun entry => entry.1 == item

/-- The item is with `txrx_thread`. -/
def transmittingTx (place : LoopPlace) (item : Nat) : Nat := if place.txItem = some item then 1 else 0

def LoopState.txStock (s : LoopState) : Stock :=
  ⟨fun item => fillingTx s.calls item + queuedTx s.txFifo item + transmittingTx s.place item, s.txItems⟩

/-- The uses of transmit items. -/
def txUses (log : List LoopOutput) : List Use :=
  log.filterMap fun
    | .tx use => some use
    | .threads _ => none

@[simp] theorem txUses_nil : txUses [] = [] := rfl

@[simp] theorem txUses_tx (use : Use) (log : List LoopOutput) :
    txUses (.tx use :: log) = use :: txUses log := rfl

@[simp] theorem txUses_threads (o : RxOutput) (log : List LoopOutput) :
    txUses (.threads o :: log) = txUses log := rfl

@[simp] theorem txUses_append (xs ys : List LoopOutput) : txUses (xs ++ ys) = txUses xs ++ txUses ys :=
  List.filterMap_append

@[simp] theorem txUses_map (outs : List RxOutput) : txUses (outs.map .threads) = [] := by
  induction outs with
  | nil => rfl
  | cons o outs ih => rw [List.map_cons, txUses_threads, ih]

@[simp] theorem txUses_endpoint (outs : List Output) : txUses (endpointOuts outs) = [] := by
  induction outs with
  | nil => rfl
  | cons o outs ih => exact ih

@[simp] theorem txUses_posted (s : LoopState) (args : PostArgs) (ret : Int) (log : List LoopOutput) :
    txUses (posted s args ret :: log) = txUses log := rfl

/-! ## Steps -/

variable (z : Zephyr) (app : App)

/-- Replacing the place of one call changes the count by that call. -/
theorem fillingTx_set {calls : List PostPlace} {i : Nat} {old : PostPlace} (at_ : calls[i]? = some old)
    (new : PostPlace) (item : Nat) :
    fillingTx (calls.set i new) item + (if old.item = some item then 1 else 0) =
      fillingTx calls item + if new.item = some item then 1 else 0 := by
  obtain ⟨inside, rfl⟩ := List.getElem?_eq_some_iff.mp at_
  have positive (here : calls[i].item = some item) : 0 < fillingTx calls item :=
    List.countP_pos_iff.mpr ⟨_, List.getElem_mem inside, by simp [here]⟩
  simp only [fillingTx] at positive ⊢
  rw [List.countP_set inside]
  simp only [beq_iff_eq]
  split
  · next here =>
    have most := positive here
    omega
  · omega

/-- A call that had no item and has none now changes nothing. -/
theorem quiet_handles {s s' : LoopState} {i : Nat} {old new : PostPlace} (at_ : s.calls[i]? = some old)
    (set : s'.calls = s.calls.set i new) (before : old.item = none) (after : new.item = none)
    (fifo : s'.txFifo = s.txFifo) (place : s'.place = s.place) (items : s'.txItems = s.txItems) :
    Handles s.txStock s'.txStock [] := by
  refine .stays (fun item => ?_) items
  have same := fillingTx_set at_ new item
  simp only [before, after, reduceCtorEq, if_false] at same
  simp only [LoopState.txStock, fifo, place, set]
  omega

theorem postAsyncStep_handles (s : LoopState) (i : Nat) (env : Env) :
    Handles s.txStock (postAsyncStep z s i env).1.txStock (txUses (postAsyncStep z s i env).2) := by
  unfold postAsyncStep
  split
  · next args at_ =>
    split
    · exact quiet_handles at_ rfl rfl rfl rfl rfl rfl
    · exact quiet_handles at_ rfl rfl rfl rfl rfl rfl
  · next args at_ =>
    split
    · refine .allocated (fun item => ?_) rfl
      have filling := fillingTx_set at_ (.encoding args s.txItems) item
      simp only [PostPlace.item, reduceCtorEq, if_false, Option.some.injEq] at filling
      change _ = fillingTx s.calls item + queuedTx s.txFifo item + transmittingTx s.place item +
        if s.txItems = item then 1 else 0
      simp only [LoopState.txStock]
      omega
    · exact quiet_handles at_ rfl rfl rfl rfl rfl rfl
  · next args item at_ =>
    have held : 0 < s.txStock.held item := by
      have here : 0 < fillingTx s.calls item :=
        List.countP_pos_iff.mpr ⟨_, List.mem_of_getElem? at_, by simp [PostPlace.item]⟩
      simp only [LoopState.txStock]
      omega
    have filling (other : Nat) := fillingTx_set at_ .returned other
    simp only [PostPlace.item, reduceCtorEq, if_false, Option.some.injEq] at filling
    dsimp only
    split
    · -- an item whose message was not encoded is given back
      refine .released [.accessed item] (by simp) (fun other => ?_) rfl
      have before := filling other
      simp only [LoopState.txStock, returnPost]
      omega
    · refine .passed (fun other => ?_) rfl held
      have before := filling other
      simp only [LoopState.txStock, returnPost, queuedTx, List.countP_append, List.countP_cons,
        List.countP_nil, beq_iff_eq]
      omega
  · exact .stays (fun _ => rfl) rfl

theorem txrxThreadStep_handles (s : LoopState) (env : Env) (answer : PollAnswer) :
    Handles s.txStock (loopStep z app s (.txrx env answer)).1.txStock
      (txUses (loopStep z app s (.txrx env answer)).2) := by
  obtain ⟨ep, txFifo, rxFifo, calls, recv, place, txReady, rxReady, posts, txItems, rxItems, clock⟩ := s
  cases place with
  | selecting => exact .stays (fun _ => rfl) rfl
  | polling retransmission timeout polledAt => cases answer <;> exact .stays (fun _ => rfl) rfl
  | retransmitting retransmission polledAt =>
    simp only [loopStep, txrxThreadStep]
    cases retransmission with
    | none => exact .stays (fun _ => rfl) rfl
    | some i =>
      simp only [retransmitSelected]
      split
      · rw [txUses_endpoint]
        exact .stays (fun _ => rfl) rfl
      · exact .stays (fun _ => rfl) rfl
  | testingTx => cases txReady <;> exact .stays (fun _ => rfl) rfl
  | takingTx =>
    cases txFifo with
    | nil => exact .stays (fun _ => rfl) rfl
    | cons entry rest =>
      refine .passed (fun other => ?_) rfl ?_
      · simp [loopStep, txrxThreadStep, LoopState.txStock, queuedTx, transmittingTx, LoopPlace.txItem,
          List.countP_cons]
        omega
      · simp [LoopState.txStock, queuedTx]
  | transmitting item tx =>
    simp only [loopStep, txrxThreadStep, txUses_tx, txUses_endpoint]
    refine .passed (fun _ => rfl) rfl ?_
    simp [LoopState.txStock, transmittingTx, LoopPlace.txItem]
  | freeingTx item =>
    refine .released [] (by simp) (fun other => ?_) rfl
    simp [loopStep, txrxThreadStep, LoopState.txStock, queuedTx, transmittingTx, LoopPlace.txItem]
  | testingRx => cases rxReady <;> exact .stays (fun _ => rfl) rfl
  | takingRx => cases rxFifo <;> exact .stays (fun _ => rfl) rfl
  | receiving item rx =>
    simp only [loopStep, txrxThreadStep, txUses_threads, txUses_endpoint]
    exact .stays (fun _ => rfl) rfl
  | freeingRx item => exact .stays (fun _ => rfl) rfl

variable {z app} {sock : Int} {resources : List CoapResource}

variable (z app sock resources) in
theorem run_txKept (es : List LoopEvent) :
    Kept ((txrxLoop z app sock resources).run (txrxLoop z app sock resources).start es).state.txStock
      (txUses ((txrxLoop z app sock resources).run (txrxLoop z app sock resources).start es).log) := by
  refine (txrxLoop z app sock resources).run_invariant
    (fun _ c => Kept c.state.txStock (txUses c.log)) (kept_nil (fun _ => rfl) rfl) ?_ es
  intro es event kept
  generalize (txrxLoop z app sock resources).run _ es = c at kept ⊢
  simp only [Machine.next, txUses_append]
  apply kept.handles
  cases event with
  | call args =>
    refine .stays (fun item => ?_) rfl
    simp [txrxLoop, loopStep, LoopState.txStock, fillingTx, PostPlace.item, List.countP_append]
  | post i env => exact postAsyncStep_handles z c.state i env
  | recv calloc recvfrom =>
    simp only [txrxLoop, loopStep, recvThreadStep, txUses_map]
    exact .stays (fun _ => rfl) rfl
  | txrx env answer => exact txrxThreadStep_handles z app c.state env answer

/-- Every item that was allocated is in one place, and not used any more when it was released; none is
left when no thread has one. -/
structure TxItemsKept (c : LoopConfig) : Prop where
  placed : ∀ item < c.state.txItems, fillingTx c.state.calls item + queuedTx c.state.txFifo item +
    transmittingTx c.state.place item + (txUses c.log).count (.released item) = 1
  releasedOnce : ∀ item, (txUses c.log).count (.released item) ≤ 1
  untouched : Each Unreleased (txUses c.log)
  drained : (∀ call ∈ c.state.calls, call.item = none) → c.state.txFifo = [] →
    c.state.place.txItem = none → ∀ item < c.state.txItems, .released item ∈ txUses c.log

/-- Transmit items are neither leaked nor reused, in every run of the threads. -/
theorem txItems_kept (es : List LoopEvent) :
    TxItemsKept ((txrxLoop z app sock resources).run (txrxLoop z app sock resources).start es) := by
  have kept := run_txKept z app sock resources es
  generalize (txrxLoop z app sock resources).run _ es = c at kept ⊢
  have placed : ∀ item < c.state.txItems, fillingTx c.state.calls item + queuedTx c.state.txFifo item +
      transmittingTx c.state.place item + (txUses c.log).count (.released item) = 1 := by
    intro item allocated
    have balance := kept.balance item
    rwa [if_pos (show item < c.state.txStock.items from allocated)] at balance
  refine ⟨placed, kept.released_once, kept.untouched, fun idle empty waiting item allocated => ?_⟩
  have one := placed item allocated
  have unfilled : fillingTx c.state.calls item = 0 := by
    refine List.countP_eq_zero.mpr fun call member => ?_
    simp [idle call member]
  have unqueued : queuedTx c.state.txFifo item = 0 := by rw [empty]; rfl
  have untransmitted : transmittingTx c.state.place item = 0 := by simp [transmittingTx, waiting]
  exact List.count_pos_iff.mp (by omega)

/-! ## Blocking -/

/-- How many steps of `txrx_thread` lie before the one that brings it to the head of its loop. -/
def LoopPlace.rank : LoopPlace → Nat
  | .freeingRx _ | .retransmitting .. => 0
  | .receiving .. => 1
  | .takingRx => 2
  | .testingRx => 3
  | .freeingTx _ => 4
  | .transmitting .. => 5
  | .takingTx => 6
  | .testingTx => 7
  | .polling .. => 8
  | .selecting => 9

theorem LoopPlace.rank_le (place : LoopPlace) : place.rank ≤ 9 := by
  cases place <;> simp [rank]

def LoopEvent.isTxrx : LoopEvent → Bool
  | .txrx .. => true
  | _ => false

/-- A step of `txrx_thread` brings it to the head of its loop, or closer: where it takes an item there
is one. -/
theorem txrxThreadStep_rank (s : LoopState) (sound : PlaceSound s) (env : Env) (answer : PollAnswer) :
    (s.place ≠ .selecting ∧ (loopStep z app s (.txrx env answer)).1.place = .selecting) ∨
      (loopStep z app s (.txrx env answer)).1.place.rank + 1 ≤ s.place.rank := by
  obtain ⟨ep, txFifo, rxFifo, calls, recv, place, txReady, rxReady, posts, txItems, rxItems, clock⟩ := s
  cases place with
  | selecting => exact .inr (Nat.le_refl _)
  | polling retransmission timeout polledAt =>
    cases answer <;> simp [loopStep, txrxThreadStep, LoopPlace.rank]
  | retransmitting retransmission polledAt =>
    dsimp only [PlaceSound] at sound
    obtain ⟨_, ⟨i, _, rfl⟩, _⟩ := sound
    refine .inl ⟨by simp, ?_⟩
    simp only [loopStep, txrxThreadStep, retransmitSelected]
    split <;> rfl
  | testingTx => cases txReady <;> simp [loopStep, txrxThreadStep, LoopPlace.rank]
  | takingTx =>
    cases txFifo with
    | nil => exact absurd rfl sound.2.1
    | cons entry rest => exact .inr (Nat.le_refl _)
  | testingRx => cases rxReady <;> simp [loopStep, txrxThreadStep, LoopPlace.rank]
  | takingRx =>
    cases rxFifo with
    | nil => exact absurd rfl sound.2.2
    | cons entry rest => exact .inr (Nat.le_refl _)
  | transmitting | freeingTx | receiving => exact .inr (Nat.le_refl _)
  | freeingRx => exact .inl ⟨by simp, rfl⟩

/-- At this event `txrx_thread` comes back to the head of its loop. -/
def ComesRound (z : Zephyr) (app : App) (sock : Int) (resources : List CoapResource) (c : LoopConfig)
    (event : LoopEvent) : Prop :=
  c.state.place ≠ .selecting ∧ ((txrxLoop z app sock resources).next c event).state.place = .selecting

theorem next_rank {c : LoopConfig} (reach : (txrxLoop z app sock resources).Reachable kernelOk c)
    (event : LoopEvent) (away : ¬ComesRound z app sock resources c event) :
    ((txrxLoop z app sock resources).next c event).state.place.rank + (if event.isTxrx then 1 else 0) ≤
      c.state.place.rank := by
  cases event with
  | txrx env answer =>
    exact (txrxThreadStep_rank c.state (reachable_placeSound reach) env answer).resolve_left away
  | call args => exact Nat.le_refl _
  | post i env =>
    have place := (postAsyncStep_others z c.state i env).place
    exact Nat.le_of_eq (congrArg LoopPlace.rank place)
  | recv calloc recvfrom => exact Nat.le_refl _

/-- Whatever the other threads do, within ten of its own steps `txrx_thread` comes back to the head of
its loop from another place: it is never blocked but in `k_poll`. -/
theorem loop_comes_round {c : LoopConfig} (reach : (txrxLoop z app sock resources).Reachable kernelOk c)
    (es : List LoopEvent) (admits : (txrxLoop z app sock resources).Admits kernelOk c es)
    (enough : 10 ≤ es.countP LoopEvent.isTxrx) :
    ∃ before env answer after, es = before ++ .txrx env answer :: after ∧
      ((txrxLoop z app sock resources).run c before).state.place ≠ .selecting ∧
      ((txrxLoop z app sock resources).run c (before ++ [.txrx env answer])).state.place = .selecting := by
  have most := c.state.place.rank_le
  have bound : c.state.place.rank < es.countP LoopEvent.isTxrx := by omega
  obtain ⟨before, event, after, rfl, _, away, back⟩ := Machine.Admits.happens LoopEvent.isTxrx
    (fun c => c.state.place.rank) (ComesRound z app sock resources)
    (fun _ event reached _ => next_rank reached event) es c reach admits bound
  cases event with
  | txrx env answer =>
    refine ⟨before, env, answer, after, rfl, away, ?_⟩
    rw [Machine.run_append]
    exact back
  -- the other threads leave this one where it is
  | call args => exact absurd back away
  | post i env => exact absurd ((postAsyncStep_others z _ i env).place.symm.trans back) away
  | recv calloc recvfrom => exact absurd back away

/-- `txrx_thread` transmits the second request while a third one is posted and `recv_thread` waits. -/
def thirdRequest : List LoopEvent := [
  .txrx (calmEnv 1 15007) .failed, sampleCall 2, .txrx (calmEnv 1 15008) .failed, .post 2 (calmEnv 3 0),
  .txrx (calmEnv 1 15009) .failed, .recv true none, .txrx (calmEnv 1 15009) .failed,
  .post 2 (calmEnv 3 0), .txrx (calmEnv 1 15010) .failed, .post 2 (calmEnv 3 0),
  .txrx (calmEnv 1 15011) (.ready true false), .txrx (calmEnv 1 15012) .failed,
  .txrx (calmEnv 1 15012) .failed, .txrx (calmEnv 1 15013) .failed, .txrx (calmEnv 1 15014) .failed]

theorem loop_comes_round_taking :
    ∃ before env answer after, thirdRequest = before ++ .txrx env answer :: after ∧
      ((txrxLoop rfcZephyr plainApp 3 mainResources).run takingRun before).state.place ≠ .selecting ∧
      ((txrxLoop rfcZephyr plainApp 3 mainResources).run takingRun
        (before ++ [.txrx env answer])).state.place = .selecting :=
  loop_comes_round takingRun_reachable _ (by decide +kernel) (by decide +kernel)

/-- What holds of the poll events, the FIFOs and the selected pointer in every reachable state. -/
structure PollsSoundly (s : LoopState) : Prop where
  /-- No event is set when `k_poll` is called. -/
  unset : ∀ retransmission timeout polledAt, s.place = .polling retransmission timeout polledAt →
    s.txReady = false ∧ s.rxReady = false
  /-- The pointer that `k_poll` leaves standing is the entry selected now, with its timeout. -/
  selected : ∀ retransmission timeout polledAt, s.place = .polling retransmission timeout polledAt →
    retransmission = (nextRetransmission s.ep).map Fin.val ∧ timeout = pollTimeout s.ep polledAt
  retransmits : ∀ retransmission polledAt, s.place = .retransmitting retransmission polledAt →
    ∃ i, nextRetransmission s.ep = some i ∧ retransmission = some i.val
  /-- `k_fifo_get` finds an item. -/
  takesTx : s.place = .takingTx → s.txFifo ≠ []
  takesRx : s.place = .takingRx → s.rxFifo ≠ []

theorem polls_soundly {c : LoopConfig} (reach : (txrxLoop z app sock resources).Reachable kernelOk c) :
    PollsSoundly c.state := by
  have sound := reachable_placeSound reach
  unfold PlaceSound at sound
  constructor
  · intro retransmission timeout polledAt at_
    simp only [at_] at sound
    exact sound.1
  · intro retransmission timeout polledAt at_
    simp only [at_] at sound
    exact ⟨sound.2.1, sound.2.2.1⟩
  · intro retransmission polledAt at_
    simp only [at_] at sound
    exact sound.2.1
  · intro at_
    simp only [at_] at sound
    exact sound.2.1
  · intro at_
    simp only [at_] at sound
    exact sound.2.2

theorem polls_soundly_taking : takingRun.state.place = .takingTx ∧ takingRun.state.txFifo ≠ [] :=
  have place : takingRun.state.place = .takingTx := by decide +kernel
  ⟨place, (polls_soundly takingRun_reachable).takesTx place⟩

/-! ## Order -/

/-- The request that was put on `tx_fifo`. -/
def Output.queuedCall : Output → Option Nat
  | .queued tx => some tx.call
  | _ => none

/-- The request that `transmit_packet` took up: it was sent and armed, or refused for want of memory. -/
def Output.transmittedCall : Output → Option Nat
  | .armed call _ _ => some call
  | .invoked call _ _ err _ => if err = -enomem then some call else none
  | _ => none

/-- What was queued is what was transmitted, followed by what is still queued. -/
def InOrder (v : View) (log : List Output) : Prop :=
  log.filterMap Output.queuedCall =
    log.filterMap Output.transmittedCall ++ v.queue.map PacketTxDataItem.call

theorem Quiet.queuedCall {outs : List Output} (quiet : Quiet outs) :
    outs.filterMap Output.queuedCall = [] :=
  quiet.filterMap_eq_nil _ fun o some => by cases o <;> simp_all [Output.queuedCall, Output.fromHandler]

theorem Quiet.transmittedCall {outs : List Output} (quiet : Quiet outs) :
    outs.filterMap Output.transmittedCall = [] :=
  quiet.filterMap_eq_nil _ fun o some => by
    cases o <;> simp_all [Output.transmittedCall, Output.fromHandler]

section completion

variable (call : Nat) (handler : ResponseHandler) (data : HandlerData) (err : Int)
  (response : Option CoapPacket) {effects : List Output} (quiet : Quiet effects)

include quiet

theorem completion_queuedCall :
    (completion call handler data err response effects).filterMap Output.queuedCall = [] := by
  simp [completion, List.filterMap_cons, List.filterMap_append, Output.queuedCall, quiet.queuedCall]

/-- Only for want of memory is a request completed by `transmit_packet`. -/
theorem completion_transmittedCall :
    (completion call handler data err response effects).filterMap Output.transmittedCall =
      if err = -enomem then [call] else [] := by
  simp only [completion, List.cons_append, List.filterMap_cons, List.filterMap_append,
    quiet.transmittedCall, Output.transmittedCall]
  split <;> simp_all

end completion

theorem Move.inOrder {v v' : View} {event : Event} {outs log : List Output}
    (move : Move z v event outs v') (order : InOrder v log) : InOrder v' (log ++ outs) := by
  unfold InOrder at order ⊢
  rw [List.filterMap_append, List.filterMap_append, order]
  cases move with
  | refused negative released =>
    rcases released with rfl | rfl <;>
      simp [List.filterMap_cons, Output.queuedCall, Output.transmittedCall]
  | queued => simp [List.filterMap_cons, Output.queuedCall, Output.transmittedCall, txItem]
  | idle => simp
  | stored => simp [List.filterMap_cons, Output.queuedCall, Output.transmittedCall]
  | dropped quiet => simp [completion_queuedCall _ _ _ _ _ quiet, completion_transmittedCall _ _ _ _ _ quiet]
  | resent => simp [List.filterMap_cons, Output.queuedCall, Output.transmittedCall]
  | gaveUp e armed limit quiet =>
    simp [List.filterMap_cons, Output.queuedCall, Output.transmittedCall, InflightPacket.completion,
      completion_queuedCall _ _ _ _ _ quiet, completion_transmittedCall _ _ _ _ _ quiet, Coap.eagain,
      enomem]
  | unclaimed quiet =>
    simp [List.filterMap_cons, Output.queuedCall, Output.transmittedCall, quiet.queuedCall,
      quiet.transmittedCall]
  | canceled e matched noRequest reset quiet =>
    simp [List.filterMap_cons, Output.queuedCall, Output.transmittedCall, InflightPacket.completion,
      completion_queuedCall _ _ _ _ _ quiet, completion_transmittedCall _ _ _ _ _ quiet, ecanceled,
      enomem]
  | completed e matched response notReset quiet =>
    simp [List.filterMap_cons, Output.queuedCall, Output.transmittedCall, InflightPacket.completion,
      completion_queuedCall _ _ _ _ _ quiet, completion_transmittedCall _ _ _ _ _ quiet, enomem]
  | acknowledged => simp [List.filterMap_cons, Output.queuedCall, Output.transmittedCall]

/-- First in, first out: the requests that `transmit_packet` took up, with the one that the loop has in
its hands and those in `tx_fifo`, are the ones that were queued, in the order in which they were. -/
theorem transmitted_in_order (laws : z.Encodes) {c : LoopConfig}
    (reach : (txrxLoop z app sock resources).Reachable kernelOk c) :
    (endpointOutputs (threadsOutputs c.log)).filterMap Output.queuedCall =
      (endpointOutputs (threadsOutputs c.log)).filterMap Output.transmittedCall ++
        (c.state.place.tx ++ c.state.txFifo.map Prod.snd).map PacketTxDataItem.call := by
  have init : InOrder ⟨[], 0, 0⟩ [] := rfl
  exact reachable_invariant laws InOrder init (fun v log e outs v' _ move order => move.inOrder order)
    (loop_refines reach).2

/-- The first request was transmitted, and the second one is still queued. -/
theorem transmitted_in_order_taking :
    (endpointOutputs (threadsOutputs takingRun.log)).filterMap Output.transmittedCall = [0] ∧
    takingRun.state.txFifo.map (fun entry => entry.2.call) = [1] ∧
    (endpointOutputs (threadsOutputs takingRun.log)).filterMap Output.queuedCall =
      (endpointOutputs (threadsOutputs takingRun.log)).filterMap Output.transmittedCall ++
        (takingRun.state.place.tx ++ takingRun.state.txFifo.map Prod.snd).map PacketTxDataItem.call :=
  ⟨by decide +kernel, by decide +kernel, transmitted_in_order rfcZephyr_encodes takingRun_reachable⟩

end DtApp.Coap
