import DtApp.Library.Inventory
import DtApp.Coap.RxItems
import DtApp.Coap.Schedule

/-!
# The loop of `txrx_thread`

The threads one access after the other: `txrx_thread` with the poll events and the pointer that it
keeps across `k_poll`, `recv_thread`, and any number of threads that are inside
`coap_endpoint_post_async`. Between any two of these steps the other threads may run.
-/
namespace DtApp.Coap

open Inventory

/-! ## The threads -/

/-- What `k_poll` returns: 0 with the state of the ready events set, `-EAGAIN`, or another error. -/
inductive PollAnswer where
  | ready (tx rx : Bool)
  | timedOut
  | failed

/-- Where `txrx_thread` stands, by what it does next. A pointer into the table is an index; `polledAt`
is when the timeout was computed. -/
inductive LoopPlace where
  | selecting
  | polling (retransmission : Option Nat) (timeout : Int) (polledAt : Nat)
  | retransmitting (retransmission : Option Nat) (polledAt : Nat)
  | testingTx
  | takingTx
  | transmitting (item : Nat) (tx : PacketTxDataItem)
  | freeingTx (item : Nat)
  | testingRx
  | takingRx
  | receiving (item : Nat) (rx : PacketRxDataItem)
  | freeingRx (item : Nat)
  deriving DecidableEq

/-- Where a call of `coap_endpoint_post_async` stands. -/
inductive PostPlace where
  | allocatingData (args : PostArgs)
  | allocatingTx (args : PostArgs)
  | encoding (args : PostArgs) (item : Nat)
  | returned

structure LoopState where
  ep : CoapEndpoint
  txFifo : List (Nat × PacketTxDataItem)
  rxFifo : List (Nat × PacketRxDataItem)
  /-- the calls of `coap_endpoint_post_async`, in the order in which they began -/
  calls : List PostPlace
  recv : RecvPlace
  place : LoopPlace
  /-- `events[i].state == K_POLL_STATE_FIFO_DATA_AVAILABLE` -/
  txReady : Bool
  rxReady : Bool
  -- ghost: how many calls returned, how many items were allocated, and the last reading of the clock
  posts : Nat
  txItems : Nat
  rxItems : Nat
  clock : Nat

inductive LoopEvent where
  | call (args : PostArgs)
  | post (i : Nat) (env : Env)
  | recv (calloc : Bool) (recvfrom : Option (List UInt8 × SockAddr))
  | txrx (env : Env) (answer : PollAnswer)

inductive LoopOutput where
  /-- A use of a transmit item. -/
  | tx (use : Use)
  | threads (o : RxOutput)
  deriving DecidableEq

/-! ## Seen from the endpoint -/

/-- An item that was taken is still queued for the endpoint, until it is transmitted. -/
def LoopPlace.tx : LoopPlace → List PacketTxDataItem
  | .transmitting _ tx => [tx]
  | _ => []

def LoopPlace.txrx : LoopPlace → TxrxPlace
  | .receiving item rx => .processing item rx
  | .freeingRx item => .finishing item
  | _ => .waiting

def LoopState.endpoint (s : LoopState) : EndpointState :=
  ⟨s.ep, s.place.tx ++ s.txFifo.map Prod.snd, s.posts⟩

def LoopState.threads (s : LoopState) : ThreadsState :=
  ⟨s.endpoint, s.recv, s.rxFifo, s.place.txrx, s.rxItems⟩

/-! ## Steps -/

variable (z : Zephyr) (app : App)

/-- The return of a call. -/
def returnPost (s : LoopState) (i : Nat) : LoopState :=
  { s with calls := s.calls.set i .returned, posts := s.posts + 1 }

def posted (s : LoopState) (args : PostArgs) (ret : Int) : LoopOutput :=
  .threads (.endpoint (.posted s.posts args.responseHandler args.responseHandlerData ret))

/-- The next step of a call. The call takes effect with its return, and is numbered then; what it
does to its buffer and its item before is seen by no other thread. -/
def postAsyncStep (s : LoopState) (i : Nat) (env : Env) : LoopState × List LoopOutput :=
  match s.calls[i]? with
  | some (.allocatingData args) =>
    if env.calloc 0 then ({ s with calls := s.calls.set i (.allocatingTx args) }, [])
    else (returnPost s i, [posted s args (-enomem)])
  | some (.allocatingTx args) =>
    if env.calloc 0 then
      ({ s with calls := s.calls.set i (.encoding args s.txItems), txItems := s.txItems + 1 },
        [.tx (.allocated s.txItems)])
    else (returnPost s i, [.threads (.endpoint (.freed s.posts)), posted s args (-enomem)])
  | some (.encoding args item) =>
    let encoded := encodePost z env s.posts args
    if encoded.1 < 0 then
      -- the error label: the item is released first
      (returnPost s i, [.tx (.accessed item), .tx (.released item),
        .threads (.endpoint (.freed s.posts)), posted s args encoded.1])
    else
      let tx := txItem s.posts args encoded.2
      ({ returnPost s i with txFifo := s.txFifo ++ [(item, tx)] },
        [.tx (.accessed item), .threads (.endpoint (.queued tx)), posted s args 0])
  | _ => (s, [])

/-- The next step of `recv_thread`. -/
def recvThreadStep (s : LoopState) (calloc : Bool) (recvfrom : Option (List UInt8 × SockAddr)) :
    LoopState × List LoopOutput :=
  let stepped := recvStep z s.threads calloc recvfrom
  ({ s with recv := stepped.1.recv, rxFifo := stepped.1.rxFifo, rxItems := stepped.1.items },
    stepped.2.map .threads)

def endpointOuts (outs : List Output) : List LoopOutput := outs.map fun o => .threads (.endpoint o)

/-- `retransmit_packet` with the pointer from before `k_poll`: NULL, or an entry of the table if there
still is one at its place. -/
def retransmitSelected (env : Env) (s : LoopState) : Option Nat → LoopState × List LoopOutput
  | none => (s, [.threads (.endpoint .fault)])
  | some i =>
    if inside : i < s.ep.inflight.len then
      let retransmitted := retransmitPacket z app env s.ep ⟨i, inside⟩
      ({ s with ep := retransmitted.1 },
        endpointOuts (.expired (s.ep.inflight.get ⟨i, inside⟩).call :: retransmitted.2))
    else (s, [.threads (.endpoint .fault)])

/-- The next step of `txrx_thread`; `k_poll` answers as given if it is what the thread waits for. -/
def txrxThreadStep (s : LoopState) (env : Env) (answer : PollAnswer) : LoopState × List LoopOutput :=
  match s.place with
  | .selecting =>
    let retransmission := (nextRetransmission s.ep).map Fin.val
    ({ s with place := .polling retransmission (pollTimeout s.ep env.uptime) env.uptime }, [])
  | .polling retransmission _ polledAt =>
    match answer with
    | .ready tx rx =>
      ({ s with place := .testingTx, txReady := s.txReady || tx, rxReady := s.rxReady || rx }, [])
    | .timedOut => ({ s with place := .retransmitting retransmission polledAt }, [])
    | .failed => ({ s with place := .selecting }, [])
  | .retransmitting retransmission _ =>
    retransmitSelected z app env { s with place := .selecting } retransmission
  | .testingTx =>
    if s.txReady then ({ s with place := .takingTx, txReady := false }, [])
    else ({ s with place := .testingRx }, [])
  | .takingTx =>
    match s.txFifo with
    -- `k_fifo_get` blocks
    | [] => (s, [])
    | (item, tx) :: rest =>
      ({ s with place := .transmitting item tx, txFifo := rest }, [.tx (.accessed item)])
  | .transmitting item tx =>
    let transmitted := transmitPacket z app env s.ep tx
    ({ s with place := .freeingTx item, ep := transmitted.1 },
      .tx (.accessed item) :: endpointOuts transmitted.2)
  | .freeingTx item => ({ s with place := .testingRx }, [.tx (.released item)])
  | .testingRx =>
    if s.rxReady then ({ s with place := .takingRx, rxReady := false }, [])
    else ({ s with place := .selecting }, [])
  | .takingRx =>
    match s.rxFifo with
    | [] => (s, [])
    | (item, rx) :: rest =>
      ({ s with place := .receiving item rx, rxFifo := rest }, [.threads (.accessed item)])
  | .receiving item rx =>
    let received := receivePacket z app env s.ep rx
    ({ s with place := .freeingRx item, ep := received.1 },
      .threads (.accessed item) :: endpointOuts (.received rx :: received.2))
  | .freeingRx item => ({ s with place := .selecting }, [.threads (.released item)])

def loopStep (s : LoopState) : LoopEvent → LoopState × List LoopOutput
  | .call args => ({ s with calls := s.calls ++ [.allocatingData args] }, [])
  | .post i env => postAsyncStep z s i env
  | .recv calloc recvfrom => recvThreadStep z s calloc recvfrom
  | .txrx env answer =>
    let stepped := txrxThreadStep z app s env answer
    ({ stepped.1 with clock := env.uptime }, stepped.2)

/-- The threads as `coap_endpoint_init` starts them. -/
def txrxLoop (sock : Int) (resources : List CoapResource) :
    Machine LoopState LoopEvent LoopOutput where
  init :=
    { ep := ⟨sock, resources, .empty⟩, txFifo := [], rxFifo := [], calls := [], recv := .allocating
      place := .selecting, txReady := false, rxReady := false
      posts := 0, txItems := 0, rxItems := 0, clock := 0 }
  step := loopStep z app

abbrev LoopConfig := Machine.Config LoopState LoopOutput

/-- `k_poll` reports data only where there is some, does not time out with `K_FOREVER`, and not before
a positive timeout has elapsed. -/
def kPollMay (s : LoopState) (uptime : Nat) (answer : PollAnswer) : Bool :=
  match s.place, answer with
  | .polling .., .ready tx rx => (!tx || !s.txFifo.isEmpty) && (!rx || !s.rxFifo.isEmpty)
  | .polling _ timeout polledAt, .timedOut =>
    timeout != kForever && (timeout ≤ 0 || polledAt + timeout ≤ uptime)
  | _, _ => true

/-- What the kernel promises; its clock does not go back. -/
def kernelOk (c : LoopConfig) : LoopEvent → Prop
  | .txrx env answer => c.state.clock ≤ env.uptime ∧ kPollMay c.state env.uptime answer = true
  | _ => True

instance (c : LoopConfig) (event : LoopEvent) : Decidable (kernelOk c event) :=
  match event with
  | .txrx .. => inferInstanceAs (Decidable (_ ∧ _))
  | .call _ | .post .. | .recv .. => isTrue trivial

/-! ## What the loop keeps -/

/-- What holds of the events, the FIFOs and the selected pointer where `txrx_thread` stands. -/
def PlaceSound (s : LoopState) : Prop :=
  match s.place with
  | .selecting | .receiving .. | .freeingRx _ => s.txReady = false ∧ s.rxReady = false
  | .polling retransmission timeout polledAt => (s.txReady = false ∧ s.rxReady = false) ∧
      retransmission = (nextRetransmission s.ep).map Fin.val ∧ timeout = pollTimeout s.ep polledAt ∧
      polledAt ≤ s.clock
  | .retransmitting retransmission polledAt => (s.txReady = false ∧ s.rxReady = false) ∧
      (∃ i, nextRetransmission s.ep = some i ∧ retransmission = some i.val) ∧ polledAt ≤ s.clock ∧
      (0 < pollTimeout s.ep polledAt → polledAt + pollTimeout s.ep polledAt ≤ s.clock)
  | .testingTx => (s.txReady = true → s.txFifo ≠ []) ∧ (s.rxReady = true → s.rxFifo ≠ [])
  | .takingTx => s.txReady = false ∧ s.txFifo ≠ [] ∧ (s.rxReady = true → s.rxFifo ≠ [])
  | .transmitting .. | .freeingTx _ | .testingRx =>
    s.txReady = false ∧ (s.rxReady = true → s.rxFifo ≠ [])
  | .takingRx => s.txReady = false ∧ s.rxReady = false ∧ s.rxFifo ≠ []

/-- The other threads leave the loop's own variables alone, and take nothing from its FIFOs. -/
structure OthersStep (s s' : LoopState) : Prop where
  ep : s'.ep = s.ep
  place : s'.place = s.place
  txReady : s'.txReady = s.txReady
  rxReady : s'.rxReady = s.rxReady
  clock : s'.clock = s.clock
  txFifo : s.txFifo ≠ [] → s'.txFifo ≠ []
  rxFifo : s.rxFifo ≠ [] → s'.rxFifo ≠ []

theorem OthersStep.placeSound {s s' : LoopState} (others : OthersStep s s') (sound : PlaceSound s) :
    PlaceSound s' := by
  unfold PlaceSound at sound ⊢
  rw [others.place, others.ep, others.txReady, others.rxReady, others.clock]
  generalize s.place = place at sound ⊢
  cases place with
  | testingTx => exact ⟨others.txFifo ∘ sound.1, others.rxFifo ∘ sound.2⟩
  | takingTx => exact ⟨sound.1, others.txFifo sound.2.1, others.rxFifo ∘ sound.2.2⟩
  | transmitting | freeingTx | testingRx => exact ⟨sound.1, others.rxFifo ∘ sound.2⟩
  | takingRx => exact ⟨sound.1, sound.2.1, others.rxFifo sound.2.2⟩
  | _ => exact sound

theorem postAsyncStep_others (s : LoopState) (i : Nat) (env : Env) :
    OthersStep s (postAsyncStep z s i env).1 := by
  unfold postAsyncStep
  split
  · split <;> exact ⟨rfl, rfl, rfl, rfl, rfl, id, id⟩
  · split <;> exact ⟨rfl, rfl, rfl, rfl, rfl, id, id⟩
  · next item _ =>
    dsimp only
    split
    · exact ⟨rfl, rfl, rfl, rfl, rfl, id, id⟩
    · exact ⟨rfl, rfl, rfl, rfl, rfl, fun _ => by simp, id⟩
  · exact ⟨rfl, rfl, rfl, rfl, rfl, id, id⟩

/-- `recv_thread` only adds to `rx_fifo`, and leaves the other thread and the endpoint alone. -/
theorem recvStep_frame (s : ThreadsState) (calloc : Bool)
    (recvfrom : Option (List UInt8 × SockAddr)) :
    (recvStep z s calloc recvfrom).1.endpoint = s.endpoint ∧
      (recvStep z s calloc recvfrom).1.txrx = s.txrx ∧
      s.rxFifo <+: (recvStep z s calloc recvfrom).1.rxFifo := by
  unfold recvStep
  split
  · split <;> exact ⟨rfl, rfl, List.prefix_rfl⟩
  · split <;> exact ⟨rfl, rfl, List.prefix_rfl⟩
  · exact ⟨rfl, rfl, List.prefix_rfl⟩
  · exact ⟨rfl, rfl, List.prefix_rfl⟩
  · exact ⟨rfl, rfl, List.prefix_append _ _⟩
  · exact ⟨rfl, rfl, List.prefix_rfl⟩

theorem recvThreadStep_others (s : LoopState) (calloc : Bool)
    (recvfrom : Option (List UInt8 × SockAddr)) :
    OthersStep s (recvThreadStep z s calloc recvfrom).1 := by
  refine ⟨rfl, rfl, rfl, rfl, rfl, id, fun some none => some ?_⟩
  have grown := (recvStep_frame z s.threads calloc recvfrom).2.2
  change (recvStep z s.threads calloc recvfrom).1.rxFifo = [] at none
  rw [none] at grown
  exact List.prefix_nil.mp grown

theorem txrxThreadStep_placeSound (c : LoopConfig) (env : Env) (answer : PollAnswer)
    (ok : kernelOk c (.txrx env answer)) (sound : PlaceSound c.state) :
    PlaceSound (loopStep z app c.state (.txrx env answer)).1 := by
  obtain ⟨⟨ep, txFifo, rxFifo, calls, recv, place, txReady, rxReady, posts, txItems, rxItems, clock⟩,
    log⟩ := c
  obtain ⟨later, polls⟩ := ok
  cases place with
  | selecting => exact ⟨sound, rfl, rfl, Nat.le_refl _⟩
  | polling retransmission timeout polledAt =>
    dsimp only [PlaceSound] at sound
    obtain ⟨⟨noTx, noRx⟩, rfl, rfl, before⟩ := sound
    cases answer with
    | ready tx rx =>
      simp only [kPollMay, Bool.and_eq_true, Bool.or_eq_true, Bool.not_eq_true',
        List.isEmpty_eq_false_iff] at polls
      refine ⟨fun ready => ?_, fun ready => ?_⟩
      · simp only [loopStep, txrxThreadStep, noTx, Bool.false_or] at ready
        exact polls.1.resolve_left (by simp [ready])
      · simp only [loopStep, txrxThreadStep, noRx, Bool.false_or] at ready
        exact polls.2.resolve_left (by simp [ready])
    | timedOut =>
      simp only [kPollMay, Bool.and_eq_true, bne_iff_ne, ne_eq, Bool.or_eq_true,
        decide_eq_true_eq] at polls
      obtain ⟨limited, elapsed⟩ := polls
      refine ⟨⟨noTx, noRx⟩, ?_, Nat.le_trans before later,
        fun positive => elapsed.resolve_left (Int.not_le.mpr positive)⟩
      -- without an entry the timeout would be unlimited
      cases selected : nextRetransmission ep with
      | none => simp [pollTimeout, selected] at limited
      | some i => exact ⟨i, selected, rfl⟩
    | failed => exact ⟨noTx, noRx⟩
  | retransmitting retransmission polledAt =>
    dsimp only [PlaceSound] at sound
    obtain ⟨flags, ⟨i, _, rfl⟩, _⟩ := sound
    simp only [loopStep, txrxThreadStep, retransmitSelected]
    split <;> exact flags
  | testingTx =>
    cases txReady with
    | true => exact ⟨rfl, sound.1 rfl, sound.2⟩
    | false => exact ⟨rfl, sound.2⟩
  | takingTx =>
    obtain ⟨ready, filled, rx⟩ := sound
    cases txFifo with
    | nil => exact absurd rfl filled
    | cons entry rest => exact ⟨ready, rx⟩
  | testingRx =>
    cases rxReady with
    | true => exact ⟨sound.1, rfl, sound.2 rfl⟩
    | false => exact ⟨sound.1, rfl⟩
  | takingRx =>
    obtain ⟨tx, rx, filled⟩ := sound
    cases rxFifo with
    | nil => exact absurd rfl filled
    | cons entry rest => exact ⟨tx, rx⟩
  | transmitting | freeingTx | receiving | freeingRx => exact sound

variable {sock : Int} {resources : List CoapResource} {c : LoopConfig}

variable {z app} in
theorem reachable_placeSound (reach : (txrxLoop z app sock resources).Reachable kernelOk c) :
    PlaceSound c.state := by
  have init : PlaceSound (txrxLoop z app sock resources).start.state := ⟨rfl, rfl⟩
  apply reach.invariant (fun c => PlaceSound c.state) init
  intro c event _ ok sound
  cases event with
  | call args => exact OthersStep.placeSound ⟨rfl, rfl, rfl, rfl, rfl, id, id⟩ sound
  | post i env => exact (postAsyncStep_others z c.state i env).placeSound sound
  | recv calloc recvfrom => exact (recvThreadStep_others z c.state calloc recvfrom).placeSound sound
  | txrx env answer => exact txrxThreadStep_placeSound z app c env answer ok sound

/-! ## What the loop does to the endpoint -/

/-- What the two threads put out. -/
def threadsOutputs (log : List LoopOutput) : List RxOutput :=
  log.filterMap fun
    | .threads o => some o
    | .tx _ => none

/-- The two threads of a configuration. -/
def threadsView (c : LoopConfig) : ThreadsConfig := ⟨c.state.threads, threadsOutputs c.log⟩

theorem threadsOutputs_append (xs ys : List LoopOutput) :
    threadsOutputs (xs ++ ys) = threadsOutputs xs ++ threadsOutputs ys :=
  List.filterMap_append

@[simp] theorem threadsOutputs_nil : threadsOutputs [] = [] := rfl

@[simp] theorem threadsOutputs_tx (use : Use) (log : List LoopOutput) :
    threadsOutputs (.tx use :: log) = threadsOutputs log := rfl

@[simp] theorem threadsOutputs_threads (o : RxOutput) (log : List LoopOutput) :
    threadsOutputs (.threads o :: log) = o :: threadsOutputs log := rfl

@[simp] theorem threadsOutputs_map (outs : List RxOutput) :
    threadsOutputs (outs.map .threads) = outs := by
  induction outs with
  | nil => rfl
  | cons o outs ih => rw [List.map_cons, threadsOutputs_threads, ih]

@[simp] theorem threadsOutputs_endpoint (outs : List Output) :
    threadsOutputs (endpointOuts outs) = outs.map .endpoint := by
  have same : endpointOuts outs = (outs.map RxOutput.endpoint).map .threads := by
    simp [endpointOuts]
  rw [same, threadsOutputs_map]

/-- The fairness of `k_poll`, for the two threads. -/
def threadsFair (c : ThreadsConfig) : ThreadsEvent → Prop
  | .other event => pollFair (endpointView c) event
  | _ => True

/-- What a step does to the two threads: nothing, or a fair step of theirs. -/
def ThreadsPart (sock : Int) (resources : List CoapResource) (c : ThreadsConfig)
    (next : LoopState × List LoopOutput) : Prop :=
  next.1.threads = c.state ∧ threadsOutputs next.2 = [] ∨
    ∃ event, threadsFair c event ∧
      next.1.threads = ((threads z app sock resources).step c.state event).1 ∧
      threadsOutputs next.2 = ((threads z app sock resources).step c.state event).2

section part

variable (sock : Int) (resources : List CoapResource)

theorem postAsyncStep_part (c : LoopConfig) (i : Nat) (env : Env) :
    ThreadsPart z app sock resources (threadsView c) (postAsyncStep z c.state i env) := by
  unfold postAsyncStep
  split
  · next args _ =>
    split
    · exact .inl ⟨rfl, rfl⟩
    · -- the first allocation fails
      refine .inr ⟨.other (.post { env with calloc := fun _ => false } args), trivial, ?_, ?_⟩
      · simp [threads, otherStep, endpointStep, step, postStep, coapEndpointPostAsync, returnPost,
          LoopState.threads, LoopState.endpoint, threadsView]
      · simp [threads, otherStep, endpointStep, step, postStep, coapEndpointPostAsync, posted,
          LoopState.threads, LoopState.endpoint, threadsView]
  · next args _ =>
    split
    · exact .inl ⟨rfl, rfl⟩
    · -- the second allocation fails
      refine .inr ⟨.other (.post { env with calloc := fun n => n == 0 } args), trivial, ?_, ?_⟩
      · simp [threads, otherStep, endpointStep, step, postStep, coapEndpointPostAsync, returnPost,
          LoopState.threads, LoopState.endpoint, threadsView]
      · simp [threads, otherStep, endpointStep, step, postStep, coapEndpointPostAsync, posted,
          LoopState.threads, LoopState.endpoint, threadsView]
  · next args item _ =>
    refine .inr ⟨.other (.post { env with calloc := fun _ => true } args), trivial, ?_⟩
    have same : encodePost z { env with calloc := fun _ => true } c.state.posts args =
        encodePost z env c.state.posts args := rfl
    dsimp only
    split
    · next failed =>
      simp [threads, otherStep, endpointStep, step, postStep, coapEndpointPostAsync, returnPost, posted,
        LoopState.threads, LoopState.endpoint, threadsView, same, failed]
    · next encoded =>
      simp [threads, otherStep, endpointStep, step, postStep, coapEndpointPostAsync, returnPost, posted,
        LoopState.threads, LoopState.endpoint, threadsView, same, encoded]
  · exact .inl ⟨rfl, rfl⟩

theorem recvThreadStep_part (c : LoopConfig) (calloc : Bool)
    (recvfrom : Option (List UInt8 × SockAddr)) :
    ThreadsPart z app sock resources (threadsView c) (recvThreadStep z c.state calloc recvfrom) := by
  obtain ⟨endpoint, txrx, _⟩ := recvStep_frame z c.state.threads calloc recvfrom
  refine .inr ⟨.recv calloc recvfrom, trivial, ?_, threadsOutputs_map _⟩
  calc (recvThreadStep z c.state calloc recvfrom).1.threads
      = ⟨c.state.threads.endpoint, (recvStep z c.state.threads calloc recvfrom).1.recv,
          (recvStep z c.state.threads calloc recvfrom).1.rxFifo, c.state.threads.txrx,
          (recvStep z c.state.threads calloc recvfrom).1.items⟩ := rfl
    _ = (recvStep z c.state.threads calloc recvfrom).1 := by rw [← endpoint, ← txrx]

theorem txrxThreadStep_part (c : LoopConfig) (env : Env) (answer : PollAnswer)
    (later : c.state.clock ≤ env.uptime) (sound : PlaceSound c.state) :
    ThreadsPart z app sock resources (threadsView c) (loopStep z app c.state (.txrx env answer)) := by
  obtain ⟨⟨ep, txFifo, rxFifo, calls, recv, place, txReady, rxReady, posts, txItems, rxItems, clock⟩,
    log⟩ := c
  cases place with
  | selecting => exact .inl ⟨rfl, rfl⟩
  | polling retransmission timeout polledAt =>
    cases answer <;> exact .inl ⟨rfl, rfl⟩
  | retransmitting retransmission polledAt =>
    dsimp only [PlaceSound] at sound
    obtain ⟨_, ⟨i, selected, rfl⟩, before, elapsed⟩ := sound
    -- the pointer from before the wait is what the endpoint selects now
    refine .inr ⟨.other (.timeout env polledAt), ⟨Nat.le_trans before later, fun positive => ?_⟩, ?_, ?_⟩
    · exact Int.le_trans (elapsed positive) (Int.ofNat_le.mpr later)
    · simp [loopStep, txrxThreadStep, retransmitSelected, threads, otherStep, endpointStep, step,
        timeoutStep, LoopState.threads, LoopState.endpoint, LoopPlace.txrx, LoopPlace.tx, threadsView,
        selected]
    · simp [loopStep, txrxThreadStep, retransmitSelected, threads, otherStep, endpointStep, step,
        timeoutStep, LoopState.threads, LoopState.endpoint, LoopPlace.txrx, LoopPlace.tx, threadsView,
        selected]
  | testingTx => cases txReady <;> exact .inl ⟨rfl, rfl⟩
  | takingTx => cases txFifo <;> exact .inl ⟨rfl, rfl⟩
  | transmitting item tx =>
    refine .inr ⟨.other (.transmit env), trivial, rfl, ?_⟩
    simp [loopStep, txrxThreadStep, threads, otherStep, endpointStep, step, transmitStep,
      LoopState.threads, LoopState.endpoint, LoopPlace.txrx, LoopPlace.tx, threadsView]
  | testingRx => cases rxReady <;> exact .inl ⟨rfl, rfl⟩
  | takingRx =>
    cases rxFifo with
    | nil => exact .inl ⟨rfl, rfl⟩
    | cons entry rest => exact .inr ⟨.txrx env, trivial, rfl, rfl⟩
  | receiving item rx =>
    refine .inr ⟨.txrx env, trivial, rfl, ?_⟩
    simp [loopStep, txrxThreadStep, threads, txrxStep, endpointStep, step, receiveStep,
      LoopState.threads, LoopState.endpoint, LoopPlace.txrx, threadsView]
  | freeingTx item => exact .inl ⟨rfl, rfl⟩
  | freeingRx item => exact .inr ⟨.txrx env, trivial, rfl, rfl⟩

/-- A fair step of the two threads is nothing to the endpoint, or a fair step of it. -/
theorem threads_part_fair (c : ThreadsConfig) (event : ThreadsEvent) (fair : threadsFair c event) :
    endpointView ((threads z app sock resources).next c event) = endpointView c ∨
      ∃ e, pollFair (endpointView c) e ∧ endpointView ((threads z app sock resources).next c event) =
        (endpoint z app sock resources).next (endpointView c) e := by
  have same (s : ThreadsState) (outs : List RxOutput) (kept : s.endpoint = c.state.endpoint)
      (silent : endpointOutputs outs = []) : endpointView ⟨s, c.log ++ outs⟩ = endpointView c := by
    simp only [endpointView, endpointOutputs_append, kept, silent, List.append_nil]
  have steps (s : ThreadsState) (outs : List RxOutput) (e : Event)
      (kept : s.endpoint = (step z app c.state.endpoint e).1)
      (silent : endpointOutputs outs = (step z app c.state.endpoint e).2) :
      endpointView ⟨s, c.log ++ outs⟩ = (endpoint z app sock resources).next (endpointView c) e := by
    simp only [endpointView, endpointOutputs_append, kept, silent]
    rfl
  have mapped (outs : List Output) : endpointOutputs (outs.map .endpoint) = outs := by
    simp [endpointOutputs, List.filterMap_map]
  simp only [Machine.next, threads]
  cases event with
  | recv calloc recvfrom =>
    refine .inl (same _ _ (recvStep_frame z c.state calloc recvfrom).1 ?_)
    simp only [recvStep]
    split
    · split <;> rfl
    · split <;> rfl
    all_goals rfl
  | txrx env =>
    simp only [txrxStep]
    split
    · split <;> exact .inl (same _ _ rfl rfl)
    · next item rx _ => exact .inr ⟨.receive env rx, trivial, steps _ _ _ rfl (mapped _)⟩
    · exact .inl (same _ _ rfl rfl)
  | other event =>
    simp only [otherStep]
    split
    · next env args => exact .inr ⟨.post env args, fair, steps _ _ _ rfl (mapped _)⟩
    · exact .inl (same _ _ rfl rfl)
    · split
      · exact .inr ⟨event, fair, steps _ _ _ rfl (mapped _)⟩
      · exact .inl (same _ _ rfl rfl)

end part

/-- The refinement: every run of the loop beside the other threads, between whichever accesses they
take turns, is a run of the two threads and of the endpoint, with the same outputs. -/
theorem loop_refines {z : Zephyr} {app : App}
    (reach : (txrxLoop z app sock resources).Reachable kernelOk c) :
    (threads z app sock resources).Reachable threadsFair (threadsView c) ∧
      (endpoint z app sock resources).Reachable pollFair (endpointView (threadsView c)) := by
  have below : (threads z app sock resources).Reachable threadsFair (threadsView c) := by
    refine reach.simulate threadsView rfl fun c event reached ok => ?_
    have part : ThreadsPart z app sock resources (threadsView c) (loopStep z app c.state event) := by
      cases event with
      | call args => exact .inl ⟨rfl, rfl⟩
      | post i env => exact postAsyncStep_part z app sock resources c i env
      | recv calloc recvfrom => exact recvThreadStep_part z app sock resources c calloc recvfrom
      | txrx env answer =>
        exact txrxThreadStep_part z app sock resources c env answer ok.1 (reachable_placeSound reached)
    have stepped : threadsView ((txrxLoop z app sock resources).next c event) =
        ⟨(loopStep z app c.state event).1.threads,
          threadsOutputs c.log ++ threadsOutputs (loopStep z app c.state event).2⟩ := by
      rw [← threadsOutputs_append]
      rfl
    rw [stepped]
    rcases part with ⟨state, silent⟩ | ⟨event', fair, state, outs⟩
    · left
      rw [state, silent, List.append_nil]
      rfl
    · refine .inr ⟨event', fair, ?_⟩
      rw [state, outs]
      rfl
  exact ⟨below, below.project endpointView rfl (threads_part_fair z app sock resources)⟩

/-- A call that posts to the server. -/
def sampleCall (frame : Nat) : LoopEvent :=
  .call (coapEndpointPostArgs frame serverAddr none (some [104, 105]) 2)

/-- The first request is posted, transmitted, and transmitted again when its timeout has elapsed. -/
def firstRequest : List LoopEvent := [
  sampleCall 0, .recv true none, .post 0 (calmEnv 1 0), .post 0 (calmEnv 1 0), .post 0 (calmEnv 1 0),
  .txrx (calmEnv 1 1) .failed, .txrx (calmEnv 1 2) (.ready true false), .txrx (calmEnv 1 3) .failed,
  .txrx (calmEnv 1 3) .failed, .txrx (calmEnv 1 4) .failed, .txrx (calmEnv 1 5) .failed,
  .txrx (calmEnv 1 5) .failed, .txrx (calmEnv 1 6) .failed, .txrx (calmEnv 1 15000) .timedOut,
  .txrx (calmEnv 1 15001) .failed]

/-- Its response comes while a second request is posted, and `txrx_thread` is about to take that. -/
def secondRequest : List LoopEvent := [
  .recv true (some (answerDatagram, serverAddr)), sampleCall 1, .recv true none,
  .txrx (calmEnv 1 15002) .failed, .recv true none, .txrx (calmEnv 1 15003) (.ready false true),
  .post 1 (calmEnv 2 0), .txrx (calmEnv 1 15003) .failed, .txrx (calmEnv 1 15003) .failed,
  .txrx (calmEnv 1 15003) .failed, .post 1 (calmEnv 2 0), .txrx (calmEnv 1 15004) .failed,
  .txrx (calmEnv 1 15004) .failed, .post 1 (calmEnv 2 0), .txrx (calmEnv 1 15005) .failed,
  .txrx (calmEnv 1 15006) (.ready true false), .txrx (calmEnv 1 15006) .failed]

def takingRun : LoopConfig :=
  let m := txrxLoop rfcZephyr plainApp 3 mainResources
  m.run m.start (firstRequest ++ secondRequest)

theorem takingRun_reachable :
    (txrxLoop rfcZephyr plainApp 3 mainResources).Reachable kernelOk takingRun := by
  apply Machine.reachable_run
  decide +kernel

/-- The run holds an expiry, a reception and the completion of the first request. -/
theorem loop_refines_taking :
    (∃ o ∈ endpointOutputs (threadsOutputs takingRun.log), o = .expired 0) ∧
    (endpointOutputs (threadsOutputs takingRun.log)).countP (Output.invokes 0) = 1 ∧
    (threads rfcZephyr plainApp 3 mainResources).Reachable threadsFair (threadsView takingRun) ∧
      (endpoint rfcZephyr plainApp 3 mainResources).Reachable pollFair
        (endpointView (threadsView takingRun)) :=
  ⟨by decide +kernel, by decide +kernel, loop_refines takingRun_reachable⟩

end DtApp.Coap
