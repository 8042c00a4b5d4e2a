import DtApp.Library.History
import DtApp.Coap.Reference

/-!
# Receive items

`recv_thread` allocates an item, fills it and puts it on `rx_fifo`; `txrx_thread` takes it from there
and releases it. Here the two threads take turns in any order, between any two of their accesses to
an item. An item is named by the number of its allocation.
-/
namespace DtApp.Coap

open History

/-! ## The two threads -/

/-- Where `recv_thread` stands, by what it does next, with the item that it has. -/
inductive RecvPlace where
  | allocating
  | receiving (item : Nat)
  | parsing (item : Nat) (datagram : List UInt8) (addr : SockAddr)
  /-- The datagram was not parsed. -/
  | dropping (item : Nat)
  | queueing (item : Nat) (rx : PacketRxDataItem)
  /-- The thread has returned. -/
  | ended
  deriving DecidableEq

/-- Where `txrx_thread` stands with an item of `rx_fifo`. -/
inductive TxrxPlace where
  | waiting
  | processing (item : Nat) (rx : PacketRxDataItem)
  | finishing (item : Nat)

structure ThreadsState where
  endpoint : EndpointState
  recv : RecvPlace
  rxFifo : List (Nat × PacketRxDataItem)
  txrx : TxrxPlace
  -- ghost: how many items were allocated
  items : Nat

inductive ThreadsEvent where
  /-- `recv_thread` takes a step; `k_calloc` and `recvfrom` answer as given if it calls them. -/
  | recv (calloc : Bool) (recvfrom : Option (List UInt8 × SockAddr))
  /-- `txrx_thread` takes a step with an item of `rx_fifo`. -/
  | txrx (env : Env)
  /-- A post, or another step of `txrx_thread`. -/
  | other (event : Event)

inductive RxOutput where
  | allocated (item : Nat)
  /-- The item is written or read. -/
  | accessed (item : Nat)
  | recvfromFailed (item : Nat)
  | released (item : Nat)
  | endpoint (o : Output)
  deriving DecidableEq

variable (z : Zephyr) (app : App)

/-- The next step of `recv_thread`. -/
def recvStep (s : ThreadsState) (calloc : Bool) (recvfrom : Option (List UInt8 × SockAddr)) :
    ThreadsState × List RxOutput :=
  match s.recv with
  | .allocating =>
    if !calloc then ({ s with recv := .ended }, [])
    else ({ s with recv := .receiving s.items, items := s.items + 1 }, [.allocated s.items])
  | .receiving item =>
    match recvfrom with
    -- the thread returns without `k_free(rx)`
    | none => ({ s with recv := .ended }, [.accessed item, .recvfromFailed item])
    | some (datagram, addr) => ({ s with recv := .parsing item datagram addr }, [.accessed item])
  | .parsing item datagram addr =>
    let parsed := z.coapPacketParse (rxData datagram) maxCoapMsgLen maxCoapOptions
    let recv := if parsed.1 < 0 then .dropping item
      else .queueing item { packet := parsed.2.1, options := parsed.2.2, addr }
    ({ s with recv }, [.accessed item])
  | .dropping item => ({ s with recv := .allocating }, [.released item])
  | .queueing item rx =>
    ({ s with recv := .allocating, rxFifo := s.rxFifo ++ [(item, rx)] }, [.accessed item])
  | .ended => (s, [])

/-- A step of the endpoint while the threads stand where they are. -/
def endpointStep (s : ThreadsState) (event : Event) : ThreadsState × List RxOutput :=
  let stepped := step z app s.endpoint event
  ({ s with endpoint := stepped.1 }, stepped.2.map .endpoint)

/-- The next step of `txrx_thread` with an item: taking it, processing it, releasing it. -/
def txrxStep (s : ThreadsState) (env : Env) : ThreadsState × List RxOutput :=
  match s.txrx with
  | .waiting =>
    match s.rxFifo with
    | [] => (s, [])
    | (item, rx) :: rest => ({ s with txrx := .processing item rx, rxFifo := rest }, [.accessed item])
  | .processing item rx =>
    let received := endpointStep z app { s with txrx := .finishing item } (.receive env rx)
    (received.1, .accessed item :: received.2)
  | .finishing item => ({ s with txrx := .waiting }, [.released item])

/-- Other threads post at any time. `txrx_thread` transmits and retransmits when it has no item. -/
def otherStep (s : ThreadsState) : Event → ThreadsState × List RxOutput
  | .post env args => endpointStep z app s (.post env args)
  -- what is received comes from `rx_fifo`
  | .receive _ _ => (s, [])
  | event =>
    match s.txrx with
    | .waiting => endpointStep z app s event
    | _ => (s, [])

def threads (sock : Int) (resources : List CoapResource) :
    Machine ThreadsState ThreadsEvent RxOutput where
  init := ⟨(endpoint z app sock resources).init, .allocating, [], .waiting, 0⟩
  step s
    | .recv calloc recvfrom => recvStep z s calloc recvfrom
    | .txrx env => txrxStep z app s env
    | .other event => otherStep z app s event

abbrev ThreadsConfig := Machine.Config ThreadsState RxOutput

/-! ## Moves -/

def RecvPlace.item : RecvPlace → Option Nat
  | .receiving item | .parsing item _ _ | .dropping item | .queueing item _ => some item
  | .allocating | .ended => none

def TxrxPlace.item : TxrxPlace → Option Nat
  | .processing item _ | .finishing item => some item
  | .waiting => none

/-- What a step can do to the items. -/
inductive ItemMove (s : ThreadsState) : ThreadsState → List RxOutput → Prop
  | endpoint (endpoint : EndpointState) (outs : List Output) :
      ItemMove s { s with endpoint } (outs.map .endpoint)
  | allocated : s.recv = .allocating →
      ItemMove s { s with recv := .receiving s.items, items := s.items + 1 } [.allocated s.items]
  | refused : s.recv = .allocating → ItemMove s { s with recv := .ended } []
  | failed (item : Nat) : s.recv = .receiving item →
      ItemMove s { s with recv := .ended } [.accessed item, .recvfromFailed item]
  | filled (item : Nat) (recv : RecvPlace) : s.recv.item = some item → recv.item = some item →
      ItemMove s { s with recv } [.accessed item]
  | dropped (item : Nat) : s.recv = .dropping item →
      ItemMove s { s with recv := .allocating } [.released item]
  | queued (item : Nat) (rx : PacketRxDataItem) : s.recv = .queueing item rx →
      ItemMove s { s with recv := .allocating, rxFifo := s.rxFifo ++ [(item, rx)] } [.accessed item]
  | taken (item : Nat) (rx : PacketRxDataItem) (rest : List (Nat × PacketRxDataItem)) :
      s.txrx = .waiting → s.rxFifo = (item, rx) :: rest →
      ItemMove s { s with txrx := .processing item rx, rxFifo := rest } [.accessed item]
  | processed (item : Nat) (rx : PacketRxDataItem) (endpoint : EndpointState) (outs : List Output) :
      s.txrx = .processing item rx →
      ItemMove s { s with txrx := .finishing item, endpoint } (.accessed item :: outs.map .endpoint)
  | freed (item : Nat) : s.txrx = .finishing item →
      ItemMove s { s with txrx := .waiting } [.released item]

theorem ItemMove.stay (s : ThreadsState) : ItemMove s s [] := .endpoint s.endpoint []

theorem recvStep_move (s : ThreadsState) (calloc : Bool)
    (recvfrom : Option (List UInt8 × SockAddr)) :
    ItemMove s (recvStep z s calloc recvfrom).1 (recvStep z s calloc recvfrom).2 := by
  unfold recvStep
  split
  · next at_ =>
    split
    · exact .refused at_
    · exact .allocated at_
  · next item at_ =>
    split
    · exact .failed item at_
    · exact .filled item _ (by rw [at_]; rfl) rfl
  · next item datagram addr at_ =>
    refine .filled item _ (by rw [at_]; rfl) ?_
    split <;> rfl
  · next item at_ => exact .dropped item at_
  · next item rx at_ => exact .queued item rx at_
  · exact .stay s

theorem txrxStep_move (s : ThreadsState) (env : Env) :
    ItemMove s (txrxStep z app s env).1 (txrxStep z app s env).2 := by
  unfold txrxStep
  split
  · next at_ =>
    split
    · exact .stay s
    · next item rx rest fifo => exact .taken item rx rest at_ fifo
  · next item rx at_ => exact .processed item rx _ _ at_
  · next item at_ => exact .freed item at_

theorem otherStep_move (s : ThreadsState) (event : Event) :
    ItemMove s (otherStep z app s event).1 (otherStep z app s event).2 := by
  unfold otherStep
  split
  · exact .endpoint _ _
  · exact .stay s
  · split
    · exact .endpoint _ _
    · exact .stay s

theorem threads_move (sock : Int) (resources : List CoapResource) (s : ThreadsState)
    (event : ThreadsEvent) : ItemMove s ((threads z app sock resources).step s event).1
      ((threads z app sock resources).step s event).2 := by
  cases event with
  | recv calloc recvfrom => exact recvStep_move z s calloc recvfrom
  | txrx env => exact txrxStep_move z app s env
  | other event => exact otherStep_move z app s event

/-! ## Situations of an item -/

/-- The item is being filled by `recv_thread`. -/
def filling (s : ThreadsState) (item : Nat) : Nat := if s.recv.item = some item then 1 else 0

/-- How often the item stands in `rx_fifo`. -/
def queuedItem (s : ThreadsState) (item : Nat) : Nat := s.rxFifo.countP fun entry => entry.1 == item

/-- The item is being processed by `txrx_thread`. -/
def processing (s : ThreadsState) (item : Nat) : Nat := if s.txrx.item = some item then 1 else 0

def releases (log : List RxOutput) (item : Nat) : Nat := log.count (.released item)

/-- An access comes before a release. -/
def BeforeRelease (before : List RxOutput) (o : RxOutput) : Prop :=
  ∀ item, o = .accessed item → .released item ∉ before

/-- Every item that was allocated is in one place, and not used any more when it was released. -/
structure ItemsKept (c : ThreadsConfig) : Prop where
  placed : ∀ item < c.state.items,
    filling c.state item + queuedItem c.state item + processing c.state item + releases c.log item = 1
  releasedOnce : ∀ item, releases c.log item ≤ 1
  untouched : Each BeforeRelease c.log
  ended : c.state.recv = .ended → ∀ item < c.state.items,
    queuedItem c.state item + processing c.state item + releases c.log item = 1

/-- How often an item is held, by a thread or by the queue. -/
def held (s : ThreadsState) (item : Nat) : Nat :=
  filling s item + queuedItem s item + processing s item

theorem held_of_recv {s : ThreadsState} {item : Nat} (at_ : s.recv.item = some item) : 0 < held s item := by
  have here : filling s item = 1 := by simp [filling, at_]
  rw [held, here]
  omega

section balance

variable {s s' : ThreadsState} {outs : List RxOutput} (move : ItemMove s s' outs) (item : Nat)

theorem count_endpoint (o : RxOutput) (other : ∀ o', o ≠ .endpoint o') (outs : List Output) :
    (outs.map RxOutput.endpoint).count o = 0 := by
  refine List.count_eq_zero.mpr fun member => ?_
  obtain ⟨o', _, eq⟩ := List.mem_map.mp member
  exact other o' eq.symm

include move

/-- The step rule of the items: what is held, released or lost was held before, or is new. -/
theorem ItemMove.balance : held s' item + outs.count (.released item) +
    outs.count (.recvfromFailed item) = held s item + outs.count (.allocated item) := by
  cases move with
  | endpoint e outs => simp [held, filling, queuedItem, processing, count_endpoint]
  | allocated at_ =>
    simp [held, filling, queuedItem, processing, at_, RecvPlace.item, List.count_singleton]
    omega
  | refused at_ => simp [held, filling, queuedItem, processing, at_, RecvPlace.item]
  | failed item' at_ =>
    simp [held, filling, queuedItem, processing, at_, RecvPlace.item, List.count_cons]
    omega
  | filled item' recv at_ next => simp [held, filling, queuedItem, processing, at_, next]
  | dropped item' at_ =>
    simp [held, filling, queuedItem, processing, at_, RecvPlace.item, List.count_singleton]
    omega
  | queued item' rx at_ =>
    simp [held, filling, queuedItem, processing, at_, RecvPlace.item, List.countP_append,
      List.countP_cons]
    omega
  | taken item' rx rest at_ fifo =>
    simp [held, filling, queuedItem, processing, at_, fifo, TxrxPlace.item, List.countP_cons]
    omega
  | processed item' rx e outs at_ =>
    simp [held, filling, queuedItem, processing, at_, TxrxPlace.item, count_endpoint]
  | freed item' at_ =>
    simp [held, filling, queuedItem, processing, at_, TxrxPlace.item, List.count_singleton]

/-- Only the next number is allocated. -/
theorem ItemMove.fresh : outs.count (.allocated item) + (if item < s.items then 1 else 0) =
    if item < s'.items then 1 else 0 := by
  cases move with
  | allocated at_ =>
    simp [List.count_singleton]
    grind
  | endpoint e outs => simp [count_endpoint]
  | processed item' rx e outs at_ => simp [count_endpoint]
  | _ => simp

/-- What is accessed is held, and not released in the same step. -/
theorem ItemMove.access (accessed : .accessed item ∈ outs) :
    0 < held s item ∧ .released item ∉ outs := by
  cases move with
  | endpoint | allocated | refused | dropped | freed => simp at accessed
  | failed item' at_ =>
    obtain rfl : item = item' := by simpa using accessed
    exact ⟨held_of_recv (by rw [at_]; rfl), by simp⟩
  | filled item' recv at_ next =>
    obtain rfl : item = item' := by simpa using accessed
    exact ⟨held_of_recv at_, by simp⟩
  | queued item' rx at_ =>
    obtain rfl : item = item' := by simpa using accessed
    exact ⟨held_of_recv (by rw [at_]; rfl), by simp⟩
  | taken item' rx rest at_ fifo =>
    obtain rfl : item = item' := by simpa using accessed
    have here : 0 < queuedItem s item := by simp [queuedItem, fifo]
    exact ⟨by rw [held]; omega, by simp⟩
  | processed item' rx e outs at_ =>
    obtain rfl : item = item' := by simpa using accessed
    have here : processing s item = 1 := by simp [processing, at_, TxrxPlace.item]
    exact ⟨by rw [held, here]; omega, by simp⟩

end balance

/-! ## Runs -/

/-- Each allocated item is held, released or lost. -/
structure ItemLedger (c : ThreadsConfig) : Prop where
  balance : ∀ item, held c.state item + releases c.log item + c.log.count (.recvfromFailed item) =
    if item < c.state.items then 1 else 0
  untouched : Each BeforeRelease c.log

/-- `recvfrom` does not fail while an item is being filled. -/
def recvfromSucceeds : ThreadsConfig → ThreadsEvent → Prop
  | c, .recv _ none => ∀ item, c.state.recv ≠ .receiving item
  | _, _ => True

section runs

variable (sock : Int) (resources : List CoapResource)

theorem run_itemLedger (es : List ThreadsEvent) :
    ItemLedger ((threads z app sock resources).run (threads z app sock resources).start es) := by
  refine (threads z app sock resources).run_invariant (fun _ c => ItemLedger c) ?_ ?_ es
  · refine ⟨fun item => ?_, each_nil _⟩
    simp [Machine.start, threads, held, filling, queuedItem, processing, releases, RecvPlace.item,
      TxrxPlace.item]
  · intro es event ledger
    generalize (threads z app sock resources).run (threads z app sock resources).start es = c at ledger ⊢
    have move := threads_move z app sock resources c.state event
    simp only [Machine.next]
    generalize ((threads z app sock resources).step c.state event).1 = s at move ⊢
    generalize ((threads z app sock resources).step c.state event).2 = outs at move ⊢
    refine ⟨fun item => ?_, each_append.mpr ⟨ledger.untouched, ?_⟩⟩
    · have before := ledger.balance item
      have stepped := move.balance item
      have fresh := move.fresh item
      simp only [releases, List.count_append] at before ⊢
      omega
    · -- what the step accesses is held, so it was not released before
      rintro before o after split item rfl
      obtain ⟨positive, unreleased⟩ := move.access item (by simp [split])
      have most := ledger.balance item
      have never : releases c.log item = 0 := by split at most <;> omega
      rw [List.mem_append, not_or]
      refine ⟨List.count_eq_zero.mp never, fun member => unreleased ?_⟩
      rw [split]
      exact List.mem_append_left _ member

/-- An item is lost by a failure of `recvfrom`, and by nothing else. -/
theorem step_lost_iff (c : ThreadsConfig) (event : ThreadsEvent) :
    (∀ o ∈ ((threads z app sock resources).step c.state event).2, ¬∃ item, o = .recvfromFailed item) ↔
      recvfromSucceeds c event := by
  cases event with
  | recv calloc recvfrom =>
    cases recvfrom with
    | none =>
      simp only [threads, recvStep, recvfromSucceeds]
      cases c.state.recv with
      | allocating => cases calloc <;> simp
      | _ => simp
    | some datagram =>
      refine iff_of_true ?_ trivial
      simp only [threads, recvStep]
      cases c.state.recv with
      | allocating => cases calloc <;> simp
      | _ => simp
  | txrx env =>
    refine iff_of_true ?_ trivial
    simp only [threads, txrxStep]
    split
    · split <;> simp
    · simp [endpointStep]
    · simp
  | other event =>
    refine iff_of_true ?_ trivial
    simp only [threads, otherStep]
    split
    · simp [endpointStep]
    · simp
    · split <;> simp [endpointStep]

/-- In every run the receive items are kept exactly when `recvfrom` never failed for one. -/
theorem items_kept_iff (es : List ThreadsEvent) :
    ItemsKept ((threads z app sock resources).run (threads z app sock resources).start es) ↔
      (threads z app sock resources).Admits recvfromSucceeds (threads z app sock resources).start es := by
  have lost := Machine.run_avoids_iff (step_lost_iff z app sock resources) es
    (threads z app sock resources).start
  rw [and_iff_right (by simp [Machine.start])] at lost
  rw [← lost]
  have ledger := run_itemLedger z app sock resources es
  generalize (threads z app sock resources).run (threads z app sock resources).start es = c at ledger ⊢
  constructor
  · rintro kept o member ⟨item, rfl⟩
    have balance := ledger.balance item
    have counted : 0 < c.log.count (.recvfromFailed item) := List.count_pos_iff.mpr member
    split at balance
    · next allocated =>
      -- an item that was lost is nowhere else
      have placed := kept.placed item allocated
      rw [held] at balance
      omega
    · omega
  · intro kept
    have never (item : Nat) : c.log.count (.recvfromFailed item) = 0 :=
      List.count_eq_zero.mpr fun member => kept _ member ⟨item, rfl⟩
    have placed : ∀ item < c.state.items, filling c.state item + queuedItem c.state item +
        processing c.state item + releases c.log item = 1 := by
      intro item allocated
      have balance := ledger.balance item
      rwa [never item, if_pos allocated, held] at balance
    refine ⟨placed, fun item => ?_, ledger.untouched, fun ended item allocated => ?_⟩
    · have balance := ledger.balance item
      split at balance <;> omega
    · have here := placed item allocated
      have empty : filling c.state item = 0 := by simp [filling, ended, RecvPlace.item]
      rwa [empty, Nat.zero_add] at here

end runs

/-- The first `recvfrom` fails. -/
def lostRun : ThreadsConfig :=
  (threads rfcZephyr plainApp 3 mainResources).run (threads rfcZephyr plainApp 3 mainResources).start
    [.recv true none, .recv true none]

theorem item_lost : ¬ItemsKept lostRun := by
  intro kept
  have placed := kept.placed 0 (by decide)
  exact absurd placed (by decide)

/-! ## The threads and their parts -/

/-- What the endpoint put out. -/
def endpointOutputs (log : List RxOutput) : List Output :=
  log.filterMap fun
    | .endpoint o => some o
    | _ => none

/-- The endpoint of a configuration. -/
def endpointView (c : ThreadsConfig) : EndpointConfig := ⟨c.state.endpoint, endpointOutputs c.log⟩

theorem endpointOutputs_append (xs ys : List RxOutput) :
    endpointOutputs (xs ++ ys) = endpointOutputs xs ++ endpointOutputs ys :=
  List.filterMap_append

/-- What a step of the two threads does to the endpoint: nothing, or a step of its own. -/
def EndpointPart (s : ThreadsState) (next : ThreadsState × List RxOutput) : Prop :=
  next.1.endpoint = s.endpoint ∧ endpointOutputs next.2 = [] ∨
    ∃ e, next.1.endpoint = (step z app s.endpoint e).1 ∧ endpointOutputs next.2 = (step z app s.endpoint e).2

theorem endpointStep_part (s : ThreadsState) (event : Event) :
    EndpointPart z app s (endpointStep z app s event) :=
  .inr ⟨event, rfl, by simp [endpointStep, endpointOutputs, List.filterMap_map]⟩

theorem threads_part (sock : Int) (resources : List CoapResource) (s : ThreadsState)
    (event : ThreadsEvent) : EndpointPart z app s ((threads z app sock resources).step s event) := by
  cases event with
  | recv calloc recvfrom =>
    simp only [threads, recvStep]
    split
    · split <;> exact .inl ⟨rfl, rfl⟩
    · split <;> exact .inl ⟨rfl, rfl⟩
    all_goals exact .inl ⟨rfl, rfl⟩
  | txrx env =>
    simp only [threads, txrxStep]
    split
    · split <;> exact .inl ⟨rfl, rfl⟩
    · next item rx at_ =>
      -- the access to the item is no output of the endpoint
      exact endpointStep_part z app { s with txrx := .finishing item } (.receive env rx)
    · exact .inl ⟨rfl, rfl⟩
  | other event =>
    simp only [threads, otherStep]
    split
    · exact endpointStep_part z app s _
    · exact .inl ⟨rfl, rfl⟩
    · split
      · exact endpointStep_part z app s _
      · exact .inl ⟨rfl, rfl⟩

/-- The endpoint of the two threads is an endpoint: nothing is received but what was queued. -/
theorem threads_endpoint {sock : Int} {resources : List CoapResource}
    {ok : ThreadsConfig → ThreadsEvent → Prop} {c : ThreadsConfig}
    (reach : (threads z app sock resources).Reachable ok c) :
    (endpoint z app sock resources).Reachable anyEvent (endpointView c) := by
  refine reach.project endpointView rfl fun c event _ => ?_
  simp only [Machine.next, endpointView, endpointOutputs_append]
  rcases threads_part z app sock resources c.state event with ⟨state, log⟩ | ⟨e, state, log⟩
  · rw [state, log, List.append_nil]
    exact .inl rfl
  · refine .inr ⟨e, trivial, ?_⟩
    rw [state, log]
    rfl

/-- Four steps of `recv_thread` are one iteration of its loop. -/
theorem recvStep_iteration (s : ThreadsState) (at_ : s.recv = .allocating) (calloc : Bool)
    (recvfrom : Option (List UInt8 × SockAddr)) :
    let once s := (recvStep z s calloc recvfrom).1
    let s' := once (once (once (once s)))
    match recvThread z calloc recvfrom with
    | .returned => s'.recv = .ended ∧ s'.rxFifo = s.rxFifo
    | .dropped => s'.recv = .allocating ∧ s'.rxFifo = s.rxFifo
    | .queued rx => s'.recv = .allocating ∧ s'.rxFifo = s.rxFifo ++ [(s.items, rx)] := by
  cases calloc with
  | false => simp [recvStep, recvThread, at_]
  | true =>
    cases recvfrom with
    | none => simp [recvStep, recvThread, at_]
    | some datagram =>
      by_cases failed : (z.coapPacketParse (rxData datagram.1) maxCoapMsgLen maxCoapOptions).1 < 0
      · simp [recvStep, recvThread, at_, failed]
      · simp [recvStep, recvThread, at_, failed]

end DtApp.Coap
