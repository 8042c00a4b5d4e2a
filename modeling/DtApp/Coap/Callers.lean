import DtApp.Coap.Matching
import DtApp.Coap.Sends

/-!
# Threads that call `coap_endpoint_post`

The endpoint with the calls of `coap_endpoint_post` that run beside `txrx_thread`. The handler
data of a call lives in the stack frame of the call, so a handler that runs late would write
into a frame that is gone.
-/
namespace DtApp.Coap

/-! ## What a handler call does to a frame -/

/-- What `post_handler` stores: the error, or the code of the response. -/
def result (z : Zephyr) (err : Int) (response : Option CoapPacket) : Int :=
  if err ≠ 0 then err else (z.coapHeaderGetCode (response.getD .null)).toNat

/-- A write to the frame of a call. -/
def Output.signal : Output → Bool
  | .ret .. | .semGive _ => true
  | _ => false

def signals (outs : List Output) : List Output := outs.filter Output.signal

/-- The writes of a handler. -/
def signalsOf (z : Zephyr) (handler : ResponseHandler) (data : HandlerData) (err : Int)
    (response : Option CoapPacket) : List Output :=
  match handler with
  | .postHandler => [.ret data.frame (result z err response), .semGive data.frame]
  | .other _ => []

@[simp] theorem signals_nil : signals [] = [] := rfl

@[simp] theorem signals_cons (o : Output) (outs : List Output) :
    signals (o :: outs) = if o.signal then o :: signals outs else signals outs :=
  List.filter_cons

@[simp] theorem signals_append (xs ys : List Output) : signals (xs ++ ys) = signals xs ++ signals ys :=
  List.filter_append _ _

theorem Answering.signals {P : CoapPacket → Prop} {outs : List Output} (answering : Answering P outs) :
    signals outs = [] := by
  rw [Coap.signals, List.filter_eq_nil_iff]
  intro o member
  cases answering o member <;> simp [Output.signal]

/-- At most one handler is called, and the writes are this handler's. -/
inductive CallsOne (z : Zephyr) (outs : List Output) : Prop
  | none : handlerCalls outs = [] → signals outs = [] → CallsOne z outs
  | one (call : Nat) (handler : ResponseHandler) (data : HandlerData) (err : Int)
      (response : Option CoapPacket) : handlerCalls outs = [(call, handler, data, err, response)] →
      signals outs = signalsOf z handler data err response → CallsOne z outs

section

variable (z : Zephyr) (app : App) (env : Env)

theorem invokeHandler_signals (ep : CoapEndpoint) (call : Nat) (handler : ResponseHandler)
    (data : HandlerData) (err : Int) (response : Option CoapPacket) :
    signals (invokeHandler z app env ep call handler data err response) =
      signalsOf z handler data err response := by
  cases handler with
  | postHandler =>
    obtain ⟨acked, answering, eq⟩ := postHandler_eq z env z.buildsAnswers_true ep data err response
    simp [invokeHandler, eq, signalsOf, result, Output.signal, answering.signals]
  | other f =>
    -- another handler only sends
    have sent : ∀ packets : List (CoapPacket × SockAddr),
        signals (packets.map fun sent => Output.sendto none ep.sock sent.1 sent.2) = [] := by
      intro packets
      induction packets with
      | nil => rfl
      | cons first rest ih => simpa [Output.signal] using ih
    simp [invokeHandler, signalsOf, Output.signal, sent]

theorem plain_silent {outs : List Output} (plain : ∀ o ∈ outs, o.plain = true) :
    handlerCalls outs = [] ∧ signals outs = [] := by
  induction outs with
  | nil => exact ⟨rfl, rfl⟩
  | cons o outs ih =>
    obtain ⟨first, rest⟩ := List.forall_mem_cons.mp plain
    obtain ⟨noCall, noSignal⟩ := ih rest
    -- a plain output is neither a call nor a write
    rw [← List.singleton_append, handlerCalls_append, signals_append, noCall, noSignal]
    cases o <;> first | exact ⟨rfl, rfl⟩ | cases first

/-- A step calls at most one handler. -/
theorem step_callsOne (s : EndpointState) (event : Event) : CallsOne z (step z app s event).2 := by
  have effects : Effects z app (fun _ => True) (step z app s event).2 :=
    step_effects z.buildsAnswers_true s event
  generalize (step z app s event).2 = outs at effects
  cases effects with
  | answers before answering =>
    obtain ⟨noCall, noSignal⟩ := plain_silent before
    refine .none ?_ ?_
    · rw [handlerCalls_append, noCall, answering.quiet.handlerCalls, List.nil_append]
    · rw [signals_append, noSignal, answering.signals, List.nil_append]
  | handler env ep call handler data err response before after =>
    obtain ⟨noCall, noSignal⟩ := plain_silent before
    obtain ⟨noCall', noSignal'⟩ := plain_silent after
    have called := invokeHandler_calls z app env ep call handler data err response .null
    have signaled := invokeHandler_signals z app env ep call handler data err response
    rw [handlerCalls_append, handlerCalls_kFree, List.append_nil] at called
    refine .one call handler data err response ?_ ?_
    · rw [handlerCalls_append, handlerCalls_append, noCall, noCall', called, List.nil_append,
        List.append_nil]
    · rw [signals_append, signals_append, noSignal, noSignal', signaled, List.nil_append,
        List.append_nil]

end

/-! ## The calls as a machine -/

/-- Where a call of `coap_endpoint_post` stands. -/
inductive Stage where
  -- `coap_endpoint_post_async` failed
  | refused (err : Int)
  -- in `k_sem_take`, and behind it
  | waiting
  | awake
  | returned (value : Int)
  deriving DecidableEq

/-- The stack frame of a call: the `sem` and the `ret` of its `post_handler_data`. -/
structure Frame where
  sem : Nat
  ret : Int
  stage : Stage
  deriving DecidableEq

structure CallersState where
  endpoint : EndpointState
  /-- the frames of the calls, in the order in which they were made -/
  frames : List Frame

inductive CallersEvent where
  | post (env : Env) (addr : SockAddr) (path : Option (List (List UInt8)))
      (payload : Option (List UInt8)) (payloadLen : Int)
  | take (call : Nat)
  | leave (call : Nat)
  | transmit (env : Env)
  | timeout (env : Env) (polledAt : Nat)
  | receive (env : Env) (rx : PacketRxDataItem)

inductive CallersOutput where
  | endpoint (o : Output)
  /-- `coap_endpoint_post` returned. -/
  | returned (call : Nat) (value : Int)
  deriving DecidableEq

/-- A write of `post_handler` to the frame that its data is in. -/
def writeFrame (frames : List Frame) : Output → List Frame
  | .ret frame value => frames.modify frame fun f => { f with ret := value }
  -- the semaphore's limit is one
  | .semGive frame => frames.modify frame fun f => { f with sem := min 1 (f.sem + 1) }
  | _ => frames

section

variable (z : Zephyr) (app : App)

/-- The first part of `coap_endpoint_post`, up to `k_sem_take`. -/
def coapEndpointPost (env : Env) (s : CallersState) (addr : SockAddr)
    (path : Option (List (List UInt8))) (payload : Option (List UInt8)) (payloadLen : Int) :
    CallersState × List CallersOutput :=
  let args := coapEndpointPostArgs s.endpoint.posts addr path payload payloadLen
  let err := (coapEndpointPostAsync z env s.endpoint.posts args).1
  let posted := postStep z env s.endpoint args
  let frame : Frame := { sem := 0, ret := 0, stage := if err ≠ 0 then .refused err else .waiting }
  (⟨posted.1, s.frames ++ [frame]⟩, posted.2.map .endpoint)

/-- `k_sem_take` blocks while the count is zero. -/
def kSemTake (s : CallersState) (call : Nat) : CallersState × List CallersOutput :=
  match s.frames[call]? with
  | some ⟨count + 1, ret, .waiting⟩ => ({ s with frames := s.frames.set call ⟨count, ret, .awake⟩ }, [])
  | _ => (s, [])

/-- The return of `coap_endpoint_post`, with the error or with what `ret` holds by then. -/
def leave (s : CallersState) (call : Nat) : CallersState × List CallersOutput :=
  match s.frames[call]? with
  | some ⟨sem, ret, .refused err⟩ =>
    ({ s with frames := s.frames.set call ⟨sem, ret, .returned err⟩ }, [.returned call err])
  | some ⟨sem, ret, .awake⟩ =>
    ({ s with frames := s.frames.set call ⟨sem, ret, .returned ret⟩ }, [.returned call ret])
  | _ => (s, [])

/-- A step of `txrx_thread`, with what its handlers write. -/
def threadStep (s : CallersState) (event : Event) : CallersState × List CallersOutput :=
  let stepped := step z app s.endpoint event
  (⟨stepped.1, stepped.2.foldl writeFrame s.frames⟩, stepped.2.map .endpoint)

def callersStep (s : CallersState) : CallersEvent → CallersState × List CallersOutput
  | .post env addr path payload payloadLen => coapEndpointPost z env s addr path payload payloadLen
  | .take call => kSemTake s call
  | .leave call => leave s call
  | .transmit env => threadStep z app s (.transmit env)
  | .timeout env polledAt => threadStep z app s (.timeout env polledAt)
  | .receive env rx => threadStep z app s (.receive env rx)

def callers (sock : Int) (resources : List CoapResource) :
    Machine CallersState CallersEvent CallersOutput where
  init := ⟨(endpoint z app sock resources).init, []⟩
  step := callersStep z app

end

abbrev CallersConfig := Machine.Config CallersState CallersOutput

def anyCall : CallersConfig → CallersEvent → Prop := fun _ _ => True

/-- What the endpoint put out. -/
def endpointLog (log : List CallersOutput) : List Output :=
  log.filterMap fun
    | .endpoint o => some o
    | .returned .. => none

@[simp] theorem endpointLog_append (xs ys : List CallersOutput) :
    endpointLog (xs ++ ys) = endpointLog xs ++ endpointLog ys :=
  List.filterMap_append

@[simp] theorem endpointLog_map (outs : List Output) : endpointLog (outs.map .endpoint) = outs := by
  induction outs with
  | nil => rfl
  | cons o outs ih =>
    simp only [endpointLog] at ih
    simp [endpointLog, ih]

/-- The endpoint below the calls. -/
def CallersConfig.endpoint (c : CallersConfig) : EndpointConfig := ⟨c.state.endpoint, endpointLog c.log⟩

/-! ## The endpoint below -/

variable {z : Zephyr} {app : App} {sock : Int} {resources : List CoapResource} {c : CallersConfig}

theorem take_step (s : CallersState) (call : Nat) :
    (kSemTake s call).1.endpoint = s.endpoint ∧ (kSemTake s call).2 = [] := by
  unfold kSemTake
  split <;> exact ⟨rfl, rfl⟩

theorem leave_step (s : CallersState) (call : Nat) :
    (leave s call).1.endpoint = s.endpoint ∧ endpointLog (leave s call).2 = [] := by
  unfold leave
  split <;> exact ⟨rfl, rfl⟩

theorem threadStep_endpoint (c : CallersConfig) (event : Event) :
    CallersConfig.endpoint ⟨(threadStep z app c.state event).1,
        c.log ++ (threadStep z app c.state event).2⟩ =
      (endpoint z app sock resources).next c.endpoint event := by
  simp only [CallersConfig.endpoint, Machine.next, threadStep, endpointLog_append, endpointLog_map]
  rfl

/-- Seen from the endpoint, the calls are synchronous posts, and waiting is nothing. -/
theorem callers_endpoint (reach : (callers z app sock resources).Reachable anyCall c) :
    (endpoint z app sock resources).Reachable viaPost c.endpoint := by
  refine reach.project CallersConfig.endpoint rfl ?_
  rintro c (⟨env, addr, path, payload, payloadLen⟩ | call | call | env | ⟨env, polledAt⟩ | ⟨env, rx⟩) _
  · refine .inr ⟨.post env (coapEndpointPostArgs c.state.endpoint.posts addr path payload payloadLen),
      ⟨addr, path, payload, payloadLen, rfl⟩, ?_⟩
    simp only [CallersConfig.endpoint, Machine.next, callers, callersStep, coapEndpointPost,
      endpointLog_append, endpointLog_map]
    rfl
  · obtain ⟨same, silent⟩ := take_step c.state call
    left
    simp only [CallersConfig.endpoint, Machine.next, callers, callersStep, same, silent, List.append_nil]
  · obtain ⟨same, silent⟩ := leave_step c.state call
    left
    simp only [CallersConfig.endpoint, Machine.next, callers, callersStep, same, silent,
      endpointLog_append, List.append_nil]
  · exact .inr ⟨.transmit env, trivial, threadStep_endpoint c _⟩
  · exact .inr ⟨.timeout env polledAt, trivial, threadStep_endpoint c _⟩
  · exact .inr ⟨.receive env rx, trivial, threadStep_endpoint c _⟩

/-! ## What the frames say -/

/-- The semaphore of this call was given. -/
def Output.gives (call : Nat) : Output → Bool
  | .semGive frame => frame == call
  | _ => false

theorem countP_gives (call : Nat) (outs : List Output) :
    outs.countP (Output.gives call) = (signals outs).countP (Output.gives call) := by
  rw [signals, List.countP_filter]
  congr 1
  funext o
  cases o <;> simp [Output.gives, Output.signal]

theorem foldl_writeFrame (outs : List Output) (frames : List Frame) :
    outs.foldl writeFrame frames = (signals outs).foldl writeFrame frames := by
  induction outs generalizing frames with
  | nil => rfl
  | cons o outs ih =>
    rw [List.foldl_cons, ih, signals_cons]
    cases o <;> rfl

/-- A handler runs on the frame of its own call, which is waiting for it. -/
theorem invoked_sync (laws : z.Encodes) {c : EndpointConfig}
    (reach : (endpoint z app sock resources).Reachable viaPost c) {call : Nat}
    {handler : ResponseHandler} {data : HandlerData} {err : Int} {response : Option CoapPacket}
    (invoked : Output.invoked call handler data err response ∈ c.log) :
    handler = .postHandler ∧ data.frame = call ∧ Output.posted call .postHandler data 0 ∈ c.log := by
  have origins := reachable_origins laws reach
  obtain ⟨tx, queued, rfl, rfl, rfl⟩ := origins.calls _ _ _ _ _ invoked
  obtain ⟨handler, data⟩ := queued_sync laws reach tx queued
  have posted := (origins.posted tx queued).2
  rw [handler] at posted ⊢
  exact ⟨rfl, by rw [data], posted⟩

/-- A step wakes no call, or one. -/
theorem step_wakes (laws : z.Encodes) {c : EndpointConfig}
    (reach : (endpoint z app sock resources).Reachable viaPost c) (event : Event)
    (admissible : viaPost c event) :
    (signals (step z app c.state event).2 = [] ∧
      ∀ call, (step z app c.state event).2.countP (Output.invokes call) = 0) ∨
    ∃ data err response,
      Output.invoked data.frame .postHandler data err response ∈ (step z app c.state event).2 ∧
      signals (step z app c.state event).2 =
        [.ret data.frame (result z err response), .semGive data.frame] ∧
      ∀ call, (step z app c.state event).2.countP (Output.invokes call) =
        if data.frame = call then 1 else 0 := by
  cases step_callsOne z app c.state event with
  | none noCall noSignal => exact .inl ⟨noSignal, fun call => by rw [countP_invokes, noCall]; rfl⟩
  | one call handler data err response called signaled =>
    right
    have invoked : Output.invoked call handler data err response ∈ (step z app c.state event).2 := by
      rw [← mem_handlerCalls, called]
      exact List.mem_singleton_self _
    obtain ⟨rfl, rfl, _⟩ := invoked_sync laws (reach.next admissible) (List.mem_append_right _ invoked)
    refine ⟨data, err, response, invoked, signaled, fun call => ?_⟩
    rw [countP_invokes, called]
    simp

/-- The handler of the call ran on its data, and stored the value. -/
def Handled (z : Zephyr) (log : List Output) (call : Nat) (value : Int) : Prop :=
  ∃ data err response, Output.posted call .postHandler data 0 ∈ log ∧ data.frame = call ∧
    Output.invoked call .postHandler data err response ∈ log ∧ value = result z err response

/-- What the frame of a call says about the history. -/
inductive FrameOk (z : Zephyr) (log : List Output) (call : Nat) : Frame → Prop
  | refused (data : HandlerData) (err : Int) : err ≠ 0 →
      Output.posted call .postHandler data err ∈ log → FrameOk z log call ⟨0, 0, .refused err⟩
  | refusal (data : HandlerData) (err : Int) : err ≠ 0 →
      Output.posted call .postHandler data err ∈ log → FrameOk z log call ⟨0, 0, .returned err⟩
  | pending (data : HandlerData) : Output.posted call .postHandler data 0 ∈ log →
      log.countP (Output.invokes call) = 0 → FrameOk z log call ⟨0, 0, .waiting⟩
  | given (value : Int) : Handled z log call value → FrameOk z log call ⟨1, value, .waiting⟩
  | awake (value : Int) : Handled z log call value → FrameOk z log call ⟨0, value, .awake⟩
  | returned (value : Int) : Handled z log call value → FrameOk z log call ⟨0, value, .returned value⟩

theorem Handled.mono {log outs : List Output} {call : Nat} {value : Int}
    (handled : Handled z log call value) : Handled z (log ++ outs) call value := by
  obtain ⟨data, err, response, posted, own, invoked, eq⟩ := handled
  exact ⟨data, err, response, List.mem_append_left _ posted, own, List.mem_append_left _ invoked, eq⟩

theorem Handled.pos {log : List Output} {call : Nat} {value : Int} (handled : Handled z log call value) :
    0 < log.countP (Output.invokes call) := by
  obtain ⟨data, err, response, _, _, invoked, _⟩ := handled
  exact List.countP_pos_iff.mpr ⟨_, invoked, by simp [Output.invokes]⟩

/-- Outputs that are no call of the handler keep what the frame says. -/
theorem FrameOk.mono {log outs : List Output} {call : Nat} {frame : Frame}
    (frameOk : FrameOk z log call frame) (silent : outs.countP (Output.invokes call) = 0) :
    FrameOk z (log ++ outs) call frame := by
  cases frameOk with
  | refused data err failed posted => exact .refused data err failed (List.mem_append_left _ posted)
  | refusal data err failed posted => exact .refusal data err failed (List.mem_append_left _ posted)
  | pending data posted uncalled =>
    refine .pending data (List.mem_append_left _ posted) ?_
    rw [List.countP_append, uncalled, silent]
  | given value handled => exact .given value handled.mono
  | awake value handled => exact .awake value handled.mono
  | returned value handled => exact .returned value handled.mono

/-- Each call has its frame. -/
structure FramesOk (z : Zephyr) (c : CallersConfig) : Prop where
  length : c.state.frames.length = c.state.endpoint.posts
  frames : ∀ call frame, c.state.frames[call]? = some frame → FrameOk z (endpointLog c.log) call frame

theorem invoked_once (laws : z.Encodes) {c : EndpointConfig}
    (reach : (endpoint z app sock resources).Reachable viaPost c) (call : Nat) :
    c.log.countP (Output.invokes call) ≤ 1 := by
  have places := reachable_places laws reach call
  split at places <;> omega

theorem FramesOk.set {c : CallersConfig} (framesOk : FramesOk z c) {call : Nat} {old new : Frame}
    {outs : List CallersOutput} (found : c.state.frames[call]? = some old) (silent : endpointLog outs = [])
    (frameOk : FrameOk z (endpointLog c.log) call new) :
    FramesOk z ⟨{ c.state with frames := c.state.frames.set call new }, c.log ++ outs⟩ := by
  have bound : call < c.state.frames.length := (List.getElem?_eq_some_iff.mp found).1
  refine ⟨by simpa using framesOk.length, fun other frame here => ?_⟩
  simp only [endpointLog_append, silent, List.append_nil]
  simp only [List.getElem?_set] at here
  by_cases same : call = other
  · subst same
    rw [if_pos rfl, if_pos bound] at here
    cases here
    exact frameOk
  · rw [if_neg same] at here
    exact framesOk.frames other frame here

theorem kSemTake_framesOk {c : CallersConfig} (framesOk : FramesOk z c) (call : Nat) :
    FramesOk z ⟨(kSemTake c.state call).1, c.log ++ (kSemTake c.state call).2⟩ := by
  unfold kSemTake
  split
  · next count ret found =>
    -- the count is one, and the result is there
    cases framesOk.frames call _ found with
    | given _ handled => exact framesOk.set found rfl (.awake _ handled)
  · simpa using framesOk

theorem leave_framesOk {c : CallersConfig} (framesOk : FramesOk z c) (call : Nat) :
    FramesOk z ⟨(leave c.state call).1, c.log ++ (leave c.state call).2⟩ := by
  unfold leave
  split
  · next sem ret err found =>
    cases framesOk.frames call _ found with
    | refused data _ failed posted => exact framesOk.set found rfl (.refusal data _ failed posted)
  · next sem ret found =>
    cases framesOk.frames call _ found with
    | awake _ handled => exact framesOk.set found rfl (.returned _ handled)
  · simpa using framesOk

/-- The frame that a handler writes to is waiting, and nobody has written to it. -/
theorem FrameOk.write {log outs : List Output} {call : Nat} {frame : Frame} {value : Int}
    (frameOk : FrameOk z log call frame) (once : (log ++ outs).countP (Output.invokes call) ≤ 1)
    (handled : Handled z (log ++ outs) call value) (new : outs.countP (Output.invokes call) = 1)
    (accepted : ∀ data err, Output.posted call .postHandler data err ∈ log → err = 0) :
    FrameOk z (log ++ outs) call { frame with ret := value, sem := min 1 (frame.sem + 1) } := by
  -- a handler that had run before would have run twice
  have first : ∀ {v}, ¬Handled z log call v := by
    intro v before
    have counted := before.pos
    rw [List.countP_append] at once
    omega
  cases frameOk with
  | refused data err failed posted => exact absurd (accepted data err posted) failed
  | refusal data err failed posted => exact absurd (accepted data err posted) failed
  | pending data posted uncalled => exact .given value handled
  | given _ before => exact absurd before first
  | awake _ before => exact absurd before first
  | returned _ before => exact absurd before first

theorem threadStep_framesOk (laws : z.Encodes) {c : CallersConfig}
    (reach : (endpoint z app sock resources).Reachable viaPost c.endpoint) (framesOk : FramesOk z c)
    (event : Event) (admissible : viaPost c.endpoint event)
    (posts : (step z app c.state.endpoint event).1.posts = c.state.endpoint.posts) :
    FramesOk z ⟨(threadStep z app c.state event).1, c.log ++ (threadStep z app c.state event).2⟩ := by
  have next := reach.next admissible
  have outs : ∀ frames, (step z app c.state.endpoint event).2.foldl writeFrame frames =
      (signals (step z app c.state.endpoint event).2).foldl writeFrame frames :=
    foldl_writeFrame _
  have wakes := step_wakes laws reach event admissible
  simp only [CallersConfig.endpoint] at wakes
  rcases wakes with ⟨noSignal, silent⟩ | ⟨data, err, response, invoked, signaled, counts⟩
  · -- no frame is written
    simp only [threadStep, outs, noSignal, List.foldl_nil]
    refine ⟨by rw [posts]; exact framesOk.length, fun call frame here => ?_⟩
    rw [endpointLog_append, endpointLog_map]
    exact (framesOk.frames call frame here).mono (silent call)
  · simp only [threadStep, outs, signaled, List.foldl_cons, List.foldl_nil, writeFrame,
      List.modify_modify_eq]
    refine ⟨by rw [posts, List.length_modify]; exact framesOk.length, fun call frame here => ?_⟩
    rw [endpointLog_append, endpointLog_map]
    rw [List.getElem?_modify] at here
    by_cases own : data.frame = call
    · subst own
      simp only [if_true, Option.map_eq_map, Option.map_eq_some_iff] at here
      obtain ⟨old, found, rfl⟩ := here
      have posted := (invoked_sync laws next (List.mem_append_right _ invoked)).2.2
      refine (framesOk.frames _ old found).write (invoked_once laws next _)
        ⟨data, err, response, posted, rfl, List.mem_append_right _ invoked, rfl⟩ ?_ ?_
      · rw [counts, if_pos rfl]
      · intro data' err' refused
        exact (posted_unique laws next (List.mem_append_left _ refused) posted).2.2
    · simp only [own, if_false, Option.map_eq_map, Option.map_id_fun', id_eq] at here
      refine (framesOk.frames call frame here).mono ?_
      rw [counts, if_neg own]

theorem postStep_calls (env : Env) (s : EndpointState) (args : PostArgs) :
    handlerCalls (postStep z env s args).2 = [] :=
  (plain_silent (postStep_plain env s args)).1

theorem coapEndpointPost_framesOk (laws : z.Encodes) {c : CallersConfig}
    (reach : (endpoint z app sock resources).Reachable viaPost c.endpoint) (framesOk : FramesOk z c)
    (env : Env) (addr : SockAddr) (path : Option (List (List UInt8))) (payload : Option (List UInt8))
    (payloadLen : Int) :
    FramesOk z ⟨(coapEndpointPost z env c.state addr path payload payloadLen).1,
      c.log ++ (coapEndpointPost z env c.state addr path payload payloadLen).2⟩ := by
  have length := framesOk.length
  simp only [coapEndpointPost]
  refine ⟨by simpa [postStep] using length, fun call frame here => ?_⟩
  rw [endpointLog_append, endpointLog_map]
  have silent : ∀ call, (postStep z env c.state.endpoint
      (coapEndpointPostArgs c.state.endpoint.posts addr path payload payloadLen)).2.countP
        (Output.invokes call) = 0 := by
    intro call
    rw [countP_invokes, postStep_calls]
    rfl
  simp only [List.getElem?_append] at here
  split at here
  · exact (framesOk.frames call frame here).mono (silent call)
  · -- the new frame, as the post left it
    next beyond =>
    rw [List.getElem?_singleton] at here
    split at here
    · next first =>
      cases here
      have call_eq : call = c.state.endpoint.posts := by omega
      subst call_eq
      have posted : Output.posted c.state.endpoint.posts .postHandler ⟨c.state.endpoint.posts, addr⟩
          (coapEndpointPostAsync z env c.state.endpoint.posts
            (coapEndpointPostArgs c.state.endpoint.posts addr path payload payloadLen)).1 ∈
          (postStep z env c.state.endpoint
            (coapEndpointPostArgs c.state.endpoint.posts addr path payload payloadLen)).2 :=
        List.mem_append_right _ (List.mem_singleton_self _)
      by_cases failed : (coapEndpointPostAsync z env c.state.endpoint.posts
          (coapEndpointPostArgs c.state.endpoint.posts addr path payload payloadLen)).1 = 0
      · simp only [failed, ne_eq, not_true_eq_false, if_false]
        rw [failed] at posted
        refine .pending _ (List.mem_append_right _ posted) ?_
        -- the call was not made before
        have places := reachable_places laws reach c.state.endpoint.posts
        have fresh : ¬c.state.endpoint.posts < c.endpoint.state.view.posts := Nat.lt_irrefl _
        rw [if_neg fresh] at places
        rw [List.countP_append, silent]
        change _ + _ + (endpointLog c.log).countP _ ≤ 0 at places
        omega
      · simp only [ne_eq, failed, not_false_eq_true, if_true]
        exact .refused _ _ failed (List.mem_append_right _ posted)
    · cases here

theorem reachable_framesOk (laws : z.Encodes)
    (reach : (callers z app sock resources).Reachable anyCall c) : FramesOk z c := by
  refine reach.invariant (FramesOk z) ⟨rfl, fun _ _ here => by cases here⟩ ?_
  rintro c (⟨env, addr, path, payload, payloadLen⟩ | call | call | env | ⟨env, polledAt⟩ | ⟨env, rx⟩)
    reached _ framesOk
  · exact coapEndpointPost_framesOk laws (callers_endpoint reached) framesOk env addr path payload
      payloadLen
  · exact kSemTake_framesOk framesOk call
  · exact leave_framesOk framesOk call
  · exact threadStep_framesOk laws (callers_endpoint reached) framesOk (.transmit env) trivial
      (step_posts _ _ fun _ _ absurd => by cases absurd)
  · exact threadStep_framesOk laws (callers_endpoint reached) framesOk (.timeout env polledAt) trivial
      (step_posts _ _ fun _ _ absurd => by cases absurd)
  · exact threadStep_framesOk laws (callers_endpoint reached) framesOk (.receive env rx) trivial
      (step_posts _ _ fun _ _ absurd => by cases absurd)

/-! ## Calls stay separate -/

/-- What must have happened before a call returns: it queued nothing and failed with the value, or
its own handler stored the value and woke it. -/
inductive Settled (z : Zephyr) (log : List Output) (call : Nat) (value : Int) : Prop
  | refused (data : HandlerData) : value ≠ 0 → Output.posted call .postHandler data value ∈ log →
      (∀ data, Output.posted call .postHandler data 0 ∉ log) → Settled z log call value
  | handled : Handled z log call value → log.countP (Output.gives call) = 1 → Settled z log call value

/-- A run of `post_handler` on the frame, or a write to it. -/
def Output.touches (frame : Nat) : Output → Bool
  | .invoked _ .postHandler data _ _ => data.frame == frame
  | .ret f _ | .semGive f => f == frame
  | _ => false

/-- The calls of a run do not get into each other's way. -/
structure StaySeparate (z : Zephyr) (c : CallersConfig) : Prop where
  returns : ∀ pre post call value, c.log = pre ++ .returned call value :: post →
    Settled z (endpointLog pre) call value
  alive : ∀ pre post o call, c.log = pre ++ .endpoint o :: post → o.touches call = true →
    (∀ value, CallersOutput.returned call value ∉ pre) ∧
      ∀ handler data ret, Output.posted call handler data ret ∈ endpointLog c.log → ret = 0
  once : ∀ call, (endpointLog c.log).countP (Output.gives call) ≤ 1

/-- Each run of a handler gives its semaphore. -/
theorem reachable_gives (laws : z.Encodes) {c : EndpointConfig}
    (reach : (endpoint z app sock resources).Reachable viaPost c) (call : Nat) :
    c.log.countP (Output.gives call) = c.log.countP (Output.invokes call) := by
  refine reach.invariant
    (fun c => c.log.countP (Output.gives call) = c.log.countP (Output.invokes call)) rfl ?_
  intro c event reached admissible before
  change (c.log ++ (step z app c.state event).2).countP _ = (c.log ++ (step z app c.state event).2).countP _
  rw [List.countP_append, List.countP_append, before, countP_gives]
  rcases step_wakes laws reached event admissible with
    ⟨noSignal, silent⟩ | ⟨data, err, response, _, signaled, counts⟩
  · rw [noSignal, silent]
    rfl
  · rw [signaled, counts]
    simp [List.countP_cons, Output.gives]

/-- What a step of the calls puts out. -/
theorem callers_outputs (laws : z.Encodes) (reach : (callers z app sock resources).Reachable anyCall c)
    (e : CallersEvent) :
    (∃ event, viaPost c.endpoint event ∧
      (callersStep z app c.state e).2 = (step z app c.state.endpoint event).2.map .endpoint) ∨
    (callersStep z app c.state e).2 = [] ∨
    ∃ call value, (callersStep z app c.state e).2 = [.returned call value] ∧
      Settled z (endpointLog c.log) call value := by
  cases e with
  | post env addr path payload payloadLen =>
    exact .inl ⟨.post env _, ⟨addr, path, payload, payloadLen, rfl⟩, rfl⟩
  | take call => exact .inr (.inl (take_step c.state call).2)
  | leave call =>
    have framesOk := reachable_framesOk laws reach
    have given : ∀ {value}, Handled z (endpointLog c.log) call value →
        (endpointLog c.log).countP (Output.gives call) = 1 := by
      intro value handled
      have once := invoked_once laws (callers_endpoint reach) call
      have counted := handled.pos
      exact (reachable_gives laws (callers_endpoint reach) call).trans (Nat.le_antisymm once counted)
    right
    simp only [callersStep, leave]
    split
    · next sem ret err found =>
      cases framesOk.frames call _ found with
      | refused data _ failed posted =>
        have single : ∀ data', Output.posted call .postHandler data' 0 ∉ endpointLog c.log := by
          intro data' accepted
          exact failed (posted_unique laws (callers_endpoint reach) posted accepted).2.2
        exact .inr ⟨call, err, rfl, .refused data failed posted single⟩
    · next sem ret found =>
      cases framesOk.frames call _ found with
      | awake _ handled => exact .inr ⟨call, ret, rfl, .handled handled (given handled)⟩
    · exact .inl rfl
  | transmit env => exact .inl ⟨.transmit env, trivial, rfl⟩
  | timeout env polledAt => exact .inl ⟨.timeout env polledAt, trivial, rfl⟩
  | receive env rx => exact .inl ⟨.receive env rx, trivial, rfl⟩

theorem returned_settled (laws : z.Encodes) (reach : (callers z app sock resources).Reachable anyCall c)
    {pre post : List CallersOutput} {call : Nat} {value : Int}
    (split : c.log = pre ++ .returned call value :: post) : Settled z (endpointLog pre) call value := by
  obtain ⟨d, e, before, after, reached, _, _, outs, rfl⟩ := reach.origin split
  change (callersStep z app d.state e).2 = _ at outs
  rcases callers_outputs laws reached e with ⟨event, _, eq⟩ | eq | ⟨call', value', eq, settled⟩
  · -- the endpoint does not return for a call
    have member : CallersOutput.returned call value ∈ (callersStep z app d.state e).2 := by
      rw [outs]
      exact List.mem_append_right _ List.mem_cons_self
    rw [eq] at member
    simp at member
  · rw [eq] at outs
    simp at outs
  · rw [eq, List.singleton_eq_append_iff] at outs
    rcases outs with ⟨rfl, rest⟩ | ⟨_, absurd⟩
    · cases rest
      rw [List.append_nil]
      exact settled
    · cases absurd

/-- An output that touches a frame is a write to it, or a run of the handler on it. -/
theorem touches_cases {o : Output} {call : Nat} (touches : o.touches call = true) :
    (o = .semGive call ∨ ∃ value, o = .ret call value) ∨
      ∃ call' data err response, o = .invoked call' .postHandler data err response ∧ data.frame = call := by
  cases o with
  | invoked call' handler data err response =>
    cases handler with
    | postHandler => exact .inr ⟨call', data, err, response, rfl, by simpa [Output.touches] using touches⟩
    | other f => cases touches
  | ret frame value =>
    simp only [Output.touches, beq_iff_eq] at touches
    exact .inl (.inr ⟨value, by rw [touches]⟩)
  | semGive frame =>
    simp only [Output.touches, beq_iff_eq] at touches
    exact .inl (.inl (by rw [touches]))
  | _ => cases touches

/-- A step that touches a frame runs the handler of its call, which was accepted. -/
theorem touches_invoked (laws : z.Encodes) {c : EndpointConfig}
    (reach : (endpoint z app sock resources).Reachable viaPost c) (event : Event)
    (admissible : viaPost c event) {o : Output} (member : o ∈ (step z app c.state event).2) {call : Nat}
    (touches : o.touches call = true) :
    0 < (step z app c.state event).2.countP (Output.invokes call) ∧
      ∃ data, Output.posted call .postHandler data 0 ∈
        ((endpoint z app sock resources).next c event).log := by
  have next := reach.next admissible
  -- a run of a handler of this step
  have ran : ∀ {call' handler data err response},
      Output.invoked call' handler data err response ∈ (step z app c.state event).2 →
      data.frame = call → 0 < (step z app c.state event).2.countP (Output.invokes call) ∧
        ∃ data, Output.posted call .postHandler data 0 ∈
          ((endpoint z app sock resources).next c event).log := by
    intro call' handler data err response invoked own
    obtain ⟨_, same, posted⟩ := invoked_sync laws next (List.mem_append_right _ invoked)
    obtain rfl := same.symm.trans own
    exact ⟨List.countP_pos_iff.mpr ⟨_, invoked, by simp [Output.invokes]⟩, _, posted⟩
  rcases touches_cases touches with write | ⟨call', data, err, response, rfl, own⟩
  · have signal : o ∈ signals (step z app c.state event).2 := by
      refine List.mem_filter.mpr ⟨member, ?_⟩
      rcases write with rfl | ⟨value, rfl⟩ <;> rfl
    rcases step_wakes laws reach event admissible with
      ⟨noSignal, _⟩ | ⟨data, err, response, invoked, signaled, _⟩
    · rw [noSignal] at signal
      cases signal
    · refine ran invoked ?_
      rw [signaled] at signal
      rcases write with rfl | ⟨value, rfl⟩ <;> simp_all
  · exact ran member own

/-- What the endpoint put out stays in the log. -/
theorem endpointLog_prefix {d : CallersConfig} (leads : (callers z app sock resources).Leads anyCall d c) :
    endpointLog d.log <+: endpointLog c.log :=
  leads.log_prefix.filterMap _

/-- A frame that a step touches is of a call that has not returned. -/
theorem touches_unreturned (laws : z.Encodes) (reach : (callers z app sock resources).Reachable anyCall c)
    (event : Event) (admissible : viaPost c.endpoint event) {o : Output}
    (member : o ∈ (step z app c.state.endpoint event).2) {call : Nat} (touches : o.touches call = true)
    (value : Int) : CallersOutput.returned call value ∉ c.log := by
  intro returned
  have below := callers_endpoint reach
  have next := below.next admissible
  obtain ⟨ran, data, posted⟩ := touches_invoked laws below event admissible member touches
  obtain ⟨pre, post, split⟩ := List.append_of_mem returned
  cases returned_settled laws reach split with
  | refused data' failed refused =>
    -- the call was accepted as well
    have old : Output.posted call .postHandler data' value ∈ c.endpoint.log := by
      rw [CallersConfig.endpoint, split, endpointLog_append]
      exact List.mem_append_left _ refused
    exact failed (posted_unique laws next (List.mem_append_left _ old) posted).2.2
  | handled handled =>
    -- its handler would have run before the step and in it
    have once := invoked_once laws next call
    have first := handled.pos
    change (endpointLog c.log ++ (step z app c.state.endpoint event).2).countP _ ≤ 1 at once
    change 0 < (step z app c.state.endpoint event).2.countP _ at ran
    rw [split, endpointLog_append] at once
    simp only [List.countP_append] at once
    omega

/-- Concurrent calls of `coap_endpoint_post` stay separate, whatever the order of the steps. -/
theorem posts_stay_separate (laws : z.Encodes)
    (reach : (callers z app sock resources).Reachable anyCall c) : StaySeparate z c := by
  have below := callers_endpoint reach
  refine ⟨fun pre post call value split => returned_settled laws reach split, ?_, ?_⟩
  · intro pre post o call split touches
    obtain ⟨d, e, before, after, reached, _, leads, outs, rfl⟩ := reach.origin split
    change (callersStep z app d.state e).2 = _ at outs
    rcases callers_outputs laws reached e with ⟨event, admissible, eq⟩ | eq | ⟨_, _, eq, _⟩
    · rw [eq] at outs
      have fromEndpoint : ∀ o' ∈ before ++ .endpoint o :: after,
          o' ∈ (step z app d.state.endpoint event).2.map CallersOutput.endpoint := by
        rw [← outs]
        exact fun _ member => member
      have member : o ∈ (step z app d.state.endpoint event).2 := by
        simpa using fromEndpoint _ (List.mem_append_right _ List.mem_cons_self)
      constructor
      · intro value returned
        rcases List.mem_append.mp returned with old | new
        · exact touches_unreturned laws reached event admissible member touches value old
        · have absurd := fromEndpoint _ (List.mem_append_left _ new)
          simp at absurd
      · intro handler data ret again
        obtain ⟨_, data', posted⟩ :=
          touches_invoked laws (callers_endpoint reached) event admissible member touches
        -- what the step put out stands in the log of the run
        have kept := endpointLog_prefix leads
        change endpointLog (d.log ++ (callersStep z app d.state e).2) <+: _ at kept
        rw [endpointLog_append, eq, endpointLog_map] at kept
        exact (posted_unique laws below again (kept.subset posted)).2.2
    · rw [eq] at outs
      simp at outs
    · rw [eq, List.singleton_eq_append_iff] at outs
      rcases outs with ⟨_, absurd⟩ | ⟨_, absurd⟩ <;> cases absurd
  · intro call
    exact (reachable_gives laws below call).trans_le (invoked_once laws below call)

/-- Two calls wait at once. The second one is answered first, with 2.01, and the first one is reset. -/
def interleavedCalls : CallersConfig :=
  let m := callers rfcZephyr plainApp 3 mainResources
  m.run m.start [.post (calmEnv 1 0) serverAddr none (some [104, 105]) 2,
    .post (calmEnv 2 0) serverAddr none (some [104, 105]) 2, .take 0, .transmit (calmEnv 3 5), .take 1,
    .transmit (calmEnv 3 6),
    .receive (calmEnv 3 9) (sampleRx ⟨.ack, coapResponseCodeCreated, 2, [0, 2, 0, 0, 0, 0, 0, 0]⟩ serverAddr),
    .take 0, .take 1, .receive (calmEnv 3 10) (sampleRx ⟨.reset, coapCodeEmpty, 1, []⟩ serverAddr),
    .take 0, .leave 1, .leave 0]

theorem posts_stay_separate_interleaved :
    StaySeparate rfcZephyr interleavedCalls ∧ .returned 1 0x41 ∈ interleavedCalls.log ∧
      .returned 0 (-ecanceled) ∈ interleavedCalls.log :=
  ⟨posts_stay_separate rfcZephyr_encodes (Machine.reachable_run _ (Machine.admits_true _ _)),
    by decide +kernel, by decide +kernel⟩

/-! ## Handlers that have run -/

/-- A handler of a synchronous post that ran has stored its result and woken its caller. -/
theorem invoked_signals {ok : EndpointConfig → Event → Prop} {c : EndpointConfig}
    (reach : (endpoint z app sock resources).Reachable ok c) {call : Nat} {data : HandlerData} {err : Int}
    {response : Option CoapPacket} (invoked : Output.invoked call .postHandler data err response ∈ c.log) :
    Output.ret data.frame (result z err response) ∈ c.log ∧ Output.semGive data.frame ∈ c.log := by
  obtain ⟨d, event, _, _, leads, member⟩ := reach.origin_of_mem invoked
  change _ ∈ (step z app d.state event).2 at member
  have kept : (step z app d.state event).2 ⊆ c.log := fun o here =>
    leads.log_prefix.subset (List.mem_append_right _ here)
  have writes : signals (step z app d.state event).2 = signalsOf z .postHandler data err response := by
    rw [← mem_handlerCalls] at member
    cases step_callsOne z app d.state event with
    | none noCall => simp [noCall] at member
    | one _ _ _ _ _ called signaled =>
      rw [called, List.mem_singleton] at member
      cases member
      exact signaled
  have written : ∀ o ∈ signalsOf z .postHandler data err response, o ∈ c.log := by
    intro o signal
    rw [← writes] at signal
    exact kept (List.mem_of_mem_filter signal)
  exact ⟨written _ List.mem_cons_self, written _ (List.mem_cons_of_mem _ List.mem_cons_self)⟩

end DtApp.Coap
