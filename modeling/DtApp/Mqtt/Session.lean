import DtApp.Library.History
import DtApp.Mqtt.Payload

/-!
# The session of the MQTT thread

`mqtt_thread` from `mqtt_connect` to the end of its loop, beside `main`, which waits for the connection,
and the threads that publish. The library calls the event handler from within its functions, so what
it reports is part of how a call goes.
-/
namespace DtApp.Mqtt

open History

/-! ## The library -/

/-- `fds.revents`. -/
structure Revents where
  pollin : Bool
  pollerr : Bool
  pollnval : Bool
  deriving DecidableEq

/-- An answer to a round of the reading loop, with everything that `poll` sets. -/
structure SessionAnswer where
  read : (n : Nat) → ReadResult n
  poll : Int
  revents : Revents

def SessionAnswer.answer (a : SessionAnswer) : Answer := ⟨a.read, a.poll, a.revents.pollin⟩

/-- An event that is reported to the handler. -/
structure Report where
  evt : MqttEvt
  answers : List SessionAnswer

/-- How a call of the library goes. -/
structure LibraryCall where
  reports : List Report
  ret : Int

/-! ## State -/

/-- Where `mqtt_thread` stands, by what it does next. -/
inductive ThreadPlace where
  | notStarted
  | connecting
  | polling
  | living
  | inputting
  -- the tests for `POLLERR` and `POLLNVAL`
  | testing
  | disconnecting
  | ended
  deriving DecidableEq

inductive MainPlace where
  | starting
  -- `while(!mqtt_connected())`
  | waiting
  | running
  deriving DecidableEq

structure SessionState where
  client : Client
  revents : Revents
  thread : ThreadPlace
  main : MainPlace

inductive SessionEvent where
  | main
  /-- `mqtt_data_publish`, from any thread. -/
  | publish (rand : UInt32) (data : List UInt8) (call : LibraryCall)
  /-- The next step of `mqtt_thread`, with what `poll` or the library answers. -/
  | thread (poll : Int) (revents : Revents) (call : LibraryCall)

/-- A call that `mqtt_thread` has made, with its result, or what it has found in `fds.revents`. -/
inductive Call where
  | connect (ret : Int)
  | poll (ret : Int) (revents : Revents)
  | live (ret : Int)
  /-- The `poll` of `publish_get_payload`. -/
  | polledAgain (ret : Int) (revents : Revents)
  | input (ret : Int)
  /-- The tests for `POLLERR` and `POLLNVAL`. -/
  | tested (revents : Revents)
  | disconnect (ret : Int)
  deriving DecidableEq

inductive SessionOutput where
  | module (o : Output)
  | reported (evt : MqttEvt)
  | called (call : Call)
  deriving DecidableEq

/-! ## Steps -/

variable (config : MqttConfig) (stream : Nat → UInt8)

/-- The polls of the reading loop: there is one after each `-EAGAIN`. -/
def pollsAgain : List Request → List SessionAnswer → List (Int × Revents)
  | q :: requests, a :: answers =>
    if q.ret = -eagain then (a.poll, a.revents) :: pollsAgain requests answers
    else pollsAgain requests answers
  | _, _ => []

/-- What `fds.revents` is after some polls. -/
def setLast (revents : Revents) (polls : List (Int × Revents)) : Revents :=
  polls.foldl (fun _ poll => poll.2) revents

/-- The handler runs on the variables of the thread. -/
def handleReport (s : SessionState) (report : Report) : SessionState × List SessionOutput :=
  let answers := report.answers.map SessionAnswer.answer
  let handled := mqttEvtHandler config stream answers s.client report.evt
  let polls := match report.evt with
    | .publish payloadLen =>
      pollsAgain (publishGetPayload stream payloadLen answers s.client).requests report.answers
    | _ => []
  ({ s with client := handled.1, revents := setLast s.revents polls },
    .reported report.evt ::
      (polls.map fun poll => .called (.polledAgain poll.1 poll.2)) ++ handled.2.map .module)

def handleReports (s : SessionState) : List Report → SessionState × List SessionOutput
  | [] => (s, [])
  | report :: reports =>
    let first := handleReport config stream s report
    let rest := handleReports first.1 reports
    (rest.1, first.2 ++ rest.2)

/-- A call of the library by `mqtt_thread`, which goes to the given place. -/
def callLibrary (s : SessionState) (call : LibraryCall) (made : Int → Call)
    (place : SessionState → ThreadPlace) : SessionState × List SessionOutput :=
  let handled := handleReports config stream s call.reports
  ({ handled.1 with thread := place handled.1 }, handled.2 ++ [.called (made call.ret)])

/-- The next step of `mqtt_thread`. -/
def mqttThreadStep (s : SessionState) (poll : Int) (revents : Revents) (call : LibraryCall) :
    SessionState × List SessionOutput :=
  match s.thread with
  | .notStarted | .ended => (s, [])
  | .connecting =>
    -- `client_init` has set a transport that is not secure, so `fds_init` succeeds
    callLibrary config stream s call .connect fun _ => if call.ret ≠ 0 then .ended else .polling
  | .polling =>
    if poll < 0 then ({ s with thread := .disconnecting }, [.called (.poll poll revents)])
    else ({ s with thread := .living, revents }, [.called (.poll poll revents)])
  | .living =>
    callLibrary config stream s call .live fun after =>
      if call.ret ≠ 0 ∧ call.ret ≠ -eagain then .disconnecting
      else if after.revents.pollin then .inputting
      else .testing
  | .inputting =>
    callLibrary config stream s call .input fun _ => if call.ret ≠ 0 then .disconnecting else .testing
  | .testing =>
    ({ s with thread := if s.revents.pollerr || s.revents.pollnval then .disconnecting else .polling },
      [.called (.tested s.revents)])
  | .disconnecting => callLibrary config stream s call .disconnect fun _ => .ended

/-- `main` from `mqtt_start_thread` to the end of its wait. -/
def mainThreadStep (s : SessionState) : SessionState :=
  match s.main with
  | .starting => { s with main := .waiting, thread := .connecting }
  | .waiting => if s.client.connected then { s with main := .running } else s
  | .running => s

def sessionStep (s : SessionState) : SessionEvent → SessionState × List SessionOutput
  | .main => (mainThreadStep s, [])
  | .publish rand data call =>
    let handled := handleReports config stream s call.reports
    (handled.1, .module (.published (mqttDataPublish config rand data)) :: handled.2)
  | .thread poll revents call => mqttThreadStep config stream s poll revents call

/-- The application from the start of `main` on, with a payload buffer of the given size. -/
def session (bufferSize : Nat) : Machine SessionState SessionEvent SessionOutput where
  init := ⟨(mqttModule config stream bufferSize).init, ⟨false, false, false⟩, .notStarted, .starting⟩
  step := sessionStep config stream

abbrev SessionConfig := Machine.Config SessionState SessionOutput

/-! ## What a call of the library does -/

variable {config stream}

variable (config stream) in
theorem handleReports_frame (s : SessionState) (reports : List Report) :
    (handleReports config stream s reports).1.thread = s.thread ∧
      (handleReports config stream s reports).1.main = s.main := by
  induction reports generalizing s with
  | nil => exact ⟨rfl, rfl⟩
  | cons report reports ih => exact ih (handleReport config stream s report).1

@[simp] theorem mainThreadStep_client (s : SessionState) : (mainThreadStep s).client = s.client := by
  unfold mainThreadStep
  split
  · rfl
  · split <;> rfl
  · rfl

/-- The calls of `mqtt_thread`. -/
def calls (log : List SessionOutput) : List Call :=
  log.filterMap fun
    | .called call => some call
    | _ => none

/-- What the module puts out. -/
def moduleOutputs (log : List SessionOutput) : List Output :=
  log.filterMap fun
    | .module o => some o
    | _ => none

@[simp] theorem calls_append (xs ys : List SessionOutput) : calls (xs ++ ys) = calls xs ++ calls ys :=
  List.filterMap_append

@[simp] theorem moduleOutputs_append (xs ys : List SessionOutput) :
    moduleOutputs (xs ++ ys) = moduleOutputs xs ++ moduleOutputs ys :=
  List.filterMap_append

@[simp] theorem calls_module (outs : List Output) : calls (outs.map .module) = [] := by
  simp [calls, List.filterMap_map]

@[simp] theorem moduleOutputs_module (outs : List Output) :
    moduleOutputs (outs.map .module) = outs := by
  simp [moduleOutputs, List.filterMap_map]

/-- The polls of `publish_get_payload`, as calls. -/
def again (polls : List (Int × Revents)) : List Call := polls.map fun poll => .polledAgain poll.1 poll.2

@[simp] theorem again_append (xs ys : List (Int × Revents)) : again (xs ++ ys) = again xs ++ again ys :=
  List.map_append

@[simp] theorem setLast_append (revents : Revents) (xs ys : List (Int × Revents)) :
    setLast revents (xs ++ ys) = setLast (setLast revents xs) ys :=
  List.foldl_append

@[simp] theorem calls_again (polls : List (Int × Revents)) :
    calls (polls.map fun poll => .called (.polledAgain poll.1 poll.2)) = again polls := by
  simp [calls, again, List.filterMap_map]

@[simp] theorem moduleOutputs_again (polls : List (Int × Revents)) :
    moduleOutputs (polls.map fun poll => .called (.polledAgain poll.1 poll.2)) = [] := by
  simp [moduleOutputs, List.filterMap_map]

@[simp] theorem calls_reported (evt : MqttEvt) (log : List SessionOutput) :
    calls (.reported evt :: log) = calls log := rfl

@[simp] theorem moduleOutputs_reported (evt : MqttEvt) (log : List SessionOutput) :
    moduleOutputs (.reported evt :: log) = moduleOutputs log := rfl

variable (config stream) in
/-- The handler makes no call of the thread but to poll again, and `fds.revents` is what was polled
last. -/
theorem handleReports_polls (s : SessionState) (reports : List Report) :
    ∃ polls, calls (handleReports config stream s reports).2 = again polls ∧
      (handleReports config stream s reports).1.revents = setLast s.revents polls := by
  induction reports generalizing s with
  | nil => exact ⟨[], rfl, rfl⟩
  | cons report reports ih =>
    obtain ⟨later, made, set⟩ := ih (handleReport config stream s report).1
    obtain ⟨first, first_made, first_set⟩ : ∃ polls,
        calls (handleReport config stream s report).2 = again polls ∧
          (handleReport config stream s report).1.revents = setLast s.revents polls :=
      ⟨_, by simp [handleReport], rfl⟩
    refine ⟨first ++ later, ?_, ?_⟩
    · simp only [handleReports, calls_append, again_append, first_made, made]
    · simp only [handleReports, setLast_append, set, first_set]

/-! ## The module below -/

/-- The session as the module sees it. -/
def moduleView (c : SessionConfig) : MqttRun := ⟨c.state.client, moduleOutputs c.log⟩

variable (config stream) in
/-- Every report is an event of the module. -/
theorem handleReports_leads (bufferSize : Nat) (s : SessionState) (reports : List Report)
    (log : List Output) :
    (mqttModule config stream bufferSize).Leads (fun _ _ => True) ⟨s.client, log⟩
      ⟨(handleReports config stream s reports).1.client,
        log ++ moduleOutputs (handleReports config stream s reports).2⟩ := by
  induction reports generalizing s log with
  | nil =>
    simp only [handleReports]
    rw [show moduleOutputs [] = [] from rfl, List.append_nil]
    exact .refl
  | cons report reports ih =>
    have rest := ih (handleReport config stream s report).1
      (log ++ moduleOutputs (handleReport config stream s report).2)
    rw [List.append_assoc, ← moduleOutputs_append] at rest
    refine .head ⟨.evt report.evt (report.answers.map SessionAnswer.answer), trivial, ?_⟩ rest
    simp [Machine.next, mqttModule, step, handleReport]

theorem callLibrary_leads {bufferSize : Nat} (s : SessionState) (call : LibraryCall) (made : Int → Call)
    (place : SessionState → ThreadPlace) (log : List SessionOutput) :
    (mqttModule config stream bufferSize).Leads (fun _ _ => True) (moduleView ⟨s, log⟩)
      (moduleView ⟨(callLibrary config stream s call made place).1,
        log ++ (callLibrary config stream s call made place).2⟩) := by
  have led := handleReports_leads config stream bufferSize s call.reports
    (moduleOutputs log)
  have nothing : moduleOutputs [.called (made call.ret)] = [] := rfl
  simpa only [moduleView, callLibrary, moduleOutputs_append, nothing, List.append_nil] using led

/-- A session is a run of the module. -/
theorem session_module {bufferSize : Nat} {ok : SessionConfig → SessionEvent → Prop} {c : SessionConfig}
    (reach : (session config stream bufferSize).Reachable ok c) :
    (mqttModule config stream bufferSize).Reachable (fun _ _ => True) (moduleView c) := by
  apply reach.projectLeads moduleView rfl
  intro c event _
  have idle : ∀ {s : SessionState} {outs}, s.client = c.state.client → moduleOutputs outs = [] →
      (mqttModule config stream bufferSize).Leads (fun _ _ => True) (moduleView c)
        (moduleView ⟨s, c.log ++ outs⟩) := by
    intro s outs same silent
    rw [moduleView, moduleView, same, moduleOutputs_append, silent, List.append_nil]
    exact .refl
  cases event with
  | main => exact idle (mainThreadStep_client c.state) rfl
  | publish rand data call =>
    have led := handleReports_leads config stream bufferSize c.state call.reports
      (moduleOutputs c.log ++ [.published (mqttDataPublish config rand data)])
    rw [List.append_assoc] at led
    refine .head ⟨.dataPublish rand data, trivial, rfl⟩ ?_
    simp only [moduleView, Machine.next, session, sessionStep, moduleOutputs_append]
    exact led
  | thread poll revents call =>
    simp only [Machine.next, session, sessionStep, mqttThreadStep]
    split
    · exact idle rfl rfl
    · exact idle rfl rfl
    · exact callLibrary_leads c.state call _ _ c.log
    · split <;> exact idle rfl rfl
    · exact callLibrary_leads c.state call _ _ c.log
    · exact callLibrary_leads c.state call _ _ c.log
    · exact idle rfl rfl
    · exact callLibrary_leads c.state call _ _ c.log

/-! ### A session

The broker accepts the connection, and then `poll` reports an error while a payload is read. -/

def sampleSession := session ⟨"up", "down", 1883⟩ (fun _ => 0) 128

def pollinSet : Revents := ⟨true, false, false⟩

def acceptedEvents : List SessionEvent :=
  [.main, .thread 0 pollinSet ⟨[], 0⟩, .thread 1 pollinSet ⟨[], 0⟩, .thread 0 pollinSet ⟨[], -eagain⟩,
    .thread 0 pollinSet ⟨[⟨.connack 0, []⟩], 0⟩]

def pollerrSet : Revents := ⟨true, true, false⟩

/-- Nothing can be read at first, and then two bytes. -/
def slowPayload : Report where
  evt := .publish 2
  answers := [⟨fun _ => .error (-eagain) (by decide), 1, pollerrSet⟩,
    ⟨fun n => if room : 2 ≤ n then .bytes 2 (by decide) room else .closed, 0, pollinSet⟩]

def closedEvents : List SessionEvent :=
  acceptedEvents ++ [.thread 0 pollinSet ⟨[], 0⟩, .thread 1 pollinSet ⟨[], 0⟩, .thread 0 pollinSet ⟨[], 0⟩,
    .thread 0 pollinSet ⟨[slowPayload], 0⟩, .thread 0 pollinSet ⟨[], 0⟩,
    .thread 0 pollinSet ⟨[⟨.disconnect 0, []⟩], 0⟩]

theorem session_module_accepted :
    (mqttModule ⟨"up", "down", 1883⟩ (fun _ => 0) 128).Reachable (fun _ _ => True)
      (moduleView (sampleSession.run sampleSession.start acceptedEvents)) :=
  session_module (Machine.reachable_run acceptedEvents (Machine.admits_true acceptedEvents _))

/-! ## The connection -/

def Connects (o : SessionOutput) : Prop := o = .reported (.connack 0)

def Disconnects (o : SessionOutput) : Prop := ∃ result, o = .reported (.disconnect result)

/-- A connection was accepted and its end was not reported since. -/
def Accepted (log : List SessionOutput) : Prop := Pending Connects Disconnects log

/-- The handler sets the flag for an accepted connection, and clears it for an end. -/
def flagAfter (connected : Bool) : MqttEvt → Bool
  | .connack result => if result = 0 then true else connected
  | .disconnect _ => false
  | _ => connected

theorem mqttEvtHandler_connected (answers : List Answer) (c : Client) (evt : MqttEvt) :
    (mqttEvtHandler config stream answers c evt).1.connected = flagAfter c.connected evt := by
  cases evt with
  | connack result =>
    simp only [mqttEvtHandler, flagAfter]
    by_cases accepted : result = 0 <;> simp [accepted]
  | publish payloadLen =>
    have same : (publishGetPayload stream payloadLen answers c).client.connected = c.connected := by
      by_cases fits : payloadLen ≤ c.payloadBuf.length
      · rw [publishGetPayload_fits stream c payloadLen answers fits]
        exact (readLoop_filled stream answers 0 c fits).connected
      · rw [publishGetPayload_tooLong stream c payloadLen answers (Nat.not_le.mp fits)]
    simp only [mqttEvtHandler, flagAfter]
    split
    · exact same
    · split <;> exact same
  | disconnect | puback | suback | other => rfl

/-- Only what is reported matters. -/
@[simp] theorem accepted_append_called (log : List SessionOutput) (call : Call) :
    Accepted (log ++ [.called call]) ↔ Accepted log := by
  simp [Accepted, Connects, Disconnects]

@[simp] theorem accepted_append_module (log : List SessionOutput) (outs : List Output) :
    Accepted (log ++ outs.map .module) ↔ Accepted log := by
  refine pending_append_silent fun x member => ?_
  obtain ⟨o, _, rfl⟩ := List.mem_map.mp member
  exact ⟨by simp [Connects], by simp [Disconnects]⟩

@[simp] theorem accepted_append_again (log : List SessionOutput) (polls : List (Int × Revents)) :
    Accepted (log ++ polls.map fun poll => .called (.polledAgain poll.1 poll.2)) ↔ Accepted log := by
  refine pending_append_silent fun x member => ?_
  obtain ⟨poll, _, rfl⟩ := List.mem_map.mp member
  exact ⟨by simp [Connects], by simp [Disconnects]⟩

@[simp] theorem accepted_append_reported (log : List SessionOutput) (evt : MqttEvt) :
    Accepted (log ++ [.reported evt]) ↔
      evt = .connack 0 ∨ Accepted log ∧ ∀ result, evt ≠ .disconnect result := by
  simp [Accepted, Connects, Disconnects]

/-- A report changes the flag as it changes the connection. -/
theorem handleReport_accepted (s : SessionState) (report : Report) (log : List SessionOutput)
    (same : s.client.connected = true ↔ Accepted log) :
    (handleReport config stream s report).1.client.connected = true ↔
      Accepted (log ++ (handleReport config stream s report).2) := by
  simp only [handleReport]
  rw [mqttEvtHandler_connected, ← List.append_assoc, accepted_append_module, ← List.singleton_append,
    ← List.append_assoc, accepted_append_again, accepted_append_reported, ← same]
  cases report.evt with
  | connack result => by_cases accepted : result = 0 <;> simp [flagAfter, accepted]
  | disconnect | publish | puback | suback | other => simp [flagAfter]

theorem handleReports_accepted (s : SessionState) (reports : List Report) (log : List SessionOutput)
    (same : s.client.connected = true ↔ Accepted log) :
    (handleReports config stream s reports).1.client.connected = true ↔
      Accepted (log ++ (handleReports config stream s reports).2) := by
  induction reports generalizing s log with
  | nil => simpa [handleReports] using same
  | cons report reports ih =>
    simp only [handleReports]
    rw [← List.append_assoc]
    exact ih _ _ (handleReport_accepted s report log same)

theorem callLibrary_accepted (s : SessionState) (call : LibraryCall) (made : Int → Call)
    (place : SessionState → ThreadPlace) (log : List SessionOutput)
    (same : s.client.connected = true ↔ Accepted log) :
    (callLibrary config stream s call made place).1.client.connected = true ↔
      Accepted (log ++ (callLibrary config stream s call made place).2) := by
  simp only [callLibrary]
  rw [← List.append_assoc, accepted_append_called]
  exact handleReports_accepted s call.reports log same

variable (config stream) in
/-- The flag of a session without a report is down, as no connection was accepted. -/
theorem start_accepted (bufferSize : Nat) :
    (session config stream bufferSize).start.state.client.connected = true ↔
      Accepted (session config stream bufferSize).start.log :=
  iff_of_false (by simp [Machine.start, session, mqttModule]) (not_pending_nil _ _)

variable (config stream) in
theorem next_accepted (bufferSize : Nat) {c : SessionConfig} (event : SessionEvent)
    (same : c.state.client.connected = true ↔ Accepted c.log) :
    ((session config stream bufferSize).next c event).state.client.connected = true ↔
      Accepted ((session config stream bufferSize).next c event).log := by
  cases event with
  | main =>
    simpa only [Machine.next, session, sessionStep, mainThreadStep_client, List.append_nil] using same
  | publish rand data call =>
    have before := same.trans
      (accepted_append_module c.log [.published (mqttDataPublish config rand data)]).symm
    have after : (handleReports config stream c.state call.reports).1.client.connected = true ↔ _ :=
      handleReports_accepted c.state call.reports _ before
    rwa [List.append_assoc] at after
  | thread poll revents call =>
    simp only [Machine.next, session, sessionStep, mqttThreadStep]
    split
    · simpa using same
    · simpa using same
    · exact callLibrary_accepted c.state call _ _ c.log same
    · split <;> simpa using same
    · exact callLibrary_accepted c.state call _ _ c.log same
    · exact callLibrary_accepted c.state call _ _ c.log same
    · simpa using same
    · exact callLibrary_accepted c.state call _ _ c.log same

/-- `mqtt_connected` tells whether the last thing that was reported of the connection is that it was
accepted. -/
theorem connected_iff {bufferSize : Nat} {ok : SessionConfig → SessionEvent → Prop} {c : SessionConfig}
    (reach : (session config stream bufferSize).Reachable ok c) :
    c.state.client.connected = true ↔ Accepted c.log := by
  refine reach.invariant (fun c => c.state.client.connected = true ↔ Accepted c.log) ?_ ?_
  · exact start_accepted config stream bufferSize
  · intro c event _ _ same
    exact next_accepted config stream bufferSize event same

/-- The flag of the session is up before it fails. -/
theorem connected_iff_accepted :
    (sampleSession.run sampleSession.start acceptedEvents).state.client.connected = true ∧
      Accepted (sampleSession.run sampleSession.start acceptedEvents).log := by
  have up : (sampleSession.run sampleSession.start acceptedEvents).state.client.connected = true := by
    decide +kernel
  exact ⟨up, (connected_iff (Machine.reachable_run acceptedEvents (Machine.admits_true acceptedEvents _))).mp up⟩

/-! ## What the library promises -/

/-- Neither an accepted connection nor a payload. -/
def Report.idle (r : Report) : Bool :=
  match r.evt with
  | .connack result => result != 0
  | .publish _ => false
  | _ => true

/-- Connections are accepted and payloads come while `mqtt_input` is called, and `mqtt_disconnect` reports
the end of a connection that was accepted. -/
def mqttLibrary (c : SessionConfig) : SessionEvent → Prop
  | .main => True
  | .publish _ _ call => ∀ r ∈ call.reports, r.idle = true
  | .thread _ _ call => (c.state.thread ≠ .inputting → ∀ r ∈ call.reports, r.idle = true) ∧
      (c.state.thread = .disconnecting → Accepted c.log → ∃ r ∈ call.reports, ∃ result,
        r.evt = .disconnect result)

variable (config stream) in
/-- Idle reports poll nothing, and the connection can only end with them. -/
theorem handleReports_idle (s : SessionState) (reports : List Report)
    (idle : ∀ r ∈ reports, r.idle = true) :
    calls (handleReports config stream s reports).2 = [] ∧
      (handleReports config stream s reports).1.revents = s.revents ∧
      ((handleReports config stream s reports).1.client.connected = true →
        s.client.connected = true ∧ ∀ r ∈ reports, ∀ result, r.evt ≠ .disconnect result) := by
  induction reports generalizing s with
  | nil => exact ⟨rfl, rfl, fun connected => ⟨connected, by simp⟩⟩
  | cons report reports ih =>
    obtain ⟨first, others⟩ := List.forall_mem_cons.mp idle
    obtain ⟨silent, revents, flag⟩ := ih (handleReport config stream s report).1 others
    obtain ⟨quiet, same⟩ : calls (handleReport config stream s report).2 = [] ∧
        (handleReport config stream s report).1.revents = s.revents := by
      rcases report with ⟨evt, answers⟩
      cases evt with
      | publish => cases first
      | _ => exact ⟨by simp [handleReport], rfl⟩
    refine ⟨by simp only [handleReports, calls_append, quiet, silent, List.append_nil],
      revents.trans same, fun connected => ?_⟩
    obtain ⟨before, none⟩ := flag connected
    have handled : flagAfter s.client.connected report.evt = true :=
      (mqttEvtHandler_connected _ s.client report.evt).symm.trans before
    rcases report with ⟨evt, answers⟩
    cases evt with
    | connack result =>
      have failed : result ≠ 0 := by simpa [Report.idle] using first
      simp only [flagAfter, if_neg failed] at handled
      exact ⟨handled, List.forall_mem_cons.mpr ⟨by simp, none⟩⟩
    | disconnect => cases handled
    | publish => cases first
    | puback | suback | other => exact ⟨handled, List.forall_mem_cons.mpr ⟨by simp, none⟩⟩

/-! ## What the thread says to the library -/

def LiveFine (ret : Int) : Prop := ret = 0 ∨ ret = -eagain

/-- A round up to the result of `mqtt_input`, within which the handler may poll again. -/
def reading (n ret err : Int) (revents : Revents) (polls : List (Int × Revents)) : List Call :=
  [.poll n revents, .live ret] ++ (again polls ++ [.input err])

/-- A round of the loop after which it goes on: what `poll` has set last shows no error. -/
inductive Round : List Call → Prop
  | quiet (n ret : Int) (revents : Revents) : 0 ≤ n → LiveFine ret → revents.pollin = false →
      revents.pollerr = false → revents.pollnval = false →
      Round [.poll n revents, .live ret, .tested revents]
  | read (n ret : Int) (revents tested : Revents) (polls : List (Int × Revents)) : 0 ≤ n → LiveFine ret →
      revents.pollin = true → tested = setLast revents polls →
      tested.pollerr = false → tested.pollnval = false →
      Round (reading n ret 0 revents polls ++ [.tested tested])

/-- The part of a round that is behind the thread. -/
inductive Begun : List Call → Prop
  | none : Begun []
  | polled (n : Int) (revents : Revents) : 0 ≤ n → Begun [.poll n revents]
  | lived (n ret : Int) (revents : Revents) : 0 ≤ n → LiveFine ret → Begun [.poll n revents, .live ret]
  | read (n ret : Int) (revents : Revents) (polls : List (Int × Revents)) : 0 ≤ n → LiveFine ret →
      revents.pollin = true → Begun (reading n ret 0 revents polls)

/-- A round that ends the loop: with a call that failed, or with an error that `poll` has set last. -/
inductive Broken : List Call → Prop
  | poll (n : Int) (revents : Revents) : n < 0 → Broken [.poll n revents]
  | live (n ret : Int) (revents : Revents) : 0 ≤ n → ¬LiveFine ret → Broken [.poll n revents, .live ret]
  | input (n ret err : Int) (revents : Revents) (polls : List (Int × Revents)) : 0 ≤ n → LiveFine ret →
      revents.pollin = true → err ≠ 0 → Broken (reading n ret err revents polls)
  | error (n ret : Int) (revents : Revents) : 0 ≤ n → LiveFine ret → revents.pollin = false →
      revents.pollerr = true ∨ revents.pollnval = true → Broken [.poll n revents, .live ret, .tested revents]
  | errorRead (n ret : Int) (revents tested : Revents) (polls : List (Int × Revents)) : 0 ≤ n →
      LiveFine ret → revents.pollin = true → tested = setLast revents polls →
      tested.pollerr = true ∨ tested.pollnval = true →
      Broken (reading n ret 0 revents polls ++ [.tested tested])

/-- A connection, some rounds, and calls with the property. -/
def Talk (last : List Call → Prop) (calls : List Call) : Prop :=
  ∃ (rounds : List (List Call)) (tail : List Call), (∀ round ∈ rounds, Round round) ∧ last tail ∧
    calls = .connect 0 :: (rounds.flatten ++ tail)

/-- The calls that `mqtt_thread` makes. -/
inductive Conversation : List Call → Prop
  | none : Conversation []
  | refused (err : Int) : err ≠ 0 → Conversation [.connect err]
  | running (calls : List Call) : Talk Begun calls → Conversation calls
  | left (calls : List Call) : Talk Broken calls → Conversation calls
  | closed (calls : List Call) (err : Int) : Talk Broken calls → Conversation (calls ++ [.disconnect err])

theorem Talk.append {last last' : List Call → Prop} {calls more : List Call} (talk : Talk last calls)
    (next : ∀ tail, last tail → last' (tail ++ more)) : Talk last' (calls ++ more) := by
  obtain ⟨rounds, tail, sound, holds, rfl⟩ := talk
  exact ⟨rounds, tail ++ more, sound, next tail holds, by simp⟩

theorem Talk.mono {last last' : List Call → Prop} {calls : List Call} (talk : Talk last calls)
    (next : ∀ tail, last tail → last' tail) : Talk last' calls := by
  obtain ⟨rounds, tail, sound, holds, rfl⟩ := talk
  exact ⟨rounds, tail, sound, next tail holds, rfl⟩

/-- The last round is one of the rounds. -/
theorem Talk.round {calls : List Call} (talk : Talk Round calls) : Talk (· = []) calls := by
  obtain ⟨rounds, tail, sound, holds, rfl⟩ := talk
  refine ⟨rounds ++ [tail], [], ?_, rfl, by simp⟩
  intro round member
  rcases List.mem_append.mp member with before | here
  · exact sound round before
  · rwa [List.mem_singleton.mp here]

/-- Where the thread stands after its calls. -/
def Stands (s : SessionState) (calls : List Call) : Prop :=
  match s.thread with
  | .notStarted | .connecting => calls = []
  | .polling => Talk (· = []) calls
  | .living => Talk (fun tail => ∃ n, 0 ≤ n ∧ tail = [.poll n s.revents]) calls
  | .inputting => Talk (fun tail => ∃ n ret, 0 ≤ n ∧ LiveFine ret ∧ s.revents.pollin = true ∧
      tail = [.poll n s.revents, .live ret]) calls
  | .testing => Talk (fun tail => ∃ n ret revents, 0 ≤ n ∧ LiveFine ret ∧
      (revents.pollin = false ∧ s.revents = revents ∧ tail = [.poll n revents, .live ret] ∨
        revents.pollin = true ∧ ∃ polls, s.revents = setLast revents polls ∧
          tail = reading n ret 0 revents polls)) calls
  | .disconnecting => Talk Broken calls
  | .ended => (∃ err ≠ 0, calls = [.connect err]) ∨
      ∃ before err, Talk Broken before ∧ calls = before ++ [.disconnect err]

theorem Stands.conversation {s : SessionState} {calls : List Call} (stands : Stands s calls) :
    Conversation calls := by
  unfold Stands at stands
  split at stands
  · rw [stands]
    exact .none
  · rw [stands]
    exact .none
  · refine .running calls (stands.mono ?_)
    rintro tail rfl
    exact .none
  · refine .running calls (stands.mono ?_)
    rintro tail ⟨n, fine, rfl⟩
    exact .polled n _ fine
  · refine .running calls (stands.mono ?_)
    rintro tail ⟨n, ret, fine, live, _, rfl⟩
    exact .lived n ret _ fine live
  · refine .running calls (stands.mono ?_)
    rintro tail ⟨n, ret, revents, fine, live, ⟨_, _, rfl⟩ | ⟨readable, polls, _, rfl⟩⟩
    · exact .lived n ret _ fine live
    · exact .read n ret _ polls fine live readable
  · exact .left calls stands
  · rcases stands with ⟨err, failed, rfl⟩ | ⟨before, err, talk, rfl⟩
    · exact .refused err failed
    · exact .closed before err talk

/-- Only the place and what `poll` has set count. -/
theorem Stands.congr {s s' : SessionState} {calls : List Call} (stands : Stands s calls)
    (place : s'.thread = s.thread) (revents : s'.revents = s.revents) : Stands s' calls := by
  unfold Stands at stands ⊢
  rwa [place, revents]

theorem callLibrary_calls (s : SessionState) (call : LibraryCall) (made : Int → Call)
    (place : SessionState → ThreadPlace) {polls : List (Int × Revents)}
    (polled : calls (handleReports config stream s call.reports).2 = again polls) :
    calls (callLibrary config stream s call made place).2 = again polls ++ [made call.ret] := by
  simp only [callLibrary, calls_append, polled]
  rfl

/-- A call without a payload is seen alone. -/
theorem callLibrary_idle (s : SessionState) (call : LibraryCall) (made : Int → Call)
    (place : SessionState → ThreadPlace) (idle : ∀ r ∈ call.reports, r.idle = true) :
    calls (callLibrary config stream s call made place).2 = [made call.ret] := by
  have none : calls (handleReports config stream s call.reports).2 = again [] :=
    (handleReports_idle config stream s call.reports idle).1
  exact callLibrary_calls s call made place none

section step

variable {s : SessionState} {said : List Call} (stands : Stands s said) {poll : Int} {revents : Revents}
  {call : LibraryCall}

include stands

theorem connecting_stands (place : s.thread = .connecting) (idle : ∀ r ∈ call.reports, r.idle = true) :
    Stands (mqttThreadStep config stream s poll revents call).1
      (said ++ calls (mqttThreadStep config stream s poll revents call).2) := by
  simp only [Stands, place] at stands
  simp only [mqttThreadStep, place, stands, List.nil_append, callLibrary_idle s call _ _ idle]
  by_cases refused : call.ret = 0
  · simp only [callLibrary, refused, ne_eq, not_true_eq_false, if_false, Stands]
    exact ⟨[], [], by simp, rfl, rfl⟩
  · simp only [callLibrary, ne_eq, refused, not_false_eq_true, if_true, Stands]
    exact .inl ⟨call.ret, refused, rfl⟩

theorem polling_stands (place : s.thread = .polling) :
    Stands (mqttThreadStep config stream s poll revents call).1
      (said ++ calls (mqttThreadStep config stream s poll revents call).2) := by
  simp only [Stands, place] at stands
  simp only [mqttThreadStep, place]
  by_cases failed : poll < 0
  · simp only [if_pos failed, Stands]
    apply stands.append
    rintro tail rfl
    exact .poll poll revents failed
  · simp only [if_neg failed, Stands]
    apply stands.append
    rintro tail rfl
    exact ⟨poll, Int.not_lt.mp failed, rfl⟩

theorem living_stands (place : s.thread = .living) (idle : ∀ r ∈ call.reports, r.idle = true) :
    Stands (mqttThreadStep config stream s poll revents call).1
      (said ++ calls (mqttThreadStep config stream s poll revents call).2) := by
  have same := (handleReports_idle config stream s call.reports idle).2.1
  simp only [Stands, place] at stands
  simp only [mqttThreadStep, place, callLibrary_idle s call _ _ idle]
  by_cases fine : LiveFine call.ret
  · have goes : ¬(call.ret ≠ 0 ∧ call.ret ≠ -eagain) := by
      rintro ⟨nonzero, other⟩
      exact fine.elim nonzero other
    cases readable : s.revents.pollin
    · simp only [callLibrary, if_neg goes, same, readable, Bool.false_eq_true, if_false, Stands]
      apply stands.append
      rintro tail ⟨n, sound, rfl⟩
      exact ⟨n, call.ret, s.revents, sound, fine, .inl ⟨readable, rfl, rfl⟩⟩
    · simp only [callLibrary, if_neg goes, same, readable, if_true, Stands]
      apply stands.append
      rintro tail ⟨n, sound, rfl⟩
      exact ⟨n, call.ret, sound, fine, trivial, rfl⟩
  · have breaks : call.ret ≠ 0 ∧ call.ret ≠ -eagain := not_or.mp fine
    simp only [callLibrary, if_pos breaks, Stands]
    apply stands.append
    rintro tail ⟨n, sound, rfl⟩
    exact .live n call.ret s.revents sound fine

/-- The handler may read a payload here, and poll again for it. -/
theorem inputting_stands (place : s.thread = .inputting) :
    Stands (mqttThreadStep config stream s poll revents call).1
      (said ++ calls (mqttThreadStep config stream s poll revents call).2) := by
  obtain ⟨polls, polled, last⟩ := handleReports_polls config stream s call.reports
  simp only [Stands, place] at stands
  simp only [mqttThreadStep, place, callLibrary_calls s call _ _ polled]
  by_cases failed : call.ret = 0
  · simp only [callLibrary, failed, ne_eq, not_true_eq_false, if_false, Stands]
    apply stands.append
    rintro tail ⟨n, ret, sound, fine, readable, rfl⟩
    exact ⟨n, ret, s.revents, sound, fine, .inr ⟨readable, polls, last, rfl⟩⟩
  · simp only [callLibrary, ne_eq, failed, not_false_eq_true, if_true, Stands]
    apply stands.append
    rintro tail ⟨n, ret, sound, fine, readable, rfl⟩
    exact .input n ret call.ret s.revents polls sound fine readable failed

theorem testing_stands (place : s.thread = .testing) :
    Stands (mqttThreadStep config stream s poll revents call).1
      (said ++ calls (mqttThreadStep config stream s poll revents call).2) := by
  have one : calls [.called (.tested s.revents)] = [.tested s.revents] := rfl
  simp only [Stands, place] at stands
  simp only [mqttThreadStep, place, one]
  by_cases error : (s.revents.pollerr || s.revents.pollnval) = true
  · simp only [if_pos error, Stands]
    apply stands.append
    rintro tail ⟨n, ret, revents, sound, fine, ⟨quiet, rfl, rfl⟩ | ⟨readable, polls, last, rfl⟩⟩
    · exact .error n ret _ sound fine quiet (by simpa using error)
    · exact .errorRead n ret revents _ polls sound fine readable last (by simpa using error)
  · obtain ⟨noerr, noval⟩ : s.revents.pollerr = false ∧ s.revents.pollnval = false := by
      simpa using error
    simp only [if_neg error, Stands]
    apply Talk.round
    apply stands.append
    rintro tail ⟨n, ret, revents, sound, fine, ⟨quiet, rfl, rfl⟩ | ⟨readable, polls, last, rfl⟩⟩
    · exact .quiet n ret _ sound fine quiet noerr noval
    · exact .read n ret revents _ polls sound fine readable last noerr noval

/-- A step of the thread says the next thing of the conversation. -/
theorem mqttThreadStep_stands (idle : s.thread ≠ .inputting → ∀ r ∈ call.reports, r.idle = true) :
    Stands (mqttThreadStep config stream s poll revents call).1
      (said ++ calls (mqttThreadStep config stream s poll revents call).2) := by
  cases place : s.thread with
  | notStarted | ended => simpa [mqttThreadStep, place, calls] using stands
  | connecting => exact connecting_stands stands place (idle (by simp [place]))
  | polling => exact polling_stands stands place
  | living => exact living_stands stands place (idle (by simp [place]))
  | inputting => exact inputting_stands stands place
  | testing => exact testing_stands stands place
  | disconnecting =>
    simp only [Stands, place] at stands
    simp only [mqttThreadStep, place, callLibrary_idle s call _ _ (idle (by simp [place]))]
    exact .inr ⟨said, call.ret, stands, rfl⟩

end step

/-- The thread is there as soon as `main` has started it. -/
def Unstarted (s : SessionState) : Prop := s.main = .starting ↔ s.thread = .notStarted

theorem callLibrary_main (s : SessionState) (call : LibraryCall) (made : Int → Call)
    (place : SessionState → ThreadPlace) :
    (callLibrary config stream s call made place).1.main = s.main :=
  (handleReports_frame config stream s call.reports).2

theorem mqttThreadStep_main (s : SessionState) (poll : Int) (revents : Revents) (call : LibraryCall) :
    (mqttThreadStep config stream s poll revents call).1.main = s.main := by
  unfold mqttThreadStep
  split
  · rfl
  · rfl
  · exact callLibrary_main s call _ _
  · split <;> rfl
  · exact callLibrary_main s call _ _
  · exact callLibrary_main s call _ _
  · rfl
  · exact callLibrary_main s call _ _

/-- The thread never goes back to before its start. -/
theorem mqttThreadStep_notStarted (s : SessionState) (poll : Int) (revents : Revents)
    (call : LibraryCall) : (mqttThreadStep config stream s poll revents call).1.thread = .notStarted ↔
      s.thread = .notStarted := by
  cases place : s.thread with
  | notStarted | ended => simp [mqttThreadStep, place]
  | connecting | inputting => simp [mqttThreadStep, callLibrary, place, ite_eq_iff]
  | polling => by_cases failed : poll < 0 <;> simp [mqttThreadStep, place, failed]
  | living =>
    simp only [mqttThreadStep, callLibrary, place, reduceCtorEq, iff_false]
    split
    · simp
    · split <;> simp
  | testing => simp [mqttThreadStep, place, ite_eq_iff]
  | disconnecting => simp [mqttThreadStep, callLibrary, place]

theorem sessionStep_unstarted {s : SessionState} (holds : Unstarted s) (event : SessionEvent) :
    Unstarted (sessionStep config stream s event).1 := by
  unfold Unstarted at holds ⊢
  cases event with
  | main =>
    simp only [sessionStep, mainThreadStep]
    split
    · simp
    · rename_i place
      split
      · simpa [place] using holds
      · exact holds
    · exact holds
  | publish rand data call =>
    obtain ⟨thread, main⟩ := handleReports_frame config stream s call.reports
    simp only [sessionStep]
    rw [thread, main]
    exact holds
  | thread poll revents call =>
    simp only [sessionStep]
    rw [mqttThreadStep_notStarted, mqttThreadStep_main]
    exact holds

/-- What holds of the state after what was said. -/
structure Conversing (s : SessionState) (said : List Call) : Prop where
  stands : Stands s said
  unstarted : Unstarted s

theorem start_conversing (client : Client) (revents : Revents) :
    Conversing ⟨client, revents, .notStarted, .starting⟩ [] :=
  ⟨rfl, iff_of_true rfl rfl⟩

theorem mainThreadStep_stands {s : SessionState} {said : List Call} (holds : Conversing s said) :
    Stands (mainThreadStep s) said := by
  unfold mainThreadStep
  split
  · rename_i place
    have silent := holds.stands
    unfold Stands at silent
    rwa [holds.unstarted.mp place] at silent
  · split
    · exact holds.stands.congr rfl rfl
    · exact holds.stands
  · exact holds.stands

theorem reachable_conversing {bufferSize : Nat} {c : SessionConfig}
    (reach : (session config stream bufferSize).Reachable mqttLibrary c) :
    Conversing c.state (calls c.log) := by
  apply reach.invariant (fun c => Conversing c.state (calls c.log)) (start_conversing _ _)
  intro c event _ allowed holds
  simp only [Machine.next, session, calls_append]
  refine ⟨?_, sessionStep_unstarted holds.unstarted event⟩
  cases event with
  | main =>
    rw [show calls (sessionStep config stream c.state .main).2 = [] from rfl, List.append_nil]
    exact mainThreadStep_stands holds
  | publish rand data call =>
    obtain ⟨quiet, same, _⟩ := handleReports_idle config stream c.state call.reports allowed
    have silent : calls (sessionStep config stream c.state (.publish rand data call)).2 = [] := quiet
    rw [silent, List.append_nil]
    exact holds.stands.congr (handleReports_frame config stream c.state call.reports).1 same
  | thread poll revents call => exact mqttThreadStep_stands holds.stands allowed.1

/-- The calls hold the last one that the thread makes. -/
def Finished (calls : List Call) : Prop :=
  (∃ err ≠ 0, calls = [.connect err]) ∨ ∃ before err, calls = before ++ [.disconnect err]

theorem Stands.finished {s : SessionState} {calls : List Call} (stands : Stands s calls)
    (place : s.thread = .ended) : Finished calls := by
  simp only [Stands, place] at stands
  rcases stands with refused | ⟨before, err, _, closed⟩
  · exact .inl refused
  · exact .inr ⟨before, err, closed⟩

/-- Every step between the start of the thread and its end is a call. -/
theorem mqttThreadStep_calls {s : SessionState} (started : s.thread ≠ .notStarted)
    (running : s.thread ≠ .ended) (poll : Int) (revents : Revents) (call : LibraryCall) :
    calls (mqttThreadStep config stream s poll revents call).2 ≠ [] := by
  have library : ∀ (made : Int → Call) place, calls (callLibrary config stream s call made place).2 ≠ [] := by
    intro made place
    obtain ⟨polls, polled, _⟩ := handleReports_polls config stream s call.reports
    rw [callLibrary_calls s call made place polled]
    simp
  unfold mqttThreadStep
  split
  · contradiction
  · contradiction
  · exact library _ _
  · split <;> simp [calls]
  · exact library _ _
  · exact library _ _
  · simp [calls]
  · exact library _ _

/-- Whatever the broker and the network do, the thread connects once, goes round while no call fails and
`poll` has set no error last, and then disconnects once; until then each of its steps is the next
call. -/
theorem calls_conversation {bufferSize : Nat} {c : SessionConfig}
    (reach : (session config stream bufferSize).Reachable mqttLibrary c) :
    Conversation (calls c.log) ∧
      (c.state.main ≠ .starting → ¬Finished (calls c.log) → ∀ poll revents call,
        calls (sessionStep config stream c.state (.thread poll revents call)).2 ≠ []) := by
  have kept := reachable_conversing reach
  refine ⟨kept.stands.conversation, fun started unfinished poll revents call => ?_⟩
  have there : c.state.thread ≠ .notStarted := fun place => started (kept.unstarted.mpr place)
  have running : c.state.thread ≠ .ended := fun place => unfinished (kept.stands.finished place)
  exact mqttThreadStep_calls there running poll revents call

theorem closed_admitted : sampleSession.Admits mqttLibrary sampleSession.start closedEvents := by
  refine ⟨trivial, ?_, ?_, ?_, ?_, ?_, ?_, ?_, ?_, ?_, ?_, trivial⟩
  · exact ⟨fun _ => by simp, fun place => absurd place (by decide +kernel)⟩
  · exact ⟨fun _ => by simp, fun place => absurd place (by decide +kernel)⟩
  · exact ⟨fun _ => by simp, fun place => absurd place (by decide +kernel)⟩
  · exact ⟨fun place => absurd (by decide +kernel) place, fun place => absurd place (by decide +kernel)⟩
  · exact ⟨fun _ => by simp, fun place => absurd place (by decide +kernel)⟩
  · exact ⟨fun _ => by simp, fun place => absurd place (by decide +kernel)⟩
  · exact ⟨fun _ => by simp, fun place => absurd place (by decide +kernel)⟩
  · exact ⟨fun place => absurd (by decide +kernel) place, fun place => absurd place (by decide +kernel)⟩
  · exact ⟨fun _ => by simp, fun place => absurd place (by decide +kernel)⟩
  · exact ⟨fun _ => by simp [Report.idle], fun _ _ => ⟨⟨.disconnect 0, []⟩, by simp, 0, rfl⟩⟩

theorem calls_conversation_closed :
    Conversation (calls (sampleSession.run sampleSession.start closedEvents).log) ∧
      calls (sampleSession.run sampleSession.start closedEvents).log =
        [.connect 0, .poll 1 pollinSet, .live (-11), .input 0, .tested pollinSet, .poll 1 pollinSet, .live 0,
          .polledAgain 1 pollerrSet, .input 0, .tested pollerrSet, .disconnect 0] ∧
      ∀ poll revents call, calls (sessionStep ⟨"up", "down", 1883⟩ (fun _ => 0)
        (sampleSession.run sampleSession.start acceptedEvents).state (.thread poll revents call)).2 ≠ [] := by
  have accepted := calls_conversation (Machine.reachable_run acceptedEvents closed_admitted.of_append)
  have said : calls (sampleSession.run sampleSession.start acceptedEvents).log =
      [.connect 0, .poll 1 pollinSet, .live (-11), .input 0] := by decide +kernel
  have unfinished : ¬Finished [.connect 0, .poll 1 pollinSet, .live (-11), .input 0] := by
    rintro (⟨err, _, same⟩ | ⟨before, err, same⟩)
    · simp at same
    · simpa using congrArg List.getLast? same
  refine ⟨(calls_conversation (Machine.reachable_run closedEvents closed_admitted)).1, by decide +kernel, ?_⟩
  exact accepted.2 (by decide +kernel) (said ▸ unfinished)

/-! ## The end of the thread -/

/-- The places before the loop and behind the connection. -/
def ThreadPlace.unconnected : ThreadPlace → Bool
  | .notStarted | .connecting | .ended => true
  | _ => false

/-- The flag follows the connection, and there is none before the loop and after it. -/
structure Following (c : SessionConfig) : Prop where
  flag : c.state.client.connected = true ↔ Accepted c.log
  unconnected : c.state.thread.unconnected = true → c.state.client.connected = false
  unstarted : Unstarted c.state

/-- No idle call connects. -/
theorem handleReports_unconnected (s : SessionState) (reports : List Report)
    (idle : ∀ r ∈ reports, r.idle = true) (down : s.client.connected = false) :
    (handleReports config stream s reports).1.client.connected = false := by
  apply Bool.eq_false_iff.mpr
  intro up
  rw [((handleReports_idle config stream s reports idle).2.2 up).1] at down
  cases down

/-- Behind the loop, `mqtt_disconnect` ends a connection that is left. -/
theorem mqttThreadStep_unconnected {c : SessionConfig} (holds : Following c) (poll : Int)
    (revents : Revents) (call : LibraryCall) (allowed : mqttLibrary c (.thread poll revents call))
    (behind : (mqttThreadStep config stream c.state poll revents call).1.thread.unconnected = true) :
    (mqttThreadStep config stream c.state poll revents call).1.client.connected = false := by
  unfold mqttThreadStep at behind ⊢
  split at behind
  · exact holds.unconnected behind
  · exact holds.unconnected behind
  · rename_i place
    have idle := allowed.1 (by simp [place])
    exact handleReports_unconnected c.state call.reports idle (holds.unconnected (by rw [place]; rfl))
  · split at behind <;> simp [ThreadPlace.unconnected] at behind
  · simp only [callLibrary] at behind
    split at behind
    · simp [ThreadPlace.unconnected] at behind
    · split at behind <;> simp [ThreadPlace.unconnected] at behind
  · simp only [callLibrary] at behind
    split at behind <;> simp [ThreadPlace.unconnected] at behind
  · simp only at behind
    split at behind <;> simp [ThreadPlace.unconnected] at behind
  · rename_i place
    apply Bool.eq_false_iff.mpr
    intro up
    have idle := allowed.1 (by simp [place])
    obtain ⟨connected, none⟩ := (handleReports_idle config stream c.state call.reports idle).2.2 up
    obtain ⟨r, member, result, reported⟩ := allowed.2 place (holds.flag.mp connected)
    exact none r member result reported

theorem next_following {bufferSize : Nat} {c : SessionConfig} (holds : Following c)
    (event : SessionEvent) (allowed : mqttLibrary c event) :
    Following ((session config stream bufferSize).next c event) := by
  refine ⟨next_accepted config stream bufferSize event holds.flag, ?_,
    sessionStep_unstarted holds.unstarted event⟩
  intro behind
  cases event with
  | main =>
    simp only [Machine.next, session, sessionStep] at behind ⊢
    rw [mainThreadStep_client]
    apply holds.unconnected
    unfold mainThreadStep at behind
    split at behind
    · rename_i place
      rw [holds.unstarted.mp place]
      rfl
    · split at behind <;> exact behind
    · exact behind
  | publish rand data call =>
    have place := (handleReports_frame config stream c.state call.reports).1
    refine handleReports_unconnected c.state call.reports allowed (holds.unconnected ?_)
    rwa [← place]
  | thread poll revents call => exact mqttThreadStep_unconnected holds poll revents call allowed behind

/-- Once `mqtt_thread` has ended, by a connection that was refused or by an error, there is no connection
any more: nothing connects again, and a `main` that waits for it waits for good. -/
theorem ended_for_good {bufferSize : Nat} {c d : SessionConfig}
    (reach : (session config stream bufferSize).Reachable mqttLibrary c)
    (ended : c.state.thread = .ended)
    (leads : (session config stream bufferSize).Leads mqttLibrary c d) :
    d.state.thread = .ended ∧ calls d.log = calls c.log ∧ d.state.client.connected = false ∧
      (c.state.main = .waiting → d.state.main = .waiting) := by
  have start : Following (session config stream bufferSize).start :=
    ⟨start_accepted config stream bufferSize, fun _ => rfl, iff_of_true rfl rfl⟩
  have following : Following c :=
    reach.invariant Following start fun _ event _ allowed holds => next_following holds event allowed
  have step : ∀ d event, mqttLibrary d event →
      (Following d ∧ d.state.thread = .ended ∧ calls d.log = calls c.log ∧
        (c.state.main = .waiting → d.state.main = .waiting)) →
      Following ((session config stream bufferSize).next d event) ∧
        ((session config stream bufferSize).next d event).state.thread = .ended ∧
        calls ((session config stream bufferSize).next d event).log = calls c.log ∧
        (c.state.main = .waiting →
          ((session config stream bufferSize).next d event).state.main = .waiting) := by
    rintro d event allowed ⟨holds, gone, same, waits⟩
    have down : d.state.client.connected = false := holds.unconnected (by rw [gone]; rfl)
    refine ⟨next_following holds event allowed, ?_⟩
    cases event with
    | main =>
      simp only [Machine.next, session, sessionStep, mainThreadStep, List.append_nil]
      cases place : d.state.main with
      | starting => rw [holds.unstarted.mp place] at gone; cases gone
      | waiting => simpa [down, place] using ⟨gone, same⟩
      | running =>
        refine ⟨gone, same, fun waiting => ?_⟩
        rw [waits waiting] at place
        cases place
    | publish rand data call =>
      obtain ⟨thread, main⟩ := handleReports_frame config stream d.state call.reports
      have silent : calls (sessionStep config stream d.state (.publish rand data call)).2 = [] :=
        (handleReports_idle config stream d.state call.reports allowed).1
      refine ⟨thread.trans gone, ?_, fun waiting => main.trans (waits waiting)⟩
      rw [← same]
      simpa [Machine.next, session] using silent
    | thread poll revents call =>
      simpa [Machine.next, session, sessionStep, mqttThreadStep, gone] using ⟨same, waits⟩
  obtain ⟨holds, gone, same, waits⟩ := leads.stable _ step ⟨following, ended, rfl, id⟩
  exact ⟨gone, same, holds.unconnected (by rw [gone]; rfl), waits⟩

/-- The network refuses the connection. -/
def refusedEvents : List SessionEvent := [.main, .thread 0 pollinSet ⟨[], -111⟩]

theorem refused_admitted : sampleSession.Admits mqttLibrary sampleSession.start refusedEvents :=
  ⟨trivial, ⟨fun _ => by simp, fun place => absurd place (by decide +kernel)⟩, trivial⟩

theorem ended_for_good_refused :
    (sampleSession.run sampleSession.start (refusedEvents ++ [.main])).state.main = .waiting := by
  have reach := Machine.reachable_run refusedEvents refused_admitted
  have leads : sampleSession.Leads mqttLibrary (sampleSession.run sampleSession.start refusedEvents)
      (sampleSession.run sampleSession.start (refusedEvents ++ [.main])) :=
    .single ⟨.main, trivial, Machine.run_append refusedEvents .main _⟩
  exact (ended_for_good reach (by decide +kernel) leads).2.2.2 (by decide +kernel)

end DtApp.Mqtt
