import DtApp.Coap.Thread

/-!
# Initialisation

`coap_endpoint_init` acquires an object, a socket and a thread one after the other. A call that fails
may be followed by another; the static `txrx_thread_tid` lets only one call succeed.
-/
namespace DtApp.Coap

/-- What the kernel answers during one call. -/
structure InitAnswers where
  calloc : Bool
  socket : Int
  bind : Int
  /-- A `k_tid_t`, 0 for NULL. -/
  threadCreate : Nat

/-- The static state, and what of the kernel's is in use. -/
structure InitState where
  txrxThreadTid : Nat
  -- ghost: the endpoint objects that were allocated and not released
  objects : Nat
  -- ghost: the sockets that are open
  sockets : List Int
  deriving DecidableEq

variable (resources : List CoapResource)

/-- One call; it returns an endpoint or NULL. -/
def coapEndpointInit (s : InitState) (answers : InitAnswers) : InitState × Option CoapEndpoint :=
  -- only a single endpoint is supported
  if s.txrxThreadTid ≠ 0 then (s, none)
  else if !answers.calloc then (s, none)
  else
    let s := { s with objects := s.objects + 1 }
    let sock := answers.socket
    -- none of the errors that follow releases `ep`
    if sock < 0 then (s, none)
    else
      let s := { s with sockets := sock :: s.sockets }
      if answers.bind < 0 then ({ s with sockets := s.sockets.erase sock }, none)
      else
        let s := { s with txrxThreadTid := answers.threadCreate }
        -- here the socket stays open too
        if answers.threadCreate ≤ 0 then (s, none) else (s, some ⟨sock, resources, .empty⟩)

/-- The program as far as it calls `coap_endpoint_init`, with the results of the calls. -/
def initialisation : Machine InitState InitAnswers (Option CoapEndpoint) where
  init := ⟨0, 0, []⟩
  step s answers :=
    let called := coapEndpointInit resources s answers
    (called.1, [called.2])

abbrev InitConfig := Machine.Config InitState (Option CoapEndpoint)

/-- Nothing fails in the call. -/
structure InitAnswers.Succeed (answers : InitAnswers) : Prop where
  calloc : answers.calloc = true
  socket : 0 ≤ answers.socket
  bind : 0 ≤ answers.bind
  threadCreate : answers.threadCreate ≠ 0

/-- The number of calls that returned an endpoint. -/
def successes (log : List (Option CoapEndpoint)) : Nat := log.countP Option.isSome

/-- What the calls so far have left behind is what they returned. -/
structure InitClean (c : InitConfig) : Prop where
  single : successes c.log ≤ 1
  objects : c.state.objects = successes c.log
  sockets : c.state.sockets.length = successes c.log
  /-- As long as no call has succeeded, one in which nothing fails does. -/
  retry : successes c.log = 0 → ∀ answers : InitAnswers, answers.Succeed →
    (coapEndpointInit resources c.state answers).2.isSome = true

/-! ## Calls -/

/-- What a call can do. -/
inductive InitMove (s : InitState) (answers : InitAnswers) : InitState → Option CoapEndpoint → Prop
  | refused : s.txrxThreadTid ≠ 0 → InitMove s answers s none
  | noMemory : s.txrxThreadTid = 0 → answers.calloc = false → InitMove s answers s none
  | noSocket : s.txrxThreadTid = 0 → answers.calloc = true → answers.socket < 0 →
      InitMove s answers { s with objects := s.objects + 1 } none
  | notBound : s.txrxThreadTid = 0 → answers.calloc = true → answers.bind < 0 →
      InitMove s answers { s with objects := s.objects + 1 } none
  | noThread : s.txrxThreadTid = 0 → answers.calloc = true → answers.threadCreate = 0 →
      InitMove s answers ⟨0, s.objects + 1, answers.socket :: s.sockets⟩ none
  | started (ep : CoapEndpoint) : s.txrxThreadTid = 0 → answers.Succeed →
      InitMove s answers ⟨answers.threadCreate, s.objects + 1, answers.socket :: s.sockets⟩ (some ep)

theorem coapEndpointInit_move (s : InitState) (answers : InitAnswers) :
    InitMove s answers (coapEndpointInit resources s answers).1
      (coapEndpointInit resources s answers).2 := by
  unfold coapEndpointInit
  split
  · next used => exact .refused used
  · next unused =>
    have free : s.txrxThreadTid = 0 := by simpa using unused
    split
    · next failed => exact .noMemory free (by simpa using failed)
    · next got =>
      have memory : answers.calloc = true := by simpa using got
      dsimp only
      split
      · next failed => exact .noSocket free memory failed
      · next opened =>
        split
        · next failed =>
          rw [List.erase_cons_head]
          exact .notBound free memory failed
        · next bound =>
          split
          · next failed =>
            have null : answers.threadCreate = 0 := Nat.le_zero.mp failed
            rw [null]
            exact .noThread free memory null
          · next running =>
            have running : answers.threadCreate ≠ 0 := by omega
            exact .started _ free ⟨memory, Int.not_lt.mp opened, Int.not_lt.mp bound, running⟩

theorem coapEndpointInit_succeeds {s : InitState} (free : s.txrxThreadTid = 0)
    {answers : InitAnswers} (succeed : answers.Succeed) :
    (coapEndpointInit resources s answers).2 = some ⟨answers.socket, resources, .empty⟩ := by
  obtain ⟨calloc, socket, bind, threadCreate⟩ := succeed
  simp [coapEndpointInit, free, calloc, Int.not_lt.mpr socket, Int.not_lt.mpr bind, threadCreate]

/-- What a call returns is where the machine of the endpoint starts. -/
theorem coapEndpointInit_endpoint (z : Zephyr) (app : App) {s : InitState}
    (free : s.txrxThreadTid = 0) {answers : InitAnswers} (succeed : answers.Succeed) :
    (coapEndpointInit resources s answers).2 =
      some (endpoint z app answers.socket resources).start.state.ep :=
  coapEndpointInit_succeeds resources free succeed

/-! ## Sequences of calls -/

/-- A call made before one has succeeded fails for want of memory, or does not fail. -/
def cleanCall : InitConfig → InitAnswers → Prop := fun c answers =>
  c.state.txrxThreadTid = 0 → answers.calloc = false ∨ answers.Succeed

section calls

variable {resources}

@[simp] theorem successes_append (xs ys : List (Option CoapEndpoint)) :
    successes (xs ++ ys) = successes xs + successes ys :=
  List.countP_append

@[simp] theorem successes_failed : successes [none] = 0 := rfl

@[simp] theorem successes_succeeded (ep : CoapEndpoint) : successes [some ep] = 1 := rfl

/-- The guard: the thread is there as soon as a call has succeeded. -/
structure Guarded (c : InitConfig) : Prop where
  free : c.state.txrxThreadTid = 0 → successes c.log = 0
  used : c.state.txrxThreadTid ≠ 0 → successes c.log = 1

theorem next_guarded {c : InitConfig} (guarded : Guarded c) (answers : InitAnswers) :
    Guarded ((initialisation resources).next c answers) := by
  have move := coapEndpointInit_move resources c.state answers
  simp only [Machine.next, initialisation]
  generalize (coapEndpointInit resources c.state answers).1 = s at move ⊢
  generalize (coapEndpointInit resources c.state answers).2 = ret at move ⊢
  cases move with
  | started ep free succeed =>
    exact ⟨fun null => absurd null succeed.threadCreate, fun _ => by simp [guarded.free free]⟩
  | noThread free => exact ⟨fun _ => by simpa using guarded.free free, fun used => absurd rfl used⟩
  | refused | noMemory | noSocket | notBound =>
    exact ⟨fun free => by simpa using guarded.free free, fun used => by simpa using guarded.used used⟩

/-- A call that gets its memory and fails is not clean. -/
theorem not_cleanCall {c : InitConfig} {answers : InitAnswers} (free : c.state.txrxThreadTid = 0)
    (memory : answers.calloc = true) (fails : ¬answers.Succeed) : ¬cleanCall c answers := by
  intro clean
  rcases clean free with short | succeed
  · rw [memory] at short
    cases short
  · exact fails succeed

/-- One more call leaves an object behind for which there is no success, unless it is clean. -/
theorem next_objects (resources : List CoapResource) (c : InitConfig) (answers : InitAnswers) :
    let c' := (initialisation resources).next c answers
    (cleanCall c answers ∧ c'.state.objects + successes c.log = c.state.objects + successes c'.log ∧
      c'.state.sockets.length + successes c.log = c.state.sockets.length + successes c'.log) ∨
    (¬cleanCall c answers ∧
      c'.state.objects + successes c.log = c.state.objects + successes c'.log + 1) := by
  have move := coapEndpointInit_move resources c.state answers
  simp only [Machine.next, initialisation]
  generalize (coapEndpointInit resources c.state answers).1 = s at move ⊢
  generalize (coapEndpointInit resources c.state answers).2 = ret at move ⊢
  cases move with
  | refused used => exact .inl ⟨fun free => absurd free used, by simp, by simp⟩
  | noMemory _ failed => exact .inl ⟨fun _ => .inl failed, by simp, by simp⟩
  | started ep _ succeed => exact .inl ⟨fun _ => .inr succeed, by simp; omega, by simp; omega⟩
  | noSocket free memory failed =>
    have fails : ¬answers.Succeed := fun succeed => absurd succeed.socket (Int.not_le.mpr failed)
    exact .inr ⟨not_cleanCall free memory fails, by simp; omega⟩
  | notBound free memory failed =>
    have fails : ¬answers.Succeed := fun succeed => absurd succeed.bind (Int.not_le.mpr failed)
    exact .inr ⟨not_cleanCall free memory fails, by simp; omega⟩
  | noThread free memory failed =>
    have fails : ¬answers.Succeed := fun succeed => succeed.threadCreate failed
    exact .inr ⟨not_cleanCall free memory fails, by simp; omega⟩

theorem run_guarded (resources : List CoapResource) (calls : List InitAnswers) :
    Guarded ((initialisation resources).run (initialisation resources).start calls) := by
  refine (initialisation resources).run_invariant (fun _ c => Guarded c) ?_ ?_ calls
  · exact ⟨fun _ => rfl, fun used => absurd rfl used⟩
  · intro calls answers guarded
    exact next_guarded guarded answers

/-- An object that was left behind stays, so the calls were clean when there is none in the end. -/
theorem run_objects (calls : List InitAnswers) (c : InitConfig)
    (below : successes c.log ≤ c.state.objects)
    (equal : ((initialisation resources).run c calls).state.objects =
      successes ((initialisation resources).run c calls).log) :
    c.state.objects = successes c.log ∧ (initialisation resources).Admits cleanCall c calls := by
  induction calls generalizing c with
  | nil => exact ⟨equal, trivial⟩
  | cons answers calls ih =>
    rcases next_objects resources c answers with ⟨clean, objects, _⟩ | ⟨_, objects⟩
    · obtain ⟨same, admits⟩ := ih ((initialisation resources).next c answers) (by omega) equal
      exact ⟨by omega, clean, admits⟩
    · obtain ⟨same, _⟩ := ih ((initialisation resources).next c answers) (by omega) equal
      omega

/-- Clean calls leave nothing behind. -/
theorem run_clean {calls : List InitAnswers}
    (admits : (initialisation resources).Admits cleanCall (initialisation resources).start calls) :
    let c := (initialisation resources).run (initialisation resources).start calls
    c.state.objects = successes c.log ∧ c.state.sockets.length = successes c.log := by
  refine (Machine.reachable_run calls admits).invariant
    (fun c => c.state.objects = successes c.log ∧ c.state.sockets.length = successes c.log) ⟨rfl, rfl⟩ ?_
  intro c answers _ admissible ⟨objects, sockets⟩
  rcases next_objects resources c answers with ⟨_, objects', sockets'⟩ | ⟨unclean, _⟩
  · constructor <;> omega
  · exact absurd admissible unclean

end calls

/-- After every sequence of calls nothing is left behind exactly when each call before the first
success failed for want of memory or not at all. -/
theorem initClean_iff (calls : List InitAnswers) :
    InitClean resources ((initialisation resources).run (initialisation resources).start calls) ↔
      (initialisation resources).Admits cleanCall (initialisation resources).start calls := by
  constructor
  · intro clean
    exact (run_objects calls (initialisation resources).start (Nat.le_refl 0) clean.objects).2
  · intro admits
    have guarded := run_guarded resources calls
    obtain ⟨objects, sockets⟩ := run_clean admits
    generalize (initialisation resources).run (initialisation resources).start calls = c
      at guarded objects sockets ⊢
    refine ⟨?_, objects, sockets, fun none answers succeed => ?_⟩
    · by_cases free : c.state.txrxThreadTid = 0
      · rw [guarded.free free]
        exact Nat.zero_le 1
      · exact Nat.le_of_eq (guarded.used free)
    · have free : c.state.txrxThreadTid = 0 := by
        by_contra used
        rw [guarded.used used] at none
        cases none
      rw [coapEndpointInit_succeeds resources free succeed]
      rfl

/-- A failure of `socket`, of `bind` and of `k_thread_create`. -/
theorem failed_init_leaks :
    ¬InitClean [] ((initialisation []).run (initialisation []).start [⟨true, -1, 0, 0⟩]) ∧
    ¬InitClean [] ((initialisation []).run (initialisation []).start [⟨true, 3, -1, 0⟩]) ∧
    ¬InitClean [] ((initialisation []).run (initialisation []).start [⟨true, 3, 0, 0⟩]) := by
  refine ⟨fun clean => ?_, fun clean => ?_, fun clean => ?_⟩
  · exact absurd clean.objects (by decide)
  · exact absurd clean.objects (by decide)
  · exact absurd clean.sockets (by decide)

end DtApp.Coap
