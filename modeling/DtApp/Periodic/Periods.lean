import DtApp.Periodic.Samples

/-!
# Periods

An expiry of the period is not lost when it comes while no call is between the start of its upload
and the clearing of `transmit`: the flag stays set until the next call finds it. Within that window
the flag is set already, and cleared in the end with the expiry that came late.
-/
namespace DtApp.Periodic

/-- The window from the start of an upload to the clearing of `transmit`. -/
def busy (s : AppState) : Bool :=
  match s.place with
  | .uploading | .finishing | .clearing => true
  -- here an upload was made if `transmit_finished` says so
  | .sleeping | .testing => s.transmitFinished
  | _ => false

/-- No period passes within the window. -/
def timely (app : Application) (psm : PsmResult) : AppConfig → Event → Prop := fun c event =>
  event = .tick → periodPasses (tauInMinutes app psm) c.state = true → busy c.state = false

/-- No period has passed since the upload of the call began. -/
def NoExpirySince (call : Nat) (log : List Output) : Prop :=
  ∀ before after, log = before ++ .uploadStarted call :: after → .ticked true ∉ after

/-- Every expiry leads to an upload. -/
structure KeepsPeriods (app : Application) (psm : PsmResult) (ok : AppConfig → Event → Prop) : Prop where
  /-- When `transmit` is cleared, no expiry has come since the upload of the call began. -/
  cleared : ∀ c, (application app psm).Reachable ok c → ∀ event, ok c event →
    c.state.transmit = true → ((application app psm).next c event).state.transmit = false →
    NoExpirySince c.state.calls c.log
  /-- After an expiry an upload starts, or the loop has ended, within five steps of the main thread. -/
  followed : ∀ c, (application app psm).Reachable ok c → ok c .tick →
    .ticked true ∈ ((application app psm).step c.state .tick).2 → ∀ es, 5 ≤ es.countP Event.ofMain →
    let d := (application app psm).next c .tick
    let later := (application app psm).run d es
    (∃ call, .uploadStarted call ∈ later.log.drop d.log.length) ∨ later.state.place = .ended

/-! ## Clearing -/

theorem NoExpirySince.append {call : Nat} {log outs : List Output} (none : NoExpirySince call log)
    (quiet : .ticked true ∉ outs) : NoExpirySince call (log ++ outs) := by
  intro before after split member
  rcases List.append_eq_append_iff.mp split with ⟨rest, _, outs'⟩ | ⟨rest, old, new⟩
  · -- the upload began with these outputs
    refine quiet ?_
    rw [outs']
    exact List.mem_append_right _ (List.mem_cons_of_mem _ member)
  · cases rest with
    | nil =>
      refine quiet ?_
      rw [← List.nil_append outs, ← new]
      exact List.mem_cons_of_mem _ member
    | cons first rest =>
      rw [List.cons_append] at new
      cases new
      rcases List.mem_append.mp member with earlier | later
      · exact none before rest old earlier
      · exact quiet later

variable {app : Application} {psm : PsmResult} {c : AppConfig}

theorem NoExpirySince.of_unstarted {call : Nat} {log : List Output}
    (unstarted : log.count (.uploadStarted call) = 0) : NoExpirySince call log := by
  intro before after split
  rw [split, List.count_append, List.count_cons_self] at unstarted
  omega

/-- The window is entered by a new call. -/
theorem MainMove.busy {s s' : AppState} {outs : List Output} (move : MainMove s s' outs)
    (inside : busy s' = true) :
    s'.calls = s.calls + 1 ∨ Periodic.busy s = true ∧ s'.calls = s.calls := by
  cases move with
  | upload => exact .inl rfl
  | skip => exact .inl rfl
  | uploaded at_ | finish at_ => exact .inr ⟨by simp [Periodic.busy, at_], rfl⟩
  | wake at_ => exact .inr ⟨by simpa [Periodic.busy, at_] using inside, rfl⟩
  | both at_ finished => exact .inr ⟨by simp [Periodic.busy, at_, finished], rfl⟩
  | stay at_ => exact .inr ⟨inside, rfl⟩
  | _ => simp [Periodic.busy] at inside

theorem MainMove.untimed {s s' : AppState} {outs : List Output} (move : MainMove s s' outs) :
    .ticked true ∉ outs := by
  cases move <;> simp

/-- Only a tick on which a period passes is an expiry, and it stops nothing. -/
theorem ticked_iff (app : Application) (actualTau : Int) (s : AppState) (event : Event) :
    .ticked true ∈ (step app actualTau s event).2 ↔ s.halted = false ∧ event = .tick ∧
      divisor actualTau ≠ 0 ∧ periodPasses actualTau s = true := by
  cases stopped : s.halted with
  | true => simp [step, stopped]
  | false =>
    cases event with
    | main ret => simp [step, stopped, (mainStep_move app s ret).untimed]
    | tick =>
      simp only [step, stopped, appTimerHandler, Bool.false_eq_true, if_false, true_and]
      by_cases zero : divisor actualTau = 0
      · simp [zero]
      · by_cases passes : periodPasses actualTau s = true
        · simp [zero, passes]
        · simp [zero, passes]

/-- Within the window of a timely run no expiry has come since the upload began. -/
theorem reachable_noExpiry (reach : (application app psm).Reachable (timely app psm) c) :
    busy c.state = true → NoExpirySince c.state.calls c.log := by
  refine reach.invariant (fun c => busy c.state = true → NoExpirySince c.state.calls c.log) ?_ ?_
  · intro _
    exact .of_unstarted rfl
  · intro c event reach admissible before inside
    have numbered := reachable_numbered reach
    have expiry := (ticked_iff app (tauInMinutes app psm) c.state event).mp
    have move := step_move app (tauInMinutes app psm) c.state event
    simp only [Machine.next, application] at inside ⊢
    generalize (step app (tauInMinutes app psm) c.state event).1 = s at move inside ⊢
    generalize (step app (tauInMinutes app psm) c.state event).2 = outs at move expiry ⊢
    cases move with
    | halted => exact (before inside).append (by simp)
    | tick minutes transmit halted o raises timer =>
      -- the interrupt leaves the thread where it is
      have here : busy c.state = true := inside
      refine (before here).append fun member => ?_
      obtain ⟨_, tick, _, passes⟩ := expiry member
      rw [admissible tick passes] at here
      cases here
    | main move =>
      rcases move.busy inside with new | ⟨here, same⟩
      · rw [new]
        exact (NoExpirySince.of_unstarted (numbered.later _ (Nat.lt_succ_self _))).append move.untimed
      · rw [same]
        exact (before here).append move.untimed

/-- `transmit` is cleared within the window. -/
theorem Move.clears {s s' : AppState} {outs : List Output} (move : Move s s' outs)
    (set : s.transmit = true) (unset : s'.transmit = false) : busy s = true := by
  have stays : s.transmit ≠ false := by simp [set]
  cases move with
  | halted => exact absurd unset stays
  | tick minutes transmit halted o raises timer =>
    rw [raises set] at unset
    cases unset
  | main move =>
    cases move with
    | clear at_ => simp [busy, at_]
    | _ => exact absurd unset stays

/-! ## The next upload -/

/-- The flag is set, and the thread will find it. -/
structure Pending (s : AppState) : Prop where
  set : s.transmit = true
  outside : busy s = false
  runs : s.halted = false

/-- How many steps of the main thread lead to the first test of the next call. -/
def stepsLeft : Place → Nat
  | .entry => 1
  | .pausing => 2
  | .returned _ => 3
  | .counting | .testing => 4
  | .resetting | .sleeping => 5
  | _ => 0

theorem stepsLeft_le (place : Place) : stepsLeft place ≤ 5 := by
  cases place <;> simp [stepsLeft]

theorem Pending.main {s s' : AppState} {outs : List Output} (pending : Pending s)
    (move : MainMove s s' outs) :
    (∃ call, .uploadStarted call ∈ outs) ∨ s'.place = .ended ∨
      Pending s' ∧ stepsLeft s'.place < stepsLeft s.place := by
  obtain ⟨set, outside, runs⟩ := pending
  cases move with
  | upload => exact .inl ⟨s.calls + 1, by simp⟩
  | skip _ unset | unset _ unset =>
    rw [set] at unset
    cases unset
  | uploaded at_ | failed _ at_ | finish at_ | clear at_ => simp [busy, at_] at outside
  | wake at_ =>
    have unfinished : s.transmitFinished = false := by simpa [busy, at_] using outside
    exact .inr (.inr ⟨⟨set, by simp [busy, unfinished], runs⟩, by simp [stepsLeft, at_]⟩)
  | both at_ finished => simp [busy, at_, finished] at outside
  | unfinished at_ | reset at_ | last at_ | count at_ | pause _ at_ | again _ at_ | resume at_ =>
    exact .inr (.inr ⟨⟨set, rfl, runs⟩, by simp [stepsLeft, at_]⟩)
  | leave => exact .inr (.inl rfl)
  | stay at_ => exact .inr (.inl at_)

theorem Pending.tick {actualTau : Int} {s : AppState} (pending : Pending s)
    (divides : divisor actualTau ≠ 0) :
    Pending (appTimerHandler actualTau s).1 ∧ (appTimerHandler actualTau s).1.place = s.place := by
  obtain ⟨set, outside, runs⟩ := pending
  simp only [appTimerHandler, if_neg divides]
  split
  · exact ⟨⟨rfl, outside, runs⟩, rfl⟩
  · exact ⟨⟨set, outside, runs⟩, rfl⟩

/-- An upload has started since the log had the given length, or the loop has ended. -/
def Followed (base : Nat) (c : AppConfig) : Prop :=
  (∃ call, .uploadStarted call ∈ c.log.drop base) ∨ c.state.place = .ended

theorem Followed.run {base : Nat} (es : List Event) {c : AppConfig} (followed : Followed base c) :
    Followed base ((application app psm).run c es) := by
  induction es generalizing c with
  | nil => exact followed
  | cons event es ih =>
    apply ih
    rcases followed with ⟨call, member⟩ | at_
    · refine .inl ⟨call, ?_⟩
      simp only [Machine.next, List.drop_append]
      exact List.mem_append_left _ member
    · exact .inr ((step_move app (tauInMinutes app psm) c.state event).stays_ended at_)

/-- The run rule for a pending upload: each step of the main thread leads nearer to it. -/
theorem Pending.followed (divides : divisor (tauInMinutes app psm) ≠ 0) {base : Nat}
    (es : List Event) {c : AppConfig} (pending : Pending c.state) (room : base ≤ c.log.length)
    (enough : stepsLeft c.state.place ≤ es.countP Event.ofMain) :
    Followed base ((application app psm).run c es) := by
  induction es generalizing c with
  | nil =>
    have outside := pending.outside
    cases at_ : c.state.place with
    | ended => exact .inr at_
    | uploading | finishing | clearing => simp [busy, at_] at outside
    | _ => simp [at_, stepsLeft] at enough
  | cons event es ih =>
    have longer : base ≤ ((application app psm).next c event).log.length := by
      simp only [Machine.next, List.length_append]
      omega
    cases event with
    | tick =>
      obtain ⟨still, same⟩ := pending.tick divides
      have stepped : ((application app psm).next c .tick).state =
          (appTimerHandler (tauInMinutes app psm) c.state).1 := by
        simp [Machine.next, application, step, pending.runs]
      have counted : (Event.tick :: es).countP Event.ofMain = es.countP Event.ofMain := by
        simp [Event.ofMain]
      apply ih _ longer
      · rw [stepped, same]
        omega
      · rw [stepped]
        exact still
    | main ret =>
      have stepped : (application app psm).next c (.main ret) =
          ⟨(mainStep app c.state ret).1, c.log ++ (mainStep app c.state ret).2⟩ := by
        simp [Machine.next, application, step, pending.runs]
      have counted : (Event.main ret :: es).countP Event.ofMain = es.countP Event.ofMain + 1 :=
        List.countP_cons_of_pos rfl
      change Followed base ((application app psm).run ((application app psm).next c (.main ret)) es)
      rcases pending.main (mainStep_move app c.state ret) with ⟨call, starts⟩ | ended | ⟨still, nearer⟩
      · refine Followed.run es (.inl ⟨call, ?_⟩)
        rw [stepped, List.drop_append_of_le_length room]
        exact List.mem_append_right _ starts
      · refine Followed.run es (.inr ?_)
        rw [stepped]
        exact ended
      · have left : stepsLeft (mainStep app c.state ret).1.place ≤ es.countP Event.ofMain := by omega
        rw [stepped] at longer ⊢
        exact ih still longer left

/-- In a timely run every expiry leads to an upload, in both applications. -/
theorem keeps_periods (app : Application) (psm : PsmResult) : KeepsPeriods app psm (timely app psm) := by
  constructor
  · intro c reach event _ set unset
    have inside := (step_move app (tauInMinutes app psm) c.state event).clears set unset
    exact reachable_noExpiry reach inside
  · intro c _ admissible expired es enough
    obtain ⟨runs, _, divides, passes⟩ :=
      (ticked_iff app (tauInMinutes app psm) c.state .tick).mp expired
    have outside := admissible rfl passes
    have stepped : ((application app psm).next c .tick).state =
        { c.state with minutes := (c.state.minutes + 1) % 2 ^ 32, transmit := true } := by
      simp [Machine.next, application, step, runs, appTimerHandler, divides, passes]
    have pending : Pending ((application app psm).next c .tick).state := by
      rw [stepped]
      exact ⟨rfl, outside, runs⟩
    exact pending.followed divides es (Nat.le_refl _) (Nat.le_trans (stepsLeft_le _) enough)

/-- The period passes a second time while the first upload is under way. -/
def lateExpiry (app : Application) : AppConfig :=
  (application app everyMinute).run (application app everyMinute).start
    [.tick, .main 0, .tick, .main 0x41, .main 0, .main 0, .main 0]

/-- What is wrong where `transmit` is cleared in this run. -/
theorem lateExpiry_lost (app : Application) (calls : (lateExpiry app).state.calls = 1)
    (set : (lateExpiry app).state.transmit = true)
    (unset : ((application app everyMinute).next (lateExpiry app) (.main 0)).state.transmit = false)
    (log : (lateExpiry app).log =
      [.ticked true, .called 1 true] ++ .uploadStarted 1 :: [.ticked true, .uploaded 1]) :
    ¬KeepsPeriods app everyMinute anyEvent := by
  intro keeps
  have reach : (application app everyMinute).Reachable anyEvent (lateExpiry app) :=
    Machine.reachable_run _ (Machine.admits_true _ _)
  have none := keeps.cleared (lateExpiry app) reach (.main 0) trivial set unset
  rw [calls] at none
  exact none _ _ log (by decide)

theorem period_lost : ¬KeepsPeriods .coapTelenor everyMinute anyEvent ∧
    ¬KeepsPeriods .mqtt everyMinute anyEvent := by
  constructor
  · exact lateExpiry_lost _ (by decide) (by decide) (by decide) (by decide)
  · exact lateExpiry_lost _ (by decide) (by decide) (by decide) (by decide)

end DtApp.Periodic
