import DtApp.Periodic.Application

/-!
# Samples are counted exactly

Between two calls of `run_periodic` the counter is one more than the number of successful uploads,
and the loop ends after the first failed one or the last of `MAX_SAMPLES` successful ones. Until then it
goes on from call to call, and a call uploads when it finds `transmit` set.
-/
namespace DtApp.Periodic

/-! ## The uploads of a log -/

def Output.success : Output → Bool
  | .uploaded _ => true
  | _ => false

/-- How many uploads succeeded. -/
def successes (log : List Output) : Nat := log.countP Output.success

/-- An upload failed. -/
def Failed (log : List Output) : Prop := ∃ call, .uploadFailed call ∈ log

@[simp] theorem successes_append (xs ys : List Output) :
    successes (xs ++ ys) = successes xs + successes ys :=
  List.countP_append

@[simp] theorem successes_cons (o : Output) (outs : List Output) :
    successes (o :: outs) = successes outs + if o.success then 1 else 0 :=
  List.countP_cons

@[simp] theorem successes_nil : successes [] = 0 := rfl

@[simp] theorem failed_append (xs ys : List Output) : Failed (xs ++ ys) ↔ Failed xs ∨ Failed ys := by
  simp only [Failed, List.mem_append, exists_or]

@[simp] theorem failed_cons (o : Output) (outs : List Output) :
    Failed (o :: outs) ↔ (∃ call, o = .uploadFailed call) ∨ Failed outs := by
  simp only [Failed, List.mem_cons, exists_or, eq_comm]

@[simp] theorem not_failed_nil : ¬Failed [] := by simp [Failed]

/-- The loop has a reason to end. -/
def Over (log : List Output) : Prop := Failed log ∨ successes log = maxSamples

/-! ## Where the main thread stands -/

/-- No upload waits to be counted. -/
structure Fresh (c : AppConfig) : Prop where
  reset : c.state.transmitFinished = false
  count : c.state.sampleCnt = successes c.log + 1
  few : successes c.log < maxSamples
  unfailed : ¬Failed c.log

/-- The present call has made an upload that is not counted yet. -/
structure Made (c : AppConfig) : Prop where
  uploaded : .uploaded c.state.calls ∈ c.log
  count : c.state.sampleCnt = successes c.log
  few : successes c.log ≤ maxSamples
  unfailed : ¬Failed c.log

/-- What holds at each place. -/
inductive Standing (c : AppConfig) : Place → Prop
  | entry : Fresh c → Standing c .entry
  | uploading : Fresh c → c.state.transmit = true → Standing c .uploading
  | finishing : Made c → c.state.transmitFinished = false → c.state.transmit = true →
      Standing c .finishing
  | idling : Fresh c → Standing c .sleeping
  | sleeping : Made c → c.state.transmitFinished = true → c.state.transmit = true →
      Standing c .sleeping
  | late : Fresh c → Standing c .testing
  | testing : Made c → c.state.transmitFinished = true → c.state.transmit = true →
      Standing c .testing
  | clearing : Made c → c.state.transmitFinished = true → c.state.transmit = true →
      Standing c .clearing
  | resetting : Made c → c.state.transmitFinished = true → Standing c .resetting
  | counting : Made c → c.state.transmitFinished = false → Standing c .counting
  | continued : Fresh c → Standing c (.returned 0)
  | abandoned (err : Int) : err < 0 → Over c.log → Standing c (.returned err)
  | pausing : Fresh c → Standing c .pausing
  | ended : Standing c .ended

/-! ## The interrupt -/

def Output.ofTimer : Output → Bool
  | .ticked _ | .divisionByZero => true
  | _ => false

/-- An interrupt raises the flag at most, and the main thread stays where it is. -/
theorem appTimerHandler_cases (actualTau : Int) (s : AppState) :
    ∃ minutes transmit halted o,
      appTimerHandler actualTau s = ({ s with minutes, transmit, halted }, [o]) ∧
      (s.transmit = true → transmit = true) ∧ o.ofTimer = true := by
  unfold appTimerHandler
  split
  · exact ⟨_, s.transmit, true, .divisionByZero, rfl, id, rfl⟩
  · split
    · exact ⟨_, true, s.halted, .ticked true, rfl, fun _ => rfl, rfl⟩
    · exact ⟨_, s.transmit, s.halted, .ticked false, rfl, id, rfl⟩

theorem ofTimer_cases {o : Output} (timer : o.ofTimer = true) :
    o.success = false ∧ ∀ call, o ≠ .uploadFailed call := by
  cases o with
  | ticked => exact ⟨rfl, fun _ absurd => by cases absurd⟩
  | divisionByZero => exact ⟨rfl, fun _ absurd => by cases absurd⟩
  | _ => cases timer

section tick

variable {c : AppConfig} {minutes : Nat} {transmit halted : Bool} {o : Output}
  (raises : c.state.transmit = true → transmit = true) (timer : o.ofTimer = true)

include timer

theorem over_tick : Over (c.log ++ [o]) ↔ Over c.log := by
  obtain ⟨success, failure⟩ := ofTimer_cases timer
  simp [Over, success, failure]

theorem Fresh.tick (fresh : Fresh c) :
    Fresh ⟨{ c.state with minutes, transmit, halted }, c.log ++ [o]⟩ := by
  obtain ⟨success, failure⟩ := ofTimer_cases timer
  refine ⟨fresh.reset, ?_, ?_, ?_⟩
  · simpa [success] using fresh.count
  · simpa [success] using fresh.few
  · simpa [failure] using fresh.unfailed

theorem Made.tick (made : Made c) :
    Made ⟨{ c.state with minutes, transmit, halted }, c.log ++ [o]⟩ := by
  obtain ⟨success, failure⟩ := ofTimer_cases timer
  refine ⟨List.mem_append_left _ made.uploaded, ?_, ?_, ?_⟩
  · simpa [success] using made.count
  · simpa [success] using made.few
  · simpa [failure] using made.unfailed

include raises

theorem Standing.tick {place : Place} (standing : Standing c place) :
    Standing ⟨{ c.state with minutes, transmit, halted }, c.log ++ [o]⟩ place := by
  cases standing with
  | entry fresh => exact .entry (fresh.tick timer)
  | uploading fresh set => exact .uploading (fresh.tick timer) (raises set)
  | finishing made unset set => exact .finishing (made.tick timer) unset (raises set)
  | idling fresh => exact .idling (fresh.tick timer)
  | sleeping made finished set => exact .sleeping (made.tick timer) finished (raises set)
  | late fresh => exact .late (fresh.tick timer)
  | testing made finished set => exact .testing (made.tick timer) finished (raises set)
  | clearing made finished set => exact .clearing (made.tick timer) finished (raises set)
  | resetting made finished => exact .resetting (made.tick timer) finished
  | counting made unset => exact .counting (made.tick timer) unset
  | continued fresh => exact .continued (fresh.tick timer)
  | abandoned err negative reason => exact .abandoned err negative ((over_tick timer).mpr reason)
  | pausing fresh => exact .pausing (fresh.tick timer)
  | ended => exact .ended

end tick

/-! ## The main thread -/

/-- What the counts rest on stays as it is. -/
structure Uncounted (c d : AppConfig) : Prop where
  sampleCnt : d.state.sampleCnt = c.state.sampleCnt
  successes : successes d.log = successes c.log
  failed : Failed d.log ↔ Failed c.log

theorem Fresh.keep {c d : AppConfig} (fresh : Fresh c) (same : Uncounted c d)
    (finished : d.state.transmitFinished = c.state.transmitFinished) : Fresh d := by
  refine ⟨finished.trans fresh.reset, ?_, ?_, ?_⟩
  · rw [same.sampleCnt, same.successes, fresh.count]
  · rw [same.successes]
    exact fresh.few
  · rw [same.failed]
    exact fresh.unfailed

theorem Made.keep {c d : AppConfig} (made : Made c) (same : Uncounted c d)
    (calls : d.state.calls = c.state.calls) (log : c.log ⊆ d.log) : Made d := by
  refine ⟨?_, ?_, ?_, ?_⟩
  · rw [calls]
    exact log made.uploaded
  · rw [same.sampleCnt, same.successes, made.count]
  · rw [same.successes]
    exact made.few
  · rw [same.failed]
    exact made.unfailed

theorem Standing.main {c : AppConfig} (standing : Standing c c.state.place) {s : AppState}
    {outs : List Output} (move : MainMove c.state s outs) : Standing ⟨s, c.log ++ outs⟩ s.place := by
  cases move with
  | upload at_ set =>
    rw [at_] at standing
    cases standing with
    | entry fresh =>
      exact .uploading (fresh.keep ⟨rfl, by simp [Output.success], by simp⟩ rfl) set
  | skip at_ unset =>
    rw [at_] at standing
    cases standing with
    | entry fresh => exact .idling (fresh.keep ⟨rfl, by simp [Output.success], by simp⟩ rfl)
  | uploaded at_ =>
    rw [at_] at standing
    cases standing with
    | uploading fresh set =>
      refine .finishing ⟨by simp, ?_, ?_, ?_⟩ fresh.reset set
      · simpa [Output.success] using fresh.count
      · simpa [Output.success] using Nat.succ_le_of_lt fresh.few
      · simpa using fresh.unfailed
  | failed err at_ negative => exact .abandoned err negative (.inl (by simp))
  | finish at_ =>
    rw [at_] at standing
    cases standing with
    | finishing made unset set =>
      exact .sleeping (made.keep ⟨rfl, by simp, by simp⟩ rfl (by simp)) rfl set
  | wake at_ set =>
    rw [at_] at standing
    cases standing with
    | idling fresh => exact .late (fresh.keep ⟨rfl, by simp, by simp⟩ rfl)
    | sleeping made finished _ =>
      exact .testing (made.keep ⟨rfl, by simp, by simp⟩ rfl (by simp)) finished set
  | unset at_ unset =>
    rw [at_] at standing
    cases standing with
    | idling fresh => exact .continued (fresh.keep ⟨rfl, by simp, by simp⟩ rfl)
    | sleeping made finished set =>
      rw [unset] at set
      cases set
  | both at_ finished =>
    rw [at_] at standing
    cases standing with
    | late fresh =>
      rw [fresh.reset] at finished
      cases finished
    | testing made _ set =>
      exact .clearing (made.keep ⟨rfl, by simp, by simp⟩ rfl (by simp)) finished set
  | unfinished at_ unfinished =>
    rw [at_] at standing
    cases standing with
    | late fresh => exact .continued (fresh.keep ⟨rfl, by simp, by simp⟩ rfl)
    | testing made finished set =>
      rw [unfinished] at finished
      cases finished
  | clear at_ =>
    rw [at_] at standing
    cases standing with
    | clearing made finished set =>
      exact .resetting (made.keep ⟨rfl, by simp [Output.success], by simp⟩ rfl (by simp)) finished
  | reset at_ =>
    rw [at_] at standing
    cases standing with
    | resetting made finished =>
      exact .counting (made.keep ⟨rfl, by simp, by simp⟩ rfl (by simp)) rfl
  | last at_ last =>
    rw [at_] at standing
    cases standing with
    | counting made unset =>
      have count := made.count
      have few := made.few
      refine .abandoned _ (by decide) (.inr ?_)
      rw [List.append_nil]
      change successes c.log = maxSamples
      omega
  | count at_ few =>
    rw [at_] at standing
    cases standing with
    | counting made unset =>
      have count := made.count
      refine .continued ⟨unset, ?_, ?_, ?_⟩
      · simpa using count
      · simpa [← count] using few
      · simpa using made.unfailed
  | leave => exact .ended
  | pause err at_ fine =>
    rw [at_] at standing
    cases standing with
    | continued fresh => exact .pausing (fresh.keep ⟨rfl, by simp, by simp⟩ rfl)
    | abandoned _ negative => exact absurd negative fine
  | again err at_ fine =>
    rw [at_] at standing
    cases standing with
    | continued fresh => exact .entry (fresh.keep ⟨rfl, by simp, by simp⟩ rfl)
    | abandoned _ negative => exact absurd negative fine
  | resume at_ =>
    rw [at_] at standing
    cases standing with
    | pausing fresh => exact .entry (fresh.keep ⟨rfl, by simp, by simp⟩ rfl)
  | stay at_ =>
    rw [at_]
    exact .ended

/-! ## Calls -/

/-- The outputs that a call starts with. -/
def Output.opens : Output → Bool
  | .called _ _ | .uploadStarted _ => true
  | _ => false

theorem not_opens {outs : List Output} (quiet : ∀ o ∈ outs, o.opens = false) :
    (∀ n t, .called n t ∉ outs) ∧ ∀ n, outs.count (.uploadStarted n) = 0 := by
  constructor
  · intro n t member
    cases quiet _ member
  · intro n
    rw [List.count_eq_zero]
    intro member
    cases quiet _ member

/-- A call starts with the next number, and with an upload if it finds the flag set. -/
theorem MainMove.calls {s s' : AppState} {outs : List Output} (move : MainMove s s' outs) :
    (s'.calls = s.calls ∧ ∀ o ∈ outs, o.opens = false) ∨
      s'.calls = s.calls + 1 ∧ outs = .called (s.calls + 1) s.transmit ::
        if s.transmit then [.uploadStarted (s.calls + 1)] else [] := by
  cases move with
  | upload _ set => exact .inr ⟨rfl, by simp [set]⟩
  | skip _ unset => exact .inr ⟨rfl, by simp [unset]⟩
  | _ => exact .inl ⟨rfl, by simp [Output.opens]⟩

/-- Uploads belong to calls, one to each that found the flag set. -/
structure Numbered (c : AppConfig) : Prop where
  bound : ∀ n t, .called n t ∈ c.log → n ≤ c.state.calls
  later : ∀ n, c.state.calls < n → c.log.count (.uploadStarted n) = 0
  exact : ∀ n t, .called n t ∈ c.log → c.log.count (.uploadStarted n) = if t then 1 else 0
  once : ∀ n, c.log.count (.uploadStarted n) ≤ 1

theorem Numbered.quiet {c d : AppConfig} {outs : List Output} (numbered : Numbered c)
    (calls : d.state.calls = c.state.calls) (log : d.log = c.log ++ outs)
    (quiet : ∀ o ∈ outs, o.opens = false) : Numbered d := by
  obtain ⟨uncalled, unstarted⟩ := not_opens quiet
  have called : ∀ n t, .called n t ∈ d.log → .called n t ∈ c.log := by
    intro n t member
    rw [log] at member
    exact (List.mem_append.mp member).resolve_right (uncalled n t)
  have count : ∀ n, d.log.count (.uploadStarted n) = c.log.count (.uploadStarted n) := by
    intro n
    rw [log, List.count_append, unstarted, Nat.add_zero]
  constructor
  · intro n t member
    rw [calls]
    exact numbered.bound n t (called n t member)
  · intro n after
    rw [count]
    exact numbered.later n (calls ▸ after)
  · intro n t member
    rw [count]
    exact numbered.exact n t (called n t member)
  · intro n
    rw [count]
    exact numbered.once n

theorem Numbered.call {c d : AppConfig} (numbered : Numbered c)
    (calls : d.state.calls = c.state.calls + 1)
    (log : d.log = c.log ++ .called (c.state.calls + 1) c.state.transmit ::
      if c.state.transmit then [.uploadStarted (c.state.calls + 1)] else []) : Numbered d := by
  have count : ∀ n, d.log.count (.uploadStarted n) = c.log.count (.uploadStarted n) +
      if n = c.state.calls + 1 ∧ c.state.transmit = true then 1 else 0 := by
    intro n
    rw [log, List.count_append, List.count_cons_of_ne (by simp)]
    by_cases set : c.state.transmit = true
    · by_cases new : n = c.state.calls + 1
      · subst new
        simp [set]
      · have other : Output.uploadStarted (c.state.calls + 1) ≠ .uploadStarted n := by
          intro same
          cases same
          exact new rfl
        simp [set, new, List.count_cons_of_ne other]
    · simp [set]
  have called : ∀ n t, .called n t ∈ d.log →
      .called n t ∈ c.log ∨ n = c.state.calls + 1 ∧ t = c.state.transmit := by
    intro n t member
    rw [log] at member
    rcases List.mem_append.mp member with old | new
    · exact .inl old
    · rcases List.mem_cons.mp new with same | upload
      · cases same
        exact .inr ⟨rfl, rfl⟩
      · split at upload <;> simp at upload
  constructor
  · intro n t member
    rcases called n t member with old | ⟨rfl, _⟩
    · exact Nat.le_trans (numbered.bound n t old) (by omega)
    · omega
  · intro n after
    have other : n ≠ c.state.calls + 1 := by omega
    rw [count, numbered.later n (by omega), if_neg fun both => other both.1]
  · intro n t member
    rcases called n t member with old | ⟨rfl, rfl⟩
    · have other : n ≠ c.state.calls + 1 := Nat.ne_of_lt (Nat.lt_succ_of_le (numbered.bound n t old))
      rw [count, if_neg fun both => other both.1, Nat.add_zero]
      exact numbered.exact n t old
    · rw [count, numbered.later _ (Nat.lt_succ_self _)]
      simp
  · intro n
    by_cases new : n = c.state.calls + 1
    · rw [count, numbered.later n (by omega)]
      split <;> omega
    · rw [count, if_neg (fun both => new both.1)]
      exact numbered.once n

/-! ## Runs -/

/-- What a step can be. -/
inductive Move (s : AppState) : AppState → List Output → Prop
  | halted : Move s s []
  | tick (minutes : Nat) (transmit halted : Bool) (o : Output) :
      (s.transmit = true → transmit = true) → o.ofTimer = true →
      Move s { s with minutes, transmit, halted } [o]
  | main {s' : AppState} {outs : List Output} : MainMove s s' outs → Move s s' outs

theorem step_move (app : Application) (actualTau : Int) (s : AppState) (event : Event) :
    Move s (step app actualTau s event).1 (step app actualTau s event).2 := by
  unfold step
  split
  · exact .halted
  · cases event with
    | tick =>
      obtain ⟨minutes, transmit, halted, o, eq, raises, timer⟩ := appTimerHandler_cases actualTau s
      rw [eq]
      exact .tick minutes transmit halted o raises timer
    | main ret => exact .main (mainStep_move app s ret)

variable {psm : PsmResult} {ok : AppConfig → Event → Prop} {c : AppConfig}

/-- The run rule of the moves: what holds at the start and is kept by every move holds of every
reachable configuration. -/
theorem reachable_moves (Inv : AppConfig → Prop) (init : Inv (application app psm).start)
    (step : ∀ c s outs, (application app psm).Reachable ok c → Move c.state s outs → Inv c →
      Inv ⟨s, c.log ++ outs⟩) (reach : (application app psm).Reachable ok c) : Inv c :=
  reach.invariant Inv init fun c event reached _ holds =>
    step c _ _ reached (step_move app (tauInMinutes app psm) c.state event) holds

theorem reachable_standing (reach : (application app psm).Reachable ok c) :
    Standing c c.state.place := by
  refine reachable_moves (fun c => Standing c c.state.place) ?_ ?_ reach
  · have fresh : Fresh (application app psm).start := ⟨rfl, rfl, Nat.zero_lt_succ 4, not_failed_nil⟩
    change Standing (application app psm).start (startPlace app psm)
    rcases startPlace_cases app psm with entry | ended
    · rw [entry]
      exact .entry fresh
    · rw [ended]
      exact .ended
  · intro c s outs _ move standing
    cases move with
    | halted =>
      rw [List.append_nil]
      exact standing
    | tick minutes transmit halted o raises timer => exact standing.tick raises timer
    | main move => exact standing.main move

theorem reachable_numbered (reach : (application app psm).Reachable ok c) : Numbered c := by
  refine reachable_moves Numbered ?_ ?_ reach
  · constructor <;> simp [Machine.start]
  · intro c s outs _ move numbered
    cases move with
    | halted => exact numbered.quiet rfl rfl (by simp)
    | tick minutes transmit halted o raises timer =>
      refine numbered.quiet rfl rfl ?_
      cases o with
      | ticked | divisionByZero => simp [Output.opens]
      | _ => cases timer
    | main move =>
      rcases move.calls with ⟨calls, quiet⟩ | ⟨calls, outs⟩
      · exact numbered.quiet calls rfl quiet
      · exact numbered.call calls (by rw [outs])

/-- The end is the end. -/
theorem Move.stays_ended {s s' : AppState} {outs : List Output} (move : Move s s' outs)
    (at_ : s.place = .ended) : s'.place = .ended := by
  cases move with
  | halted => exact at_
  | tick minutes transmit halted o raises timer => exact at_
  | main move =>
    cases move with
    | stay => exact at_
    | leave => rfl
    | failed err here | pause err here | again err here =>
      rw [at_] at here
      cases here
    | _ here =>
      rw [at_] at here
      cases here

/-- Only the interrupt puts out anything then. -/
theorem Move.over_of_ended {s s' : AppState} {outs log : List Output} (move : Move s s' outs)
    (at_ : s.place = .ended) : Over (log ++ outs) ↔ Over log := by
  cases move with
  | halted => rw [List.append_nil]
  | tick minutes transmit halted o raises timer => exact over_tick (c := ⟨s, log⟩) timer
  | main move =>
    cases move with
    | stay => rw [List.append_nil]
    | failed err here | leave err here | pause err here | again err here =>
      rw [at_] at here
      cases here
    | _ here =>
      rw [at_] at here
      cases here

/-- When the loop ends, it has a reason to. -/
theorem reachable_loopEnded (reach : (application app psm).Reachable ok c) :
    .loopEnded ∈ c.log → c.state.place = .ended ∧ Over c.log := by
  refine reachable_moves (fun c => .loopEnded ∈ c.log → c.state.place = .ended ∧ Over c.log) ?_ ?_ reach
  · intro member
    cases member
  · intro c s outs reached move before member
    have standing := reachable_standing reached
    rcases List.mem_append.mp member with old | new
    · -- the main thread does not move any more
      obtain ⟨at_, reason⟩ := before old
      exact ⟨move.stays_ended at_, (move.over_of_ended at_).mpr reason⟩
    · cases move with
      | tick minutes transmit halted o raises timer =>
        rw [List.mem_singleton] at new
        rw [← new] at timer
        cases timer
      | main move =>
        cases move with
        | leave err at_ negative =>
          rw [at_] at standing
          cases standing with
          | abandoned _ _ reason => exact ⟨rfl, by simpa [Over, Output.success] using reason⟩
          | continued => cases negative
        | _ => simp at new
      | halted => cases new

theorem Fresh.not_over (fresh : Fresh c) : ¬Over c.log := by
  rintro (failed | all)
  · exact fresh.unfailed failed
  · exact Nat.ne_of_lt fresh.few all

/-! ## The loop goes on -/

def Event.ofMain : Event → Bool
  | .main _ => true
  | .tick => false

/-- How many steps of the main thread lie before the step that calls `run_periodic` or ends the loop. -/
def Place.stepsAhead : Place → Nat
  | .entry | .ended => 0
  | .pausing => 1
  | .returned _ => 2
  | .counting => 3
  | .resetting => 4
  | .clearing => 5
  | .testing => 6
  | .sleeping => 7
  | .finishing => 8
  | .uploading => 9

theorem Place.stepsAhead_le (place : Place) : place.stepsAhead ≤ 9 := by
  cases place <;> simp [stepsAhead]

/-- A step calls `run_periodic`, ends the loop, or comes closer to doing so. -/
theorem MainMove.progress {s s' : AppState} {outs : List Output} (move : MainMove s s' outs)
    (running : s.place ≠ .ended) : (∃ t, .called (s.calls + 1) t ∈ outs) ∨ .loopEnded ∈ outs ∨
      s'.place.stepsAhead + 1 ≤ s.place.stepsAhead := by
  cases move with
  | upload => exact .inl ⟨true, List.mem_cons_self⟩
  | skip => exact .inl ⟨false, List.mem_cons_self⟩
  | leave => exact .inr (.inl List.mem_cons_self)
  | failed err at_ | pause err at_ | again err at_ => exact .inr (.inr (by simp [at_, Place.stepsAhead]))
  | stay at_ => exact absurd at_ running
  | _ at_ => exact .inr (.inr (by simp [at_, Place.stepsAhead]))

theorem Move.calls_le {s s' : AppState} {outs : List Output} (move : Move s s' outs) :
    s.calls ≤ s'.calls := by
  cases move with
  | halted | tick => exact Nat.le_refl _
  | main move =>
    rcases move.calls with ⟨same, _⟩ | ⟨next, _⟩
    · exact Nat.le_of_eq same.symm
    · exact next ▸ Nat.le_succ _

theorem Move.loopEnded {s s' : AppState} {outs : List Output} (move : Move s s' outs)
    (running : s.place ≠ .ended) (ended : s'.place = .ended) : .loopEnded ∈ outs := by
  cases move with
  | halted | tick => exact absurd ended running
  | main move =>
    cases move with
    | leave => exact List.mem_cons_self
    | stay at_ => exact absurd at_ running
    | _ => cases ended

/-- At this event a call starts or the loop ends, unless nothing moves any more. -/
def Turns (app : Application) (psm : PsmResult) (c : AppConfig) (event : Event) : Prop :=
  c.state.halted = true ∨ c.state.place = .ended ∨
    (∃ t, .called (c.state.calls + 1) t ∈ ((application app psm).step c.state event).2) ∨
    .loopEnded ∈ ((application app psm).step c.state event).2

theorem next_stepsAhead (event : Event) (turns : ¬Turns app psm c event) :
    ((application app psm).next c event).state.place.stepsAhead + (if event.ofMain then 1 else 0) ≤
      c.state.place.stepsAhead := by
  have move := step_move app (tauInMinutes app psm) c.state event
  simp only [Turns, not_or] at turns
  obtain ⟨alive, running, uncalled, unended⟩ := turns
  cases event with
  | tick =>
    obtain ⟨minutes, transmit, halted, o, eq, _⟩ := appTimerHandler_cases (tauInMinutes app psm) c.state
    simp [Machine.next, application, step, alive, eq, Event.ofMain]
  | main ret =>
    have stepped : (application app psm).step c.state (.main ret) = mainStep app c.state ret := by
      simp [application, step, alive]
    rw [stepped] at uncalled unended
    simp only [Machine.next, stepped, Event.ofMain, if_true]
    rcases (mainStep_move app c.state ret).progress running with called | ended | closer
    · exact absurd called uncalled
    · exact absurd ended unended
    · exact closer

section leads

variable {d : AppConfig} (leads : (application app psm).Leads ok c d)

include leads

theorem leads_halted (halted : c.state.halted = true) : d.state.halted = true := by
  refine leads.stable (fun c => c.state.halted = true) ?_ halted
  intro c event _ halted
  simp [Machine.next, application, step, halted]

theorem leads_calls_le : c.state.calls ≤ d.state.calls := by
  refine leads.stable (fun d => c.state.calls ≤ d.state.calls) ?_ (Nat.le_refl _)
  intro d event _ before
  exact Nat.le_trans before (step_move app _ d.state event).calls_le

/-- The loop that was running has put out its end when it has ended. -/
theorem leads_loopEnded (running : c.state.place ≠ .ended) :
    d.state.place = .ended → .loopEnded ∈ d.log := by
  refine leads.stable (fun d => d.state.place = .ended → .loopEnded ∈ d.log) ?_
    (fun ended => absurd ended running)
  intro d event _ before ended
  by_cases already : d.state.place = .ended
  · exact List.mem_append_left _ (before already)
  · exact List.mem_append_right _ ((step_move app _ d.state event).loopEnded already ended)

end leads

/-- Until it ends the loop calls `run_periodic` again and again, whenever the interrupts come. -/
theorem run_goesOn (reach : (application app psm).Reachable anyEvent c) (running : c.state.place ≠ .ended)
    (es : List Event) (enough : 10 ≤ es.countP Event.ofMain)
    (alive : ((application app psm).run c es).state.halted = false) :
    (∃ n t, c.state.calls < n ∧ .called n t ∈ ((application app psm).run c es).log) ∨
      .loopEnded ∈ ((application app psm).run c es).log := by
  have ahead : c.state.place.stepsAhead < es.countP Event.ofMain :=
    Nat.lt_of_le_of_lt c.state.place.stepsAhead_le enough
  obtain ⟨before, event, after, rfl, _, turns⟩ := Machine.Admits.happens Event.ofMain
    (fun c => c.state.place.stepsAhead) (Turns app psm) (fun _ event _ _ => next_stepsAhead event) es c reach
    (Machine.admits_true _ _) ahead
  have start := Machine.leads_run before c ((application app psm).admits_true before c)
  have rest := Machine.leads_run (event :: after) ((application app psm).run c before)
    ((application app psm).admits_true _ _)
  have later := Machine.leads_run after ((application app psm).next ((application app psm).run c before) event)
    ((application app psm).admits_true _ _)
  rw [Machine.run_cut] at alive ⊢
  rcases turns with halted | ended | ⟨t, called⟩ | ended
  · have clash : true = false := (leads_halted rest halted).symm.trans alive
    cases clash
  · have ended := leads_loopEnded start running ended
    exact .inr (later.log_prefix.subset (List.mem_append_left _ ended))
  · have new := Nat.lt_succ_of_le (leads_calls_le start)
    exact .inl ⟨_, t, new, later.log_prefix.subset (List.mem_append_right _ called)⟩
  · exact .inr (later.log_prefix.subset (List.mem_append_right _ ended))

/-! ## The end -/

theorem MainMove.few {s s' : AppState} {outs log : List Output} (move : MainMove s s' outs)
    (standing : Standing ⟨s, log⟩ s.place) (few : successes log ≤ maxSamples) :
    successes (log ++ outs) ≤ maxSamples := by
  cases move with
  | uploaded at_ =>
    rw [at_] at standing
    cases standing with
    | uploading fresh => simpa [Output.success] using Nat.succ_le_of_lt fresh.few
  | _ => simpa [Output.success] using few

/-- No more uploads succeed than are wanted. -/
theorem reachable_few (reach : (application app psm).Reachable ok c) : successes c.log ≤ maxSamples := by
  refine reachable_moves (fun c => successes c.log ≤ maxSamples) (Nat.zero_le _) ?_ reach
  intro c s outs reached move few
  have standing := reachable_standing reached
  cases move with
  | halted => simpa using few
  | tick minutes transmit halted o raises timer => simpa [(ofTimer_cases timer).1] using few
  | main move => exact move.few standing few

/-- The loop that had a reason to end has put out that it did. -/
theorem reachable_ended (reach : (application app psm).Reachable ok c) :
    c.state.place = .ended → Over c.log → .loopEnded ∈ c.log := by
  refine reachable_moves (fun c => c.state.place = .ended → Over c.log → .loopEnded ∈ c.log) ?_ ?_ reach
  · rintro _ (⟨call, member⟩ | few)
    · cases member
    · cases few
  · intro c s outs _ move before ended reason
    by_cases already : c.state.place = .ended
    · exact List.mem_append_left _ (before already ((move.over_of_ended already).mp reason))
    · exact List.mem_append_right _ (move.loopEnded already ended)

/-- A reason to end the loop stays one. -/
theorem Over.append {xs ys : List Output} (reason : Over xs) (few : successes (xs ++ ys) ≤ maxSamples) :
    Over (xs ++ ys) := by
  rcases reason with failed | all
  · exact .inl ((failed_append xs ys).mpr (.inl failed))
  · rw [successes_append] at few
    exact .inr (by rw [successes_append]; omega)

/-- Only the main thread clears `transmit`, and only when an upload was made. -/
theorem Standing.cleared (standing : Standing c c.state.place) {s : AppState} {outs : List Output}
    (move : Move c.state s outs) (set : c.state.transmit = true) (unset : s.transmit = false) :
    .uploaded c.state.calls ∈ c.log := by
  have stays : c.state.transmit ≠ false := by simp [set]
  cases move with
  | halted => exact absurd unset stays
  | tick minutes transmit halted o raises timer =>
    rw [raises set] at unset
    cases unset
  | main move =>
    cases move with
    | clear at_ =>
      rw [at_] at standing
      cases standing with
      | clearing made => exact made.uploaded
    | _ => exact absurd unset stays

/-- A new call finds no reason to end the loop. -/
theorem Standing.called (standing : Standing c c.state.place) {s : AppState} {outs before : List Output}
    {after : List Output} {n : Nat} {t : Bool} (move : Move c.state s outs)
    (split : outs = before ++ .called n t :: after) : before = [] ∧ ¬Over c.log := by
  have member : .called n t ∈ outs := by simp [split]
  cases move with
  | halted => cases member
  | tick minutes transmit halted o raises timer =>
    rw [List.mem_singleton] at member
    rw [← member] at timer
    cases timer
  | main move =>
    have first : before = [] := by
      cases before with
      | nil => rfl
      | cons o before =>
        rcases move.calls with ⟨_, quiet⟩ | ⟨_, outs⟩
        · cases quiet _ member
        · -- only an upload comes after the start of the call
          rw [split, List.cons_append] at outs
          have rest := (List.cons.inj outs).2
          have late : .called n t ∈ before ++ .called n t :: after := by simp
          rw [rest] at late
          split at late <;> simp at late
    refine ⟨first, ?_⟩
    cases move with
    | upload at_ | skip at_ =>
      rw [at_] at standing
      cases standing with
      | entry fresh => exact fresh.not_over
    | _ => simp at member

/-- No call starts when the loop has a reason to end. -/
theorem reachable_notLater (reach : (application app psm).Reachable ok c) {pre post : List Output}
    {n : Nat} {t : Bool} (split : c.log = pre ++ .called n t :: post) : ¬Over pre := by
  obtain ⟨d, event, before, after, reached, _, _, outs, rfl⟩ := reach.origin split
  obtain ⟨first, fine⟩ := (reachable_standing reached).called (step_move app _ d.state event) outs
  rwa [first, List.append_nil]

/-- When it has one it ends, whenever the interrupts come. -/
theorem run_ends (reach : (application app psm).Reachable anyEvent c) (reason : Over c.log) (es : List Event)
    (enough : 10 ≤ es.countP Event.ofMain)
    (alive : ((application app psm).run c es).state.halted = false) :
    .loopEnded ∈ ((application app psm).run c es).log := by
  have leads := Machine.leads_run es c ((application app psm).admits_true es c)
  have reached := leads.reachable reach
  by_cases ended : c.state.place = .ended
  · exact leads.log_prefix.subset (reachable_ended reach ended reason)
  · rcases run_goesOn reach ended es enough alive with ⟨n, t, new, called⟩ | ended
    · -- the call would have started with a reason in the log
      have uncalled : .called n t ∉ c.log := fun old =>
        Nat.not_lt_of_le ((reachable_numbered reach).bound n t old) new
      obtain ⟨rest, log⟩ := leads.log_prefix
      rw [← log] at called
      obtain ⟨pre, post, split⟩ := List.append_of_mem ((List.mem_append.mp called).resolve_left uncalled)
      have whole : ((application app psm).run c es).log = (c.log ++ pre) ++ .called n t :: post := by
        rw [← log, split, List.append_assoc]
      have few := reachable_few reached
      rw [whole, successes_append] at few
      exact absurd (reason.append (by omega)) (reachable_notLater reached whole)
    · exact ended

/-- The samples of a run are counted as they should be. -/
structure SamplesCounted (app : Application) (psm : PsmResult) (c : AppConfig) : Prop where
  /-- `transmit` is cleared only in a call that has completed a successful upload. -/
  cleared : ∀ event, c.state.transmit = true →
    ((application app psm).next c event).state.transmit = false → .uploaded c.state.calls ∈ c.log
  reset : c.state.place = .entry → c.state.transmitFinished = false
  counted : c.state.place = .entry ∨ c.state.place = .pausing →
    c.state.sampleCnt = successes c.log + 1
  /-- The next call starts with the test of `transmit`, and with an upload exactly if it is set. -/
  starts : c.state.place = .entry → c.state.halted = false → ∀ ret,
    ((application app psm).step c.state (.main ret)).2 =
      .called (c.state.calls + 1) c.state.transmit ::
        if c.state.transmit then [.uploadStarted (c.state.calls + 1)] else []
  /-- A call makes an upload exactly if it found `transmit` set. -/
  exact : ∀ n t, .called n t ∈ c.log → c.log.count (.uploadStarted n) = if t then 1 else 0
  once : ∀ n, c.log.count (.uploadStarted n) ≤ 1
  /-- The upload succeeds or fails as its result says. -/
  results : c.state.place = .uploading → c.state.halted = false → ∀ ret,
    ((application app psm).step c.state (.main ret)).2 =
      [if app.uploaded ret then .uploaded c.state.calls else .uploadFailed c.state.calls]
  /-- The loop ends only with a reason, and does not call `run_periodic` again when it has one. -/
  notEarlier : .loopEnded ∈ c.log → Over c.log
  notLater : ∀ pre post n t, c.log = pre ++ .called n t :: post → ¬Over pre
  /-- The call that gives the reason is left at once after a failure, and with an error. -/
  failed : Failed c.log → c.state.place = .ended ∨ ∃ err, err < 0 ∧ c.state.place = .returned err
  ends : ∀ err, c.state.place = .returned err → (err < 0 ↔ Over c.log)
  /-- An error ends the loop at once. -/
  leaves : ∀ err, c.state.place = .returned err → c.state.halted = false → ∀ ret,
    ((application app psm).step c.state (.main ret)).2 = if err < 0 then [.loopEnded] else []
  /-- Until it ends the loop goes on to the next call, and with a reason it ends, both within ten steps
  of the main thread. -/
  goesOn : c.state.place ≠ .ended → ∀ es, 10 ≤ es.countP Event.ofMain →
    ((application app psm).run c es).state.halted = false →
    (∃ n t, c.state.calls < n ∧ .called n t ∈ ((application app psm).run c es).log) ∨
      .loopEnded ∈ ((application app psm).run c es).log
  concluded : Over c.log → ∀ es, 10 ≤ es.countP Event.ofMain →
    ((application app psm).run c es).state.halted = false →
    .loopEnded ∈ ((application app psm).run c es).log

/-- Samples are counted exactly in every run of either application. -/
theorem samples_counted (app : Application) (psm : PsmResult) (c : AppConfig)
    (reach : (application app psm).Reachable anyEvent c) : SamplesCounted app psm c := by
  have standing := reachable_standing reach
  have numbered := reachable_numbered reach
  constructor
  · intro event set unset
    exact standing.cleared (step_move app _ c.state event) set unset
  · intro at_
    rw [at_] at standing
    cases standing with
    | entry fresh => exact fresh.reset
  · rintro (at_ | at_)
    · rw [at_] at standing
      cases standing with
      | entry fresh => exact fresh.count
    · rw [at_] at standing
      cases standing with
      | pausing fresh => exact fresh.count
  · intro at_ alive ret
    cases set : c.state.transmit <;> simp [application, step, mainStep, at_, alive, set]
  · exact numbered.exact
  · exact numbered.once
  · intro at_ alive ret
    cases success : app.uploaded ret <;> simp [application, step, mainStep, at_, alive, success]
  · exact fun member => (reachable_loopEnded reach member).2
  · exact fun pre post n t => reachable_notLater reach
  · intro failed
    generalize c.state.place = place at standing
    cases standing with
    | abandoned err negative => exact .inr ⟨err, negative, rfl⟩
    | ended => exact .inl rfl
    | entry fresh | uploading fresh | idling fresh | late fresh | continued fresh | pausing fresh =>
      exact absurd failed fresh.unfailed
    | finishing made | sleeping made | testing made | clearing made | resetting made | counting made =>
      exact absurd failed made.unfailed
  · intro err at_
    rw [at_] at standing
    cases standing with
    | continued fresh => exact iff_of_false (Int.lt_irrefl 0) fresh.not_over
    | abandoned _ negative reason => exact iff_of_true negative reason
  · intro err at_ alive ret
    by_cases negative : err < 0 <;> simp [application, step, mainStep, at_, alive, negative]
  · exact run_goesOn reach
  · exact run_ends reach

/-- The network grants a period of one minute. -/
def everyMinute : PsmResult := .granted ⟨60, by decide⟩

/-- A period passes, and one sample is uploaded. -/
def oneSample : List Event :=
  [.tick, .main 0, .main 0x41, .main 0, .main 0, .main 0, .main 0, .main 0, .main 0, .main 0, .main 0]

/-- All but the last of the samples, and the period before that one. -/
def fourSamples : AppConfig :=
  (application .coapTelenor everyMinute).run (application .coapTelenor everyMinute).start
    (oneSample ++ oneSample ++ oneSample ++ oneSample ++ [.tick])

/-- The last one, before the loop looks at what its call has returned. -/
def fiveSamples : AppConfig :=
  (application .coapTelenor everyMinute).run fourSamples ((oneSample.drop 1).take 8)

theorem fourSamples_reachable : (application .coapTelenor everyMinute).Reachable anyEvent fourSamples :=
  Machine.reachable_run _ (Machine.admits_true _ _)

/-- Four samples are counted; the fifth is uploaded when its period has passed, and then the loop ends. -/
theorem samples_counted_five :
    fourSamples.state.sampleCnt = successes fourSamples.log + 1 ∧
    ((application .coapTelenor everyMinute).step fourSamples.state (.main 0)).2 =
      [.called 5 true, .uploadStarted 5] ∧
    Over fiveSamples.log ∧ fiveSamples.log.count (.uploadStarted 5) = 1 ∧ .loopEnded ∉ fiveSamples.log ∧
    .loopEnded ∈ ((application .coapTelenor everyMinute).run fiveSamples (List.replicate 10 (.main 0))).log := by
  have four := samples_counted .coapTelenor everyMinute fourSamples fourSamples_reachable
  have five := samples_counted .coapTelenor everyMinute fiveSamples
    ((Machine.leads_run _ _ (Machine.admits_true _ _)).reachable fourSamples_reachable)
  have reason : Over fiveSamples.log := .inr (by decide +kernel)
  have starts := four.starts (by decide +kernel) (by decide +kernel) 0
  have calls : fourSamples.state.calls = 4 := by decide +kernel
  have set : fourSamples.state.transmit = true := by decide +kernel
  rw [calls, set] at starts
  exact ⟨four.counted (by decide +kernel), starts, reason, five.exact 5 true (by decide +kernel),
    by decide +kernel, five.concluded reason _ (by decide +kernel) (by decide +kernel)⟩

end DtApp.Periodic
