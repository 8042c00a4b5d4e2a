import DtApp.Periodic.Samples

/-!
# The timer

`app_timer_handler` divides by the period in minutes. A period of less than a minute is rounded to
zero, and so are the initial values of `actual_tau`, which stay when `lte_lc_psm_get` fails.
-/
namespace DtApp.Periodic

def Output.tick : Output → Bool
  | .ticked _ => true
  | _ => false

/-- How often the handler ran. -/
def ticks (log : List Output) : Nat := log.countP Output.tick

/-- The handler never divides by zero, and for a granted period of at least a minute sets `transmit`
on the ticks that are multiples of it. -/
structure TimerSound (app : Application) (psm : PsmResult) : Prop where
  divides : ∀ c, (application app psm).Reachable anyEvent c → .divisionByZero ∉ c.log
  fires : ∀ tau : S32, psm = .granted tau → 60 ≤ tau.val → ∀ c,
    (application app psm).Reachable anyEvent c → ticks c.log + 1 < 2 ^ 32 →
    let passes := decide (tau.val.toNat / 60 ∣ ticks c.log + 1)
    ((application app psm).step c.state .tick).2 = [.ticked passes] ∧
      ((application app psm).step c.state .tick).1.transmit = (c.state.transmit || passes)

/-! ## The divisor -/

theorem divisor_granted (tau : S32) :
    divisor (tau.val.tdiv 60) = 0 ↔ -60 < tau.val ∧ tau.val < 60 := by
  obtain ⟨tau, low, high⟩ := tau
  simp only [divisor]
  rcases Int.le_total 0 tau with nonneg | negative
  · rw [Int.tdiv_eq_ediv_of_nonneg nonneg]
    omega
  · -- the quotient is rounded towards zero on this side too
    have mirrored : tau.tdiv 60 = -((-tau) / 60) := by
      rw [← Int.tdiv_eq_ediv_of_nonneg (by omega), Int.neg_tdiv, Int.neg_neg]
    rw [mirrored]
    omega

/-- The periods of less than a minute, and the failures, give the divisor zero. -/
theorem divisor_ne_zero_iff (app : Application) (psm : PsmResult) :
    divisor (tauInMinutes app psm) ≠ 0 ↔
      ∃ tau, psm = .granted tau ∧ (60 ≤ tau.val ∨ tau.val ≤ -60) := by
  cases psm with
  | failed err =>
    have zero : divisor (tauInMinutes app (.failed err)) = 0 := by
      cases app <;> rfl
    simp [zero]
  | granted tau =>
    have zero := divisor_granted tau
    simp only [tauInMinutes, PsmResult.granted.injEq, exists_eq_left']
    omega

theorem divisor_minutes (tau : S32) (long : 60 ≤ tau.val) :
    divisor (tau.val.tdiv 60) = tau.val.toNat / 60 := by
  obtain ⟨tau, low, high⟩ := tau
  simp only [divisor] at long ⊢
  rw [Int.tdiv_eq_ediv_of_nonneg (by omega)]
  omega

/-! ## Runs -/

/-- The timer has not stopped the processor, and `minutes` counts the ticks. -/
structure Ticking (c : AppConfig) : Prop where
  runs : c.state.halted = false
  fine : .divisionByZero ∉ c.log
  minutes : c.state.minutes = ticks c.log % 2 ^ 32

variable {app : Application} {psm : PsmResult} {c : AppConfig}

/-- The main thread has nothing to do with the timer. -/
theorem MainMove.ticking {s s' : AppState} {outs : List Output} (move : MainMove s s' outs) :
    s'.halted = s.halted ∧ s'.minutes = s.minutes ∧ .divisionByZero ∉ outs ∧ ticks outs = 0 := by
  cases move <;> simp [ticks, Output.tick]

theorem Ticking.of_tick (divides : divisor (tauInMinutes app psm) ≠ 0) (ticking : Ticking c) :
    Ticking ⟨(appTimerHandler (tauInMinutes app psm) c.state).1,
      c.log ++ (appTimerHandler (tauInMinutes app psm) c.state).2⟩ := by
  have runs := ticking.runs
  have fine := ticking.fine
  have minutes : (c.state.minutes + 1) % 2 ^ 32 = (ticks c.log + 1) % 2 ^ 32 := by
    rw [ticking.minutes, Nat.mod_add_mod]
  have counted : ∀ expired, ticks (c.log ++ [.ticked expired]) = ticks c.log + 1 := by
    simp [ticks, Output.tick]
  simp only [appTimerHandler, if_neg divides]
  split
  · exact ⟨runs, by simp [fine], by rw [counted]; exact minutes⟩
  · exact ⟨runs, by simp [fine], by rw [counted]; exact minutes⟩

theorem reachable_ticking (divides : divisor (tauInMinutes app psm) ≠ 0)
    (reach : (application app psm).Reachable anyEvent c) : Ticking c := by
  refine reach.invariant Ticking ⟨rfl, by simp [Machine.start], rfl⟩ ?_
  intro c event _ _ ticking
  have runs : ¬c.state.halted = true := by simp [ticking.runs]
  simp only [Machine.next, application, step, if_neg runs]
  cases event with
  | tick => exact ticking.of_tick divides
  | main ret =>
    obtain ⟨halted, minutes, none, count⟩ := (mainStep_move app c.state ret).ticking
    have fine := ticking.fine
    refine ⟨halted.trans ticking.runs, by simp [fine, none], ?_⟩
    rw [minutes, ticking.minutes]
    simp only [ticks, List.countP_append] at count ⊢
    rw [count, Nat.add_zero]

/-- With a divisor of zero the first tick is fatal. -/
theorem not_timerSound (zero : divisor (tauInMinutes app psm) = 0) : ¬TimerSound app psm := by
  intro sound
  have first : (application app psm).Reachable anyEvent
      ((application app psm).next (application app psm).start .tick) :=
    Machine.Reachable.next .refl trivial
  refine sound.divides _ first ?_
  simp [Machine.next, Machine.start, application, step, appTimerHandler, zero]

/-- The timer of either application is sound exactly when a period of a minute or more was granted,
or a number of seconds that is as far below zero. -/
theorem timerSound_iff (app : Application) (psm : PsmResult) :
    TimerSound app psm ↔ ∃ tau, psm = .granted tau ∧ (60 ≤ tau.val ∨ tau.val ≤ -60) := by
  rw [← divisor_ne_zero_iff app psm]
  constructor
  · intro sound zero
    exact not_timerSound zero sound
  · intro divides
    refine ⟨fun c reach => (reachable_ticking divides reach).fine, ?_⟩
    rintro tau rfl long c reach bound
    have ticking := reachable_ticking divides reach
    have runs : ¬c.state.halted = true := by simp [ticking.runs]
    have minutes : c.state.minutes = ticks c.log := by
      rw [ticking.minutes, Nat.mod_eq_of_lt (by omega)]
    have passes : periodPasses (tauInMinutes app (.granted tau)) c.state =
        decide (tau.val.toNat / 60 ∣ ticks c.log + 1) := by
      simp only [periodPasses, tauInMinutes, divisor_minutes tau long, minutes, Nat.mod_eq_of_lt bound,
        Nat.dvd_iff_mod_eq_zero]
      exact Bool.beq_eq_decide_eq _ _
    simp only [application, step, if_neg runs, appTimerHandler, if_neg divides, ← passes]
    split
    · next expired => simp [expired]
    · next unexpired => simp [unexpired]

/-- The network deactivates the timer, or does not answer. -/
theorem deactivated_timer_faults :
    ¬TimerSound .coapTelenor (.granted ⟨-1, by decide⟩) ∧ ¬TimerSound .mqtt (.failed (-5)) :=
  ⟨not_timerSound (by decide), not_timerSound (by decide)⟩

end DtApp.Periodic
