import Mathlib.Data.Int.ModEq
import DtApp.Library.Machine

/-!
# The periodic test of the two applications

`main.c` of `coap_telenor` and of `mqtt`, with `WITH_PSM` and `TEST_PERIODIC`: a timer interrupt
raises a flag when a period has passed, and the main loop uploads when it finds the flag raised.
The interrupt may come between any two accesses of the loop to the flags, so each access is a step
of its own.
-/
namespace DtApp.Periodic

/-- A value of type `int`. -/
abbrev S32 := { x : Int // -2 ^ 31 ≤ x ∧ x < 2 ^ 31 }

/-- What `lte_lc_psm_get` does to `actual_tau`: nothing when it fails. -/
inductive PsmResult where
  | failed (err : Int)
  | granted (tau : S32)
  deriving DecidableEq

/-! ## The two applications -/

inductive Application where
  | coapTelenor
  | mqtt
  deriving DecidableEq

namespace Application

/-- What the static variable `actual_tau` is initialised to. -/
def actualTau : Application → Int
  | coapTelenor => 0
  | mqtt => 10

/-- The test of the result of the upload, `coap_endpoint_post` or `mqtt_data_publish`. -/
def uploaded : Application → Int → Bool
  -- `COAP_RESPONSE_CODE_CREATED`
  | coapTelenor, ret => ret == 0x41
  | mqtt, err => !(err < 0)

/-- What `run_periodic` returns after a failed upload. -/
def uploadError : Application → Int → Int
  | coapTelenor, _ => -1
  | mqtt, err => err

/-- Whether the loop sleeps between two calls of `run_periodic`. -/
def pauses : Application → Bool
  | coapTelenor => true
  | mqtt => false

/-- Whether `main` gives up after an error of `lte_lc_psm_get`. -/
def checksPsm : Application → Bool
  | coapTelenor => false
  | mqtt => true

/-- A failed upload ends the loop. -/
theorem uploadError_neg (app : Application) (ret : Int) (failed : app.uploaded ret = false) :
    app.uploadError ret < 0 := by
  cases app with
  | coapTelenor => exact (by decide : (-1 : Int) < 0)
  | mqtt => simpa [uploaded, uploadError] using failed

end Application

def maxSamples : Nat := 5

/-- `actual_tau` in minutes, as it is when the timer is started. The division rounds to zero. -/
def tauInMinutes (app : Application) (psm : PsmResult) : Int :=
  match psm with
  | .failed _ => app.actualTau.tdiv 60
  | .granted tau => tau.val.tdiv 60

/-! ## State -/

/-- Where the main thread stands, by what it does next. -/
inductive Place where
  /-- The first test of `transmit` in `run_periodic`. -/
  | entry
  | uploading
  /-- The upload succeeded; `transmit_finished` is set next. -/
  | finishing
  /-- After the sleep `transmit` is tested a second time. -/
  | sleeping
  /-- It was set; `transmit_finished` is tested next. -/
  | testing
  /-- Both were set; `transmit` is cleared next. -/
  | clearing
  /-- Then `transmit_finished`. -/
  | resetting
  | counting
  | returned (err : Int)
  /-- The sleep of the loop between two calls. -/
  | pausing
  /-- `main` returned. -/
  | ended
  deriving DecidableEq

structure AppState where
  transmit : Bool
  transmitFinished : Bool
  sampleCnt : Nat
  minutes : Nat
  place : Place
  /-- The processor has stopped at a division by zero. -/
  halted : Bool
  -- ghost: how often `run_periodic` was called
  calls : Nat
  deriving DecidableEq

inductive Event where
  /-- The timer calls `app_timer_handler`. -/
  | tick
  /-- The main thread takes a step; an upload that ends with it gives the result. -/
  | main (ret : Int)
  deriving DecidableEq

inductive Output where
  /-- The handler ran, and set `transmit` if a period has passed. -/
  | ticked (expired : Bool)
  | divisionByZero
  /-- A call found `transmit` as given. -/
  | called (call : Nat) (transmit : Bool)
  | uploadStarted (call : Nat)
  | uploaded (call : Nat)
  | uploadFailed (call : Nat)
  | transmitCleared (call : Nat)
  | loopEnded
  deriving DecidableEq

/-! ## Steps -/

variable (app : Application) (actualTau : Int)

/-- The divisor `actual_tau` is converted to the type of `minutes`. -/
def divisor : Nat := (actualTau % 2 ^ 32).toNat

/-- Whether the next invocation of the handler finds that a period has passed. -/
def periodPasses (s : AppState) : Bool := (s.minutes + 1) % 2 ^ 32 % divisor actualTau == 0

def appTimerHandler (s : AppState) : AppState × List Output :=
  let minutes := (s.minutes + 1) % 2 ^ 32
  if divisor actualTau = 0 then ({ s with minutes, halted := true }, [.divisionByZero])
  else if periodPasses actualTau s then ({ s with minutes, transmit := true }, [.ticked true])
  else ({ s with minutes }, [.ticked false])

/-- One step of `run_periodic`, or of the loop around it. -/
def mainStep (s : AppState) (ret : Int) : AppState × List Output :=
  match s.place with
  | .entry =>
    let call := s.calls + 1
    if s.transmit then
      ({ s with place := .uploading, calls := call }, [.called call true, .uploadStarted call])
    else ({ s with place := .sleeping, calls := call }, [.called call false])
  | .uploading =>
    if app.uploaded ret then ({ s with place := .finishing }, [.uploaded s.calls])
    else ({ s with place := .returned (app.uploadError ret) }, [.uploadFailed s.calls])
  | .finishing => ({ s with place := .sleeping, transmitFinished := true }, [])
  -- the second operand of `&&` is read only if the first one is true
  | .sleeping => ({ s with place := if s.transmit then .testing else .returned 0 }, [])
  | .testing => ({ s with place := if s.transmitFinished then .clearing else .returned 0 }, [])
  | .clearing => ({ s with place := .resetting, transmit := false }, [.transmitCleared s.calls])
  | .resetting => ({ s with place := .counting, transmitFinished := false }, [])
  | .counting =>
    if s.sampleCnt ≥ maxSamples then ({ s with place := .returned (-1) }, [])
    else ({ s with place := .returned 0, sampleCnt := (s.sampleCnt + 1) % 2 ^ 8 }, [])
  | .returned err =>
    if err < 0 then ({ s with place := .ended }, [.loopEnded])
    else ({ s with place := if app.pauses then .pausing else .entry }, [])
  | .pausing => ({ s with place := .entry }, [])
  | .ended => (s, [])

/-- What a step of the main thread can be, from where it stands. -/
inductive MainMove (s : AppState) : AppState → List Output → Prop
  | upload : s.place = .entry → s.transmit = true →
      MainMove s { s with place := .uploading, calls := s.calls + 1 }
        [.called (s.calls + 1) true, .uploadStarted (s.calls + 1)]
  | skip : s.place = .entry → s.transmit = false →
      MainMove s { s with place := .sleeping, calls := s.calls + 1 } [.called (s.calls + 1) false]
  | uploaded : s.place = .uploading →
      MainMove s { s with place := .finishing } [.uploaded s.calls]
  | failed (err : Int) : s.place = .uploading → err < 0 →
      MainMove s { s with place := .returned err } [.uploadFailed s.calls]
  | finish : s.place = .finishing →
      MainMove s { s with place := .sleeping, transmitFinished := true } []
  | wake : s.place = .sleeping → s.transmit = true → MainMove s { s with place := .testing } []
  | unset : s.place = .sleeping → s.transmit = false → MainMove s { s with place := .returned 0 } []
  | both : s.place = .testing → s.transmitFinished = true →
      MainMove s { s with place := .clearing } []
  | unfinished : s.place = .testing → s.transmitFinished = false →
      MainMove s { s with place := .returned 0 } []
  | clear : s.place = .clearing →
      MainMove s { s with place := .resetting, transmit := false } [.transmitCleared s.calls]
  | reset : s.place = .resetting →
      MainMove s { s with place := .counting, transmitFinished := false } []
  | last : s.place = .counting → s.sampleCnt ≥ maxSamples →
      MainMove s { s with place := .returned (-1) } []
  | count : s.place = .counting → s.sampleCnt < maxSamples →
      MainMove s { s with place := .returned 0, sampleCnt := s.sampleCnt + 1 } []
  | leave (err : Int) : s.place = .returned err → err < 0 →
      MainMove s { s with place := .ended } [.loopEnded]
  | pause (err : Int) : s.place = .returned err → ¬err < 0 → MainMove s { s with place := .pausing } []
  | again (err : Int) : s.place = .returned err → ¬err < 0 → MainMove s { s with place := .entry } []
  | resume : s.place = .pausing → MainMove s { s with place := .entry } []
  | stay : s.place = .ended → MainMove s s []

theorem mainStep_move (s : AppState) (ret : Int) :
    MainMove s (mainStep app s ret).1 (mainStep app s ret).2 := by
  unfold mainStep
  split
  · next at_ =>
    dsimp only
    split
    · next set => exact .upload at_ set
    · next unset => exact .skip at_ (by simpa using unset)
  · next at_ =>
    split
    · exact .uploaded at_
    · next failed => exact .failed _ at_ (app.uploadError_neg ret (by simpa using failed))
  · next at_ => exact .finish at_
  · next at_ =>
    split
    · next set => exact .wake at_ set
    · next unset => exact .unset at_ (by simpa using unset)
  · next at_ =>
    split
    · next finished => exact .both at_ finished
    · next unfinished => exact .unfinished at_ (by simpa using unfinished)
  · next at_ => exact .clear at_
  · next at_ => exact .reset at_
  · next at_ =>
    split
    · next last => exact .last at_ last
    · next few =>
      -- the counter is far from the end of its eight bits
      have small : (s.sampleCnt + 1) % 2 ^ 8 = s.sampleCnt + 1 := by
        simp only [maxSamples] at few
        omega
      simp only [small]
      exact .count at_ (by omega)
  · next err at_ =>
    split
    · next negative => exact .leave err at_ negative
    · next fine =>
      split
      · exact .pause err at_ fine
      · exact .again err at_ fine
  · next at_ => exact .resume at_
  · next at_ => exact .stay at_

def step (s : AppState) (event : Event) : AppState × List Output :=
  if s.halted then (s, [])
  else
    match event with
    | .tick => appTimerHandler actualTau s
    | .main ret => mainStep app s ret

/-- What `main` comes to when it has started the timer: the error of `lte_lc_psm_get` is looked at
only then. -/
def startPlace (psm : PsmResult) : Place :=
  match psm with
  | .failed err => if app.checksPsm ∧ err ≠ 0 then .ended else .entry
  | .granted _ => .entry

theorem startPlace_cases (psm : PsmResult) :
    startPlace app psm = .entry ∨ startPlace app psm = .ended := by
  unfold startPlace
  split
  · split
    · exact .inr rfl
    · exact .inl rfl
  · exact .inl rfl

/-- The application from the start of its timer on. -/
def application (psm : PsmResult) : Machine AppState Event Output where
  init := ⟨false, false, 1, 0, startPlace app psm, false, 0⟩
  step := step app (tauInMinutes app psm)

abbrev AppConfig := Machine.Config AppState Output

def anyEvent : AppConfig → Event → Prop := fun _ _ => True

end DtApp.Periodic
