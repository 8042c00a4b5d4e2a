import DtApp.Coap.Encoding
import DtApp.Periodic.Application

/-!
# The size sweep and the buttons

`run_size_sweep` of the two applications with the loop that runs it under `TEST_SWEEP`, beside
`button_handler`. Each of the two has a static `test_index` of its own, and each may run while the
other one waits for its upload; the handler is called from one thread.
-/
namespace DtApp.Periodic

namespace Application

def sizeStep : Application → Nat
  | coapTelenor => 41
  | mqtt => 64

def testDataSize : Application → Nat
  | coapTelenor => 1439
  | mqtt => 4096

/-- The size of the literal `testData`, with the zero at its end. -/
def testDataBytes : Application → Nat
  | coapTelenor => 1440
  | mqtt => 4096

/-- Whether `run_size_sweep` uploads at this index: `mqtt` looks at it before the upload. -/
def sweepStarts : Application → Nat → Bool
  | coapTelenor, _ => true
  | mqtt, testIndex => testIndex < mqtt.testDataSize

/-- Whether it ends the test at the next index: `coap_telenor` looks at it after the upload. -/
def sweepEnds : Application → Nat → Bool
  | coapTelenor, testIndex => testIndex > coapTelenor.testDataSize
  | mqtt, _ => false

end Application

/-! ## State -/

/-- What is uploaded: the start of `testData`, or a sample. -/
inductive Upload where
  | testData (size : Nat)
  | sample (value : UInt8)
  deriving DecidableEq

inductive Uploader where
  | sweep
  | button
  deriving DecidableEq

/-- Where the main thread stands, by what it does next. -/
inductive SweepPlace where
  | entry
  | uploading
  | returned (err : Int)
  | ended
  deriving DecidableEq

structure SweepState where
  /-- `test_index` of `run_size_sweep`. -/
  testIndex : Nat
  place : SweepPlace
  /-- `test_index` of `button_handler`. -/
  buttonIndex : Nat
  /-- The upload that `button_handler` waits for. -/
  handling : Option Upload
  deriving DecidableEq

inductive SweepEvent where
  /-- The main thread takes a step; an upload that ends with it gives the result. -/
  | main (ret : Int)
  | button (buttonStates hasChanged rand : UInt32)
  | buttonUploaded (ret : Int)
  deriving DecidableEq

def SweepEvent.isMain : SweepEvent → Bool
  | .main _ => true
  | _ => false

inductive SweepOutput where
  | started (uploader : Uploader) (upload : Upload)
  | finished (uploader : Uploader) (upload : Upload) (ret : Int)
  | loopEnded
  deriving DecidableEq

/-! ## Steps -/

variable (app : Application)

/-- One step of `run_size_sweep`, or of the loop around it. -/
def runSizeSweep (s : SweepState) (ret : Int) : SweepState × List SweepOutput :=
  match s.place with
  | .entry =>
    if app.sweepStarts s.testIndex then
      ({ s with place := .uploading }, [.started .sweep (.testData s.testIndex)])
    else ({ s with place := .returned (-1), testIndex := 0 }, [])
  | .uploading =>
    let outs := [.finished .sweep (.testData s.testIndex) ret]
    if app.uploaded ret then
      let testIndex := (s.testIndex + app.sizeStep) % 2 ^ 32
      ({ s with testIndex, place := .returned (if app.sweepEnds testIndex then -1 else 0) }, outs)
    else ({ s with place := .returned (app.uploadError ret) }, outs)
  | .returned err =>
    if err < 0 then ({ s with place := .ended }, [.loopEnded]) else ({ s with place := .entry }, [])
  | .ended => (s, [])

def dkBtn1Msk : UInt32 := 1
def dkBtn2Msk : UInt32 := 2

/-- A random value below 255. -/
def sensorDataGet (rand : UInt32) : UInt8 := (rand % 255).toUInt8

/-- `button_handler` up to its upload. -/
def buttonHandler (s : SweepState) (buttonStates hasChanged rand : UInt32) :
    SweepState × List SweepOutput :=
  let start upload : SweepState × List SweepOutput :=
    ({ s with handling := some upload }, [.started .button upload])
  if hasChanged &&& buttonStates &&& dkBtn1Msk ≠ 0 then
    match app with
    | .coapTelenor =>
      if s.buttonIndex ≤ Application.coapTelenor.testDataSize then start (.testData s.buttonIndex)
      else ({ s with buttonIndex := 0 }, [])
    | .mqtt => start (.sample (sensorDataGet rand))
  else if hasChanged &&& buttonStates &&& dkBtn2Msk ≠ 0 then
    match app with
    | .coapTelenor => ({ s with buttonIndex := 0 }, [])
    | .mqtt => (s, [])
  else (s, [])

/-- The rest of `button_handler`. -/
def buttonUploaded (s : SweepState) (upload : Upload) (ret : Int) : SweepState × List SweepOutput :=
  let buttonIndex := match app with
    | .coapTelenor => if app.uploaded ret then (s.buttonIndex + 10) % 2 ^ 32 else s.buttonIndex
    | .mqtt => s.buttonIndex
  ({ s with buttonIndex, handling := none }, [.finished .button upload ret])

def sweepStep (s : SweepState) : SweepEvent → SweepState × List SweepOutput
  | .main ret => runSizeSweep app s ret
  | .button buttonStates hasChanged rand =>
    -- the handler is not called again before it has returned
    if s.handling.isNone then buttonHandler app s buttonStates hasChanged rand else (s, [])
  | .buttonUploaded ret =>
    match s.handling with
    | some upload => buttonUploaded app s upload ret
    | none => (s, [])

/-- The test from the start of the loop on. -/
def sweep : Machine SweepState SweepEvent SweepOutput where
  init := ⟨0, .entry, 0, none⟩
  step := sweepStep app

abbrev SweepConfig := Machine.Config SweepState SweepOutput

/-! ## The uploads of the sweep -/

/-- The uploads of the sweep that have ended, with their results. -/
def sweepUploads (log : List SweepOutput) : List (Upload × Int) :=
  log.filterMap fun
    | .finished .sweep upload ret => some (upload, ret)
    | _ => none

@[simp] theorem sweepUploads_append (log outs : List SweepOutput) :
    sweepUploads (log ++ outs) = sweepUploads log ++ sweepUploads outs :=
  List.filterMap_append

@[simp] theorem sweepUploads_nil : sweepUploads [] = [] := rfl

@[simp] theorem sweepUploads_started (uploader : Uploader) (upload : Upload) (log : List SweepOutput) :
    sweepUploads (.started uploader upload :: log) = sweepUploads log := rfl

@[simp] theorem sweepUploads_finished (upload : Upload) (ret : Int) (log : List SweepOutput) :
    sweepUploads (.finished .sweep upload ret :: log) = (upload, ret) :: sweepUploads log := rfl

@[simp] theorem sweepUploads_loopEnded (log : List SweepOutput) :
    sweepUploads (.loopEnded :: log) = sweepUploads log := rfl

/-- How many uploads a whole sweep has. -/
def Application.sweepLength : Application → Nat
  | coapTelenor => 36
  | mqtt => 64

variable {app}

/-- An index at which the sweep stops is behind all of it. -/
theorem Application.sweep_over {count : Nat} (few : count ≤ app.sweepLength)
    (stops : app.sweepStarts (app.sizeStep * count) = false ∨ app.sweepEnds (app.sizeStep * count) = true) :
    count = app.sweepLength := by
  cases app with
  | coapTelenor =>
    have behind : 41 * count > 1439 := of_decide_eq_true (stops.resolve_left nofun)
    simp only [sweepLength] at few ⊢
    omega
  | mqtt =>
    have behind : ¬64 * count < 4096 := of_decide_eq_false (stops.resolve_right nofun)
    simp only [sweepLength] at few ⊢
    omega

theorem Application.sweep_left {count : Nat} (ends : app.sweepEnds (app.sizeStep * count) = false)
    (starts : app.sweepStarts (app.sizeStep * count) = true) : count < app.sweepLength := by
  cases app with
  | coapTelenor =>
    have inside : ¬41 * count > 1439 := of_decide_eq_false ends
    simp only [sweepLength]
    omega
  | mqtt =>
    have inside : 64 * count < 4096 := of_decide_eq_true starts
    simp only [sweepLength]
    omega

variable (app) in
/-- The uploads of a sweep: every size once, in order, and none after one that failed. -/
structure SweepUploads (uploads : List (Upload × Int)) : Prop where
  sizes : uploads.map Prod.fst =
    (List.range uploads.length).map fun k => .testData (app.sizeStep * k)
  few : uploads.length ≤ app.sweepLength
  succeeded : ∀ u ∈ uploads.dropLast, app.uploaded u.2 = true

variable (app) in
/-- All sizes were uploaded, or the last upload failed. -/
def SweepOver (uploads : List (Upload × Int)) : Prop :=
  uploads.length = app.sweepLength ∨
    ∃ before upload ret, uploads = before ++ [(upload, ret)] ∧ app.uploaded ret = false

theorem SweepUploads.append {uploads : List (Upload × Int)} (holds : SweepUploads app uploads)
    (all : ∀ u ∈ uploads, app.uploaded u.2 = true) (left : uploads.length < app.sweepLength) (ret : Int) :
    SweepUploads app (uploads ++ [(.testData (app.sizeStep * uploads.length), ret)]) where
  sizes := by
    simp only [List.map_append, List.length_append, List.length_singleton, List.range_succ, holds.sizes,
      List.map_cons, List.map_nil]
  few := by
    rw [List.length_append]
    exact left
  succeeded := by rwa [List.dropLast_concat]

variable (app) in
/-- Between two uploads of the sweep. -/
structure Between (testIndex : Nat) (uploads : List (Upload × Int)) : Prop where
  index : testIndex = app.sizeStep * uploads.length
  all : ∀ u ∈ uploads, app.uploaded u.2 = true
  left : app.sweepStarts testIndex = true → uploads.length < app.sweepLength

variable (app) in
/-- What holds of the main thread after its uploads. -/
def Sweeping (s : SweepState) (uploads : List (Upload × Int)) : Prop :=
  match s.place with
  | .entry => Between app s.testIndex uploads
  | .uploading => Between app s.testIndex uploads ∧ uploads.length < app.sweepLength
  | .returned err => if err < 0 then SweepOver app uploads else Between app s.testIndex uploads
  | .ended => SweepOver app uploads

theorem Application.size_lt {count : Nat} (few : count ≤ app.sweepLength) :
    app.sizeStep * count < 2 ^ 32 := by
  cases app with
  | coapTelenor => simp only [sizeStep, sweepLength] at few ⊢; omega
  | mqtt => simp only [sizeStep, sweepLength] at few ⊢; omega

theorem runSizeSweep_sweeping {s : SweepState} {uploads : List (Upload × Int)}
    (holds : SweepUploads app uploads) (sweeping : Sweeping app s uploads) (ret : Int) :
    SweepUploads app (uploads ++ sweepUploads (runSizeSweep app s ret).2) ∧
      Sweeping app (runSizeSweep app s ret).1 (uploads ++ sweepUploads (runSizeSweep app s ret).2) := by
  unfold runSizeSweep
  unfold Sweeping at sweeping
  split at sweeping
  · split
    · rename_i starts
      simpa [Sweeping] using ⟨holds, sweeping, sweeping.left starts⟩
    · rename_i stops
      rw [sweeping.index] at stops
      have whole := Application.sweep_over holds.few (.inl (by simpa using stops))
      simpa [Sweeping] using ⟨holds, .inl whole⟩
  · obtain ⟨between, left⟩ := sweeping
    have longer := holds.append between.all left ret
    rw [← between.index] at longer
    split
    · rename_i uploaded
      refine ⟨longer, ?_⟩
      have index : (s.testIndex + app.sizeStep) % 2 ^ 32 = app.sizeStep * (uploads.length + 1) := by
        have small := app.size_lt (Nat.succ_le_of_lt left)
        rw [between.index, ← Nat.mul_succ]
        exact Nat.mod_eq_of_lt small
      simp only [Sweeping, index]
      cases ends : app.sweepEnds (app.sizeStep * (uploads.length + 1)) with
      | true =>
        have whole := Application.sweep_over (Nat.succ_le_of_lt left) (.inr ends)
        simp only [if_true, show (-1 : Int) < 0 from by decide]
        exact .inl (by rw [List.length_append]; exact whole)
      | false =>
        simp only [Bool.false_eq_true, if_false, Int.lt_irrefl]
        refine ⟨by simp, ?_, fun starts => ?_⟩
        · exact List.forall_mem_append.mpr ⟨between.all, by simpa using uploaded⟩
        · rw [List.length_append]
          exact Application.sweep_left ends starts
    · rename_i failed
      refine ⟨longer, ?_⟩
      have negative := app.uploadError_neg ret (by simpa using failed)
      simp only [Sweeping, if_pos negative]
      exact .inr ⟨uploads, _, ret, rfl, by simpa using failed⟩
  · split
    · rename_i negative
      rw [if_pos negative] at sweeping
      simpa [Sweeping] using ⟨holds, sweeping⟩
    · rename_i nonneg
      rw [if_neg nonneg] at sweeping
      simpa [Sweeping] using ⟨holds, sweeping⟩
  · rename_i place
    simpa [place, Sweeping] using ⟨holds, sweeping⟩

/-- The button leaves the sweep alone. -/
theorem buttonHandler_frame (s : SweepState) (buttonStates hasChanged rand : UInt32) :
    (buttonHandler app s buttonStates hasChanged rand).1.testIndex = s.testIndex ∧
      (buttonHandler app s buttonStates hasChanged rand).1.place = s.place ∧
      sweepUploads (buttonHandler app s buttonStates hasChanged rand).2 = [] := by
  unfold buttonHandler
  split
  · split
    · split <;> exact ⟨rfl, rfl, rfl⟩
    · exact ⟨rfl, rfl, rfl⟩
  · split
    · split <;> exact ⟨rfl, rfl, rfl⟩
    · exact ⟨rfl, rfl, rfl⟩

variable (app) in
/-- A step of the system is a step of the main thread, or leaves the sweep alone. -/
theorem sweepStep_cases (s : SweepState) (event : SweepEvent) :
    (∃ ret, event = .main ret) ∨ event.isMain = false ∧
      (sweepStep app s event).1.testIndex = s.testIndex ∧ (sweepStep app s event).1.place = s.place ∧
        sweepUploads (sweepStep app s event).2 = [] := by
  cases event with
  | main ret => exact .inl ⟨ret, rfl⟩
  | button buttonStates hasChanged rand =>
    refine .inr ⟨rfl, ?_⟩
    simp only [sweepStep]
    split
    · exact buttonHandler_frame s buttonStates hasChanged rand
    · exact ⟨rfl, rfl, rfl⟩
  | buttonUploaded ret =>
    refine .inr ⟨rfl, ?_⟩
    simp only [sweepStep]
    split <;> exact ⟨rfl, rfl, rfl⟩

theorem reachable_sweeping {ok : SweepConfig → SweepEvent → Prop} {c : SweepConfig}
    (reach : (sweep app).Reachable ok c) :
    SweepUploads app (sweepUploads c.log) ∧ Sweeping app c.state (sweepUploads c.log) := by
  refine reach.invariant
    (fun c => SweepUploads app (sweepUploads c.log) ∧ Sweeping app c.state (sweepUploads c.log)) ?_ ?_
  · refine ⟨⟨rfl, Nat.zero_le _, nofun⟩, ⟨rfl, nofun, fun _ => ?_⟩⟩
    cases app <;> decide
  · rintro c event _ _ ⟨holds, sweeping⟩
    simp only [Machine.next, sweep, sweepUploads_append]
    rcases sweepStep_cases app c.state event with ⟨ret, rfl⟩ | ⟨_, index, place, silent⟩
    · exact runSizeSweep_sweeping holds sweeping ret
    · rw [silent, List.append_nil]
      refine ⟨holds, ?_⟩
      unfold Sweeping at sweeping ⊢
      rwa [place, index]

/-- The second upload of a sweep fails. -/
def failingEvents : List SweepEvent := [.main 0, .main 0x41, .main 0, .main 0, .main (-11)]

variable (app) in
/-- How many steps of the main thread are left at most. -/
def mainStepsLeft (c : SweepConfig) : Nat :=
  let left := 3 * (app.sweepLength - (sweepUploads c.log).length)
  match c.state.place with
  | .entry => left + 2
  | .uploading => left + 1
  | .returned err => if err < 0 then 1 else left + 3
  | .ended => 0

theorem runSizeSweep_mainStepsLeft {c : SweepConfig} (sweeping : Sweeping app c.state (sweepUploads c.log))
    (running : c.state.place ≠ .ended) (ret : Int) :
    mainStepsLeft app ((sweep app).next c (.main ret)) + 1 ≤ mainStepsLeft app c := by
  unfold Sweeping at sweeping
  simp only [mainStepsLeft, Machine.next, sweep, sweepStep, runSizeSweep, sweepUploads_append,
    List.length_append]
  cases place : c.state.place with
  | entry =>
    by_cases starts : app.sweepStarts c.state.testIndex = true
    · simp [starts]
    · simp [starts]
  | uploading =>
    rw [place] at sweeping
    have left := sweeping.2
    by_cases uploaded : app.uploaded ret = true
    · simp only [uploaded, if_true]
      cases app.sweepEnds ((c.state.testIndex + app.sizeStep) % 2 ^ 32) with
      | true => simp; omega
      | false => simp; omega
    · have negative := app.uploadError_neg ret (by simpa using uploaded)
      simp [uploaded, negative]
      omega
  | returned err => by_cases negative : err < 0 <;> simp [negative]
  | ended => exact absurd place running

theorem next_mainStepsLeft {ok : SweepConfig → SweepEvent → Prop} {c : SweepConfig}
    (reach : (sweep app).Reachable ok c) (running : c.state.place ≠ .ended) (event : SweepEvent) :
    mainStepsLeft app ((sweep app).next c event) + (if event.isMain then 1 else 0) ≤ mainStepsLeft app c := by
  rcases sweepStep_cases app c.state event with ⟨ret, rfl⟩ | ⟨other, _, place, silent⟩
  · exact runSizeSweep_mainStepsLeft (reachable_sweeping reach).2 running ret
  · simp [mainStepsLeft, Machine.next, sweep, place, silent, other]

/-- The end is the end. -/
theorem next_ended {c : SweepConfig} (event : SweepEvent) (ended : c.state.place = .ended) :
    ((sweep app).next c event).state.place = .ended := by
  rcases sweepStep_cases app c.state event with ⟨ret, rfl⟩ | ⟨_, _, place, _⟩
  · simp [Machine.next, sweep, sweepStep, runSizeSweep, ended]
  · exact place.trans ended

theorem runSizeSweep_started {s : SweepState} {uploads : List (Upload × Int)}
    (sweeping : Sweeping app s uploads) {ret : Int} {uploader : Uploader} {upload : Upload}
    (started : .started uploader upload ∈ (runSizeSweep app s ret).2) :
    ∃ count < app.sweepLength, upload = .testData (app.sizeStep * count) := by
  unfold Sweeping at sweeping
  cases place : s.place with
  | entry =>
    rw [place] at sweeping
    by_cases starts : app.sweepStarts s.testIndex = true
    · simp only [runSizeSweep, place, starts, if_true, List.mem_singleton, SweepOutput.started.injEq] at started
      exact ⟨uploads.length, sweeping.left starts, by rw [started.2, sweeping.index]⟩
    · simp [runSizeSweep, place, starts] at started
  | uploading =>
    simp only [runSizeSweep, place] at started
    split at started <;> simp at started
  | returned err =>
    simp only [runSizeSweep, place] at started
    split at started <;> simp at started
  | ended => simp [runSizeSweep, place] at started

theorem Application.size_le {count : Nat} (few : count < app.sweepLength) :
    app.sizeStep * count ≤ app.testDataSize := by
  cases app with
  | coapTelenor => simp only [sizeStep, sweepLength, testDataSize] at few ⊢; omega
  | mqtt => simp only [sizeStep, sweepLength, testDataSize] at few ⊢; omega

theorem buttonHandler_started {s : SweepState} {buttonStates hasChanged rand : UInt32}
    {uploader : Uploader} {upload : Upload}
    (started : .started uploader upload ∈ (buttonHandler .coapTelenor s buttonStates hasChanged rand).2) :
    s.buttonIndex ≤ Application.coapTelenor.testDataSize ∧ upload = .testData s.buttonIndex := by
  unfold buttonHandler at started
  split at started
  · by_cases inside : s.buttonIndex ≤ Application.coapTelenor.testDataSize
    · simp only [if_pos inside, List.mem_singleton, SweepOutput.started.injEq] at started
      exact ⟨inside, started.2⟩
    · simp [inside] at started
  · split at started <;> simp at started

/-- Every upload of `coap_telenor` is of the start of `testData`. -/
theorem started_fits {ok : SweepConfig → SweepEvent → Prop} {c : SweepConfig}
    (reach : (sweep .coapTelenor).Reachable ok c) {uploader : Uploader} {upload : Upload}
    (started : .started uploader upload ∈ c.log) :
    ∃ size ≤ Application.coapTelenor.testDataSize, upload = .testData size := by
  obtain ⟨d, event, reached, _, _, member⟩ := reach.origin_of_mem started
  cases event with
  | main ret =>
    obtain ⟨count, few, rfl⟩ := runSizeSweep_started (reachable_sweeping reached).2 member
    exact ⟨_, Application.size_le few, rfl⟩
  | button buttonStates hasChanged rand =>
    simp only [sweep, sweepStep] at member
    split at member
    · obtain ⟨inside, rfl⟩ := buttonHandler_started member
      exact ⟨_, inside, rfl⟩
    · cases member
  | buttonUploaded ret =>
    simp only [sweep, sweepStep] at member
    split at member <;> simp [buttonUploaded] at member

/-- `straight`, `and`, `narrow`. -/
def path : List (List UInt8) :=
  [[115, 116, 114, 97, 105, 103, 104, 116], [97, 110, 100], [110, 97, 114, 114, 111, 119]]

/-- What `coap_endpoint_post` is called with. -/
def uploadArgs (call : Nat) (remoteAddr : Coap.SockAddr) (testData : List UInt8) (size : Nat) :
    Coap.PostArgs :=
  Coap.coapEndpointPostArgs call remoteAddr (some path) (some testData) size

theorem uploadArgs_segments (call : Nat) (remoteAddr : Coap.SockAddr) (testData : List UInt8) (size : Nat) :
    (uploadArgs call remoteAddr testData size).segments = path := rfl

theorem uploadArgs_given (call : Nat) (remoteAddr : Coap.SockAddr) (testData : List UInt8) (size : Nat) :
    (uploadArgs call remoteAddr testData size).given = testData.take size := rfl

/-- A post to the path is 32 bytes and, with a payload, the marker and the payload. -/
theorem postSize_upload (call : Nat) (remoteAddr : Coap.SockAddr) {testData : List UInt8} {size : Nat}
    (low : size < 2 ^ 16) (inside : size ≤ testData.length) :
    Coap.postSize (· % 2 ^ 16) (uploadArgs call remoteAddr testData size) =
      32 + if size = 0 then 0 else 1 + size := by
  have taken : (testData.take size).length = size := List.length_take_of_le inside
  have options : (path.map fun segment => Coap.uriPathSize (segment.length % 2 ^ 16)).sum = 20 := by decide
  rw [Coap.postSize, uploadArgs_segments, options, uploadArgs_given, taken, Nat.mod_eq_of_lt low]
  by_cases empty : size = 0
  · simp [empty]
  · have given : testData.take size ≠ [] := by
      intro none
      rw [none] at taken
      exact empty taken.symm
    rw [if_neg given, if_neg empty]

theorem uploadArgs_readable (call : Nat) (remoteAddr : Coap.SockAddr) {testData : List UInt8} {size : Nat}
    (inside : size ≤ testData.length) : (uploadArgs call remoteAddr testData size).Readable := by
  rintro bytes same
  cases same
  exact Int.ofNat_le.mpr inside

theorem uploadArgs_short (call : Nat) (remoteAddr : Coap.SockAddr) {testData : List UInt8} {size : Nat}
    (low : size < 2 ^ 16) : Coap.ShortLengths (uploadArgs call remoteAddr testData size) where
  path := by
    rw [uploadArgs_segments]
    decide
  payload := by
    rw [uploadArgs_given, List.length_take]
    omega

section

variable {z : Coap.Zephyr} (encodes : z.EncodesBytes) {testData : List UInt8} (remoteAddr : Coap.SockAddr)
  {env : Coap.Env} (buffer : env.calloc 0 = true) (item : env.calloc 1 = true)

include encodes buffer item

/-- `TEST_DATA_SIZE` is the size of the largest payload that fits. -/
theorem upload_accepted_iff (call : Nat) {size : Nat} (low : size < 2 ^ 16)
    (inside : size ≤ testData.length) :
    (Coap.coapEndpointPostAsync z env call (uploadArgs call remoteAddr testData size)).1 = 0 ↔
      size ≤ Application.coapTelenor.testDataSize := by
  rw [Coap.post_accepted_iff encodes env call _ buffer item
    (uploadArgs_readable call remoteAddr inside), postSize_upload call remoteAddr low inside]
  simp only [Application.testDataSize, Coap.maxCoapMsgLen]
  by_cases empty : size = 0
  · simp [empty]
  · rw [if_neg empty]
    omega

/-- No upload of `coap_telenor`, of the sweep or of a button, is refused for its size, and the message
that is queued for it has its part of `testData`. -/
theorem uploads_accepted {ok : SweepConfig → SweepEvent → Prop} {c : SweepConfig}
    (reach : (sweep .coapTelenor).Reachable ok c) {uploader : Uploader} {upload : Upload}
    (started : .started uploader upload ∈ c.log)
    (bytes : testData.length = Application.coapTelenor.testDataBytes) (call : Nat) :
    ∃ size packet, upload = .testData size ∧
      (Coap.coapEndpointPostAsync z env call (uploadArgs call remoteAddr testData size)).1 = 0 ∧
      (Coap.coapEndpointPostAsync z env call (uploadArgs call remoteAddr testData size)).2.1 =
        some (Coap.txItem call (uploadArgs call remoteAddr testData size) packet) ∧
      packet.wire = Rfc7252.encode ⟨1, Coap.postHeader env, Coap.pathOptions path, testData.take size⟩ := by
  obtain ⟨size, fits, rfl⟩ := started_fits reach started
  have inside : size ≤ testData.length := by
    rw [bytes]
    exact Nat.le_trans fits (by decide)
  have low : size < 2 ^ 16 := Nat.lt_of_le_of_lt fits (by decide)
  have accepted := (upload_accepted_iff encodes remoteAddr buffer item call low inside).mpr fits
  obtain ⟨packet, queued, wire⟩ := Coap.post_packet encodes env call _ buffer item
    (uploadArgs_readable call remoteAddr inside) accepted
  refine ⟨size, packet, rfl, accepted, queued, ?_⟩
  rw [wire, (uploadArgs_short call remoteAddr low).bytes env, Coap.postMessage, uploadArgs_segments,
    uploadArgs_given]

end

/-- A button is pressed, and then the sweep goes on to its last upload. -/
def lastUpload : List SweepEvent := .button 1 1 0 :: List.replicate 106 (.main 0x41)

theorem uploads_accepted_last :
    ∃ size packet, Upload.testData 1435 = .testData size ∧
      (Coap.coapEndpointPostAsync Coap.rfcZephyr (Coap.calmEnv 1 0) 0
        (uploadArgs 0 Coap.serverAddr (List.replicate 1440 7) size)).1 = 0 ∧
      (Coap.coapEndpointPostAsync Coap.rfcZephyr (Coap.calmEnv 1 0) 0
        (uploadArgs 0 Coap.serverAddr (List.replicate 1440 7) size)).2.1 =
        some (Coap.txItem 0 (uploadArgs 0 Coap.serverAddr (List.replicate 1440 7) size) packet) ∧
      packet.wire = Rfc7252.encode ⟨1, Coap.postHeader (Coap.calmEnv 1 0), Coap.pathOptions path,
        (List.replicate 1440 7).take size⟩ :=
  have reach := Machine.reachable_run lastUpload ((sweep .coapTelenor).admits_true lastUpload _)
  have swept : .started .sweep (.testData 1435) ∈
      ((sweep .coapTelenor).run (sweep .coapTelenor).start lastUpload).log := by decide +kernel
  uploads_accepted Coap.rfcZephyr_encodesBytes Coap.serverAddr rfl rfl reach swept
    List.length_replicate 0

end DtApp.Periodic
