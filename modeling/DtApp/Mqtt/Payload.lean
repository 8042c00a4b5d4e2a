import DtApp.Mqtt.Client

/-!
# Reading a payload is exact

`publish_get_payload` returns 0 exactly when it has read the announced number of bytes, and then they
stand in the buffer in the order of the stream.
-/
namespace DtApp.Mqtt

open Overwrite

/-! ## The requests of a reading -/

/-- The bytes that the library wrote for the requests. -/
def bytesRead (requests : List Request) : Nat := (requests.map fun q => q.ret.toNat).sum

@[simp] theorem bytesRead_nil : bytesRead [] = 0 := rfl

@[simp] theorem bytesRead_cons (q : Request) (requests : List Request) :
    bytesRead (q :: requests) = q.ret.toNat + bytesRead requests := by
  simp [bytesRead]

def Request.productive (q : Request) : Bool := decide (0 < q.ret)

/-- What the loop returns after a request, if it does not go on. -/
def Request.verdict (q : Request) : Option Int :=
  if q.ret < 0 then
    if q.ret ≠ -eagain then some q.ret else if q.readable then none else some (-eio)
  else if q.ret = 0 then some (-eio) else none

/-- The request is the cause of the error. -/
def Request.Fails (q : Request) (err : Int) : Prop :=
  q.ret < 0 ∧ q.ret ≠ -eagain ∧ err = q.ret ∨
    (q.ret = 0 ∨ q.ret = -eagain ∧ q.readable = false) ∧ err = -eio

theorem Request.fails_of_verdict (q : Request) {err : Int} (verdict : q.verdict = some err) :
    q.Fails err := by
  unfold Request.verdict at verdict
  split at verdict
  · next negative =>
    split at verdict
    · next other => exact .inl ⟨negative, other, (Option.some.inj verdict).symm⟩
    · next again =>
      have again : q.ret = -eagain := by simpa using again
      split at verdict
      · cases verdict
      · next unreadable =>
        exact .inr ⟨.inr ⟨again, by simpa using unreadable⟩, (Option.some.inj verdict).symm⟩
  · split at verdict
    · next zero => exact .inr ⟨.inl zero, (Option.some.inj verdict).symm⟩
    · cases verdict

theorem Request.verdict_neg (q : Request) {err : Int} (verdict : q.verdict = some err) :
    err < 0 := by
  have failure : (-eio : Int) < 0 := by decide
  unfold Request.verdict at verdict
  split at verdict
  · next negative =>
    split at verdict
    · rwa [← Option.some.inj verdict]
    · split at verdict
      · cases verdict
      · rwa [← Option.some.inj verdict]
  · split at verdict
    · rwa [← Option.some.inj verdict]
    · cases verdict

/-- The requests of a loop that stands at an offset, and its result. -/
inductive Reads (end_ : Nat) : Nat → List Request → Option Int → Prop
  | done (buf : Nat) : ¬buf < end_ → Reads end_ buf [] (some 0)
  | waiting (buf : Nat) : buf < end_ → Reads end_ buf [] none
  | stop (buf : Nat) (q : Request) (err : Int) : buf < end_ → q.offset = buf → q.asked = end_ - buf →
      q.ret ≤ 0 → q.verdict = some err → Reads end_ buf [q] (some err)
  | again (buf : Nat) (q : Request) (requests : List Request) (ret : Option Int) : buf < end_ →
      q.offset = buf → q.asked = end_ - buf → q.ret < 0 → q.verdict = none →
      Reads end_ buf requests ret → Reads end_ buf (q :: requests) ret
  | more (buf : Nat) (q : Request) (requests : List Request) (ret : Option Int) : buf < end_ →
      q.offset = buf → q.asked = end_ - buf → 0 < q.ret → q.ret ≤ q.asked →
      Reads end_ (buf + q.ret.toNat) requests ret → Reads end_ buf (q :: requests) ret

theorem readLoop_reads (stream : Nat → UInt8) (end_ : Nat) (answers : List Answer) (buf : Nat)
    (c : Client) : Reads end_ buf (readLoop stream end_ buf answers c).requests
      (readLoop stream end_ buf answers c).ret := by
  induction answers generalizing buf c with
  | nil =>
    simp only [readLoop]
    split
    · next missing => exact .waiting buf missing
    · next complete => exact .done buf complete
  | cons answer answers ih =>
    simp only [readLoop]
    split
    · next missing =>
      cases result : answer.read (end_ - buf) with
      | error err negative =>
        dsimp only
        split
        · next other =>
          apply Reads.stop buf _ err missing rfl rfl (Int.le_of_lt negative)
          simp [Request.verdict, ReadResult.ret, negative, other]
        · next again =>
          have again : err = -eagain := by simpa using again
          subst again
          split
          · next readable =>
            refine .again buf _ _ _ missing rfl rfl negative ?_ (ih buf c)
            simp [Request.verdict, ReadResult.ret, eagain, readable]
          · next unreadable =>
            apply Reads.stop buf _ _ missing rfl rfl (Int.le_of_lt negative)
            simp [Request.verdict, ReadResult.ret, eagain, unreadable]
      | closed =>
        apply Reads.stop buf _ _ missing rfl rfl (Int.le_refl 0)
        simp [Request.verdict, ReadResult.ret]
      | bytes count positive fits =>
        apply Reads.more buf _ _ _ missing rfl rfl
        · simpa [ReadResult.ret] using positive
        · simpa [ReadResult.ret] using fits
        · simpa [ReadResult.ret, Reading.after] using ih (buf + count) (c.write stream buf count)
    · next complete => exact .done buf complete

section reads

variable {end_ buf : Nat} {requests : List Request} {ret : Option Int}
  (reads : Reads end_ buf requests ret)

include reads

/-- The loop never reads too much, and returns 0 exactly when it has read what was missing. -/
theorem Reads.bytes (start : buf ≤ end_) :
    buf + bytesRead requests ≤ end_ ∧ (ret = some 0 ↔ buf + bytesRead requests = end_) := by
  induction reads with
  | done buf complete => simp; omega
  | waiting buf missing => simp; omega
  | stop buf q err missing _ _ nothing verdict =>
    have zero : q.ret.toNat = 0 := by omega
    have failed : err ≠ 0 := Int.ne_of_lt (q.verdict_neg verdict)
    simp [zero, failed]
    omega
  | again buf q requests ret missing _ _ negative _ _ ih =>
    have zero : q.ret.toNat = 0 := by omega
    simpa [zero] using ih start
  | more buf q requests ret missing _ asked positive fits _ ih =>
    have next := ih (by omega)
    simpa [Nat.add_assoc] using next

/-- Each request is for the bytes that are still missing, at the offset where they belong. -/
theorem Reads.request (start : buf ≤ end_) {pre post : List Request} {q : Request}
    (split : requests = pre ++ q :: post) :
    q.offset = buf + bytesRead pre ∧ q.asked = end_ - q.offset ∧ q.offset < end_ ∧
      q.ret ≤ q.asked := by
  induction reads generalizing pre with
  | done | waiting => simp at split
  | stop buf q' err missing offset asked nothing verdict =>
    cases pre with
    | nil =>
      cases split
      exact ⟨offset, by rw [offset, asked], by omega, by omega⟩
    | cons first pre => simp at split
  | again buf q' requests ret missing offset asked negative _ _ ih =>
    cases pre with
    | nil =>
      cases split
      exact ⟨offset, by rw [offset, asked], by omega, by omega⟩
    | cons first pre =>
      cases split
      have zero : q'.ret.toNat = 0 := by omega
      simpa [zero] using ih start rfl
  | more buf q' requests ret missing offset asked positive fits _ ih =>
    cases pre with
    | nil =>
      cases split
      exact ⟨offset, by rw [offset, asked], by omega, fits⟩
    | cons first pre =>
      cases split
      simpa [Nat.add_assoc] using ih (by omega) rfl

/-- A request that the loop does not go on after is the last one, and gives the result. -/
theorem Reads.verdict {pre post : List Request} {q : Request} {err : Int}
    (split : requests = pre ++ q :: post) (verdict : q.verdict = some err) :
    post = [] ∧ ret = some err := by
  induction reads generalizing pre with
  | done | waiting => simp at split
  | stop buf q' err' missing _ _ nothing verdict' =>
    cases pre with
    | nil =>
      cases split
      exact ⟨rfl, verdict'.symm.trans verdict⟩
    | cons first pre => simp at split
  | again buf q' requests ret missing _ _ negative goes _ ih =>
    cases pre with
    | nil =>
      cases split
      rw [goes] at verdict
      cases verdict
    | cons first pre =>
      cases split
      exact ih rfl
  | more buf q' requests ret missing _ _ positive fits _ ih =>
    cases pre with
    | nil =>
      cases split
      simp only [Request.verdict] at verdict
      rw [if_neg (by omega), if_neg (by omega)] at verdict
      cases verdict
    | cons first pre =>
      cases split
      exact ih rfl

/-- The loop never returns a positive number. -/
theorem Reads.nonpos {err : Int} (returned : ret = some err) : err ≤ 0 := by
  induction reads with
  | done => exact Int.le_of_eq (Option.some.inj returned).symm
  | waiting => cases returned
  | stop buf q err' _ _ _ _ verdict =>
    cases returned
    exact Int.le_of_lt (q.verdict_neg verdict)
  | again _ _ _ _ _ _ _ _ _ _ ih | more _ _ _ _ _ _ _ _ _ _ ih => exact ih returned

/-- A loop that fails does so for its last request. -/
theorem Reads.failed {err : Int} (returned : ret = some err) (nonzero : err ≠ 0) :
    ∃ pre q, requests = pre ++ [q] ∧ q.Fails err := by
  induction reads with
  | done => exact absurd (Option.some.inj returned).symm nonzero
  | waiting => cases returned
  | stop buf q err' _ _ _ _ verdict =>
    cases returned
    exact ⟨[], q, rfl, q.fails_of_verdict verdict⟩
  | again _ q _ _ _ _ _ _ _ _ ih | more _ q _ _ _ _ _ _ _ _ ih =>
    obtain ⟨pre, last, rfl, fails⟩ := ih returned
    exact ⟨q :: pre, last, rfl, fails⟩

/-- Every productive request reads at least one of the missing bytes. -/
theorem Reads.productive : requests.countP Request.productive ≤ bytesRead requests := by
  induction reads with
  | done | waiting => exact Nat.le_refl 0
  | stop buf q err missing _ _ nothing verdict =>
    simp [Request.productive, Int.not_lt.mpr nothing]
  | again buf q requests ret missing _ _ negative _ _ ih =>
    simp [Request.productive, Int.not_lt.mpr (Int.le_of_lt negative)]
    omega
  | more buf q requests ret missing _ _ positive fits _ ih =>
    simp [Request.productive, positive]
    omega

end reads

/-- What the library and `poll` answered to a request. -/
structure Request.Answered (q : Request) (answer : Answer) : Prop where
  ret : q.ret = (answer.read q.asked).ret
  readable : q.readable = answer.readable

/-- Each request takes one answer, in their order, and a loop without a result has taken all of them. -/
structure Answers (requests : List Request) (ret : Option Int) (answers : List Answer) : Prop where
  answered : List.Forall₂ Request.Answered requests (answers.take requests.length)
  waiting : ret = none → requests.length = answers.length

theorem Answers.cons {requests : List Request} {ret : Option Int} {answers : List Answer}
    (rest : Answers requests ret answers) {q : Request} {answer : Answer} (first : q.Answered answer) :
    Answers (q :: requests) ret (answer :: answers) :=
  ⟨.cons first rest.answered, fun none => congrArg Nat.succ (rest.waiting none)⟩

theorem Answers.last {q : Request} {answer : Answer} (answered : q.Answered answer) (err : Int)
    (answers : List Answer) : Answers [q] (some err) (answer :: answers) :=
  ⟨.cons answered .nil, fun absurd => by cases absurd⟩

theorem Answers.returned (err : Int) (answers : List Answer) : Answers [] (some err) answers :=
  ⟨.nil, fun absurd => by cases absurd⟩

theorem readLoop_answers (stream : Nat → UInt8) (end_ : Nat) (answers : List Answer) (buf : Nat)
    (c : Client) : Answers (readLoop stream end_ buf answers c).requests
      (readLoop stream end_ buf answers c).ret answers := by
  induction answers generalizing buf c with
  | nil =>
    simp only [readLoop]
    exact ⟨.nil, fun _ => rfl⟩
  | cons answer answers ih =>
    have answered : Request.Answered ⟨buf, end_ - buf, (answer.read (end_ - buf)).ret, answer.readable⟩
        answer := ⟨rfl, rfl⟩
    simp only [readLoop]
    split
    · cases result : answer.read (end_ - buf) with
      | error err negative =>
        rw [result] at answered
        dsimp only
        split
        · exact .last answered _ answers
        · split
          · exact (ih buf c).cons answered
          · exact .last answered _ answers
      | closed =>
        rw [result] at answered
        exact .last answered _ answers
      | bytes count positive fits =>
        rw [result] at answered
        exact (ih (buf + count) (c.write stream buf count)).cons answered
    · exact .returned 0 _

/-! ## The buffer -/

@[simp] theorem length_chunk (stream : Nat → UInt8) (position count : Nat) :
    (chunk stream position count).length = count := by
  simp [chunk]

theorem chunk_add (stream : Nat → UInt8) (position m n : Nat) :
    chunk stream position (m + n) = chunk stream position m ++ chunk stream (position + m) n := by
  rw [chunk, chunk, chunk, ← List.map_append, List.range'_append_1]

/-- The client after `n` bytes of the stream were written to its buffer from an offset on, none of
them at `end_` or behind it. -/
structure Filled (stream : Nat → UInt8) (end_ buf n : Nat) (c c' : Client) : Prop where
  length : c'.payloadBuf.length = c.payloadBuf.length
  position : c'.position = c.position + n
  payload : c'.payloadBuf.take (buf + n) = c.payloadBuf.take buf ++ chunk stream c.position n
  frame : c'.payloadBuf.drop end_ = c.payloadBuf.drop end_
  connected : c'.connected = c.connected

section filled

variable {stream : Nat → UInt8} {end_ buf n : Nat} {c c' c'' : Client}

theorem Filled.none : Filled stream end_ buf 0 c c :=
  ⟨rfl, rfl, by simp [chunk], rfl, rfl⟩

theorem Client.write_filled (inside : buf + n ≤ end_) (small : end_ ≤ c.payloadBuf.length) :
    Filled stream end_ buf n c (c.write stream buf n) where
  length := length_overwrite (by rw [length_chunk]; omega)
  position := rfl
  payload := by
    have fits : buf + (chunk stream c.position n).length ≤ c.payloadBuf.length := by
      rw [length_chunk]
      omega
    have written := take_overwrite fits
    rwa [length_chunk] at written
  frame := drop_overwrite (by rw [length_chunk]; omega) (by rw [length_chunk]; omega)
  connected := rfl

theorem Filled.trans {m : Nat} (first : Filled stream end_ buf m c c')
    (second : Filled stream end_ (buf + m) n c' c'') : Filled stream end_ buf (m + n) c c'' where
  length := second.length.trans first.length
  position := by rw [second.position, first.position, Nat.add_assoc]
  payload := by
    rw [← Nat.add_assoc, second.payload, first.payload, first.position, chunk_add,
      List.append_assoc]
  frame := second.frame.trans first.frame
  connected := second.connected.trans first.connected

end filled

theorem readLoop_filled (stream : Nat → UInt8) {end_ : Nat} (answers : List Answer) (buf : Nat)
    (c : Client) (small : end_ ≤ c.payloadBuf.length) :
    Filled stream end_ buf (bytesRead (readLoop stream end_ buf answers c).requests) c
      (readLoop stream end_ buf answers c).client := by
  induction answers generalizing buf c with
  | nil => exact .none
  | cons answer answers ih =>
    simp only [readLoop]
    split
    · next missing =>
      cases answer.read (end_ - buf) with
      | error err negative =>
        have nothing : err.toNat = 0 := by omega
        dsimp only
        split
        · simpa [ReadResult.ret, nothing] using Filled.none
        · split
          · simpa [ReadResult.ret, Reading.after, nothing] using ih buf c small
          · simpa [ReadResult.ret, nothing] using Filled.none
      | closed => simpa [ReadResult.ret] using Filled.none
      | bytes count positive fits =>
        have wrote : Filled stream end_ buf count c (c.write stream buf count) :=
          Client.write_filled (by omega) small
        have rest := ih (buf + count) (c.write stream buf count) (by rw [wrote.length]; exact small)
        simpa [ReadResult.ret, Reading.after] using wrote.trans rest
    · exact .none

/-! ## Payloads -/

/-- `publish_get_payload` and the event handler are exact about a payload of the given length. -/
structure PayloadExact (stream : Nat → UInt8) (c : Client) (length : Nat) (answers : List Answer)
    (reading : Reading) : Prop where
  /-- The requests got the answers that the library and `poll` gave, and the function returns unless
  an answer is missing. -/
  answered : Answers reading.requests reading.ret answers
  zero_iff : reading.ret = some 0 ↔
    length ≤ c.payloadBuf.length ∧ bytesRead reading.requests = length
  payload : reading.ret = some 0 →
    reading.client.payloadBuf.take length = chunk stream c.position length
  /-- What was read is taken from the stream. -/
  position : reading.client.position = c.position + bytesRead reading.requests
  /-- No request goes beyond the bytes that are still missing. -/
  asked : ∀ pre q post, reading.requests = pre ++ q :: post →
    q.offset = bytesRead pre ∧ q.asked = length - bytesRead pre ∧ bytesRead pre < length ∧
      q.ret ≤ q.asked
  /-- Nothing is written from the announced length on, and the buffer keeps its size. -/
  frame : reading.client.payloadBuf.drop length = c.payloadBuf.drop length ∧
    reading.client.payloadBuf.length = c.payloadBuf.length
  tooLong : length > c.payloadBuf.length → reading = ⟨some (-emsgsize), c, []⟩
  error : ∀ pre q post, reading.requests = pre ++ q :: post → q.ret < 0 → q.ret ≠ -eagain →
    post = [] ∧ reading.ret = some q.ret
  broken : ∀ pre q post, reading.requests = pre ++ q :: post →
    q.ret = 0 ∨ q.ret = -eagain ∧ q.readable = false → post = [] ∧ reading.ret = some (-eio)
  /-- Nothing else fails. -/
  failed : ∀ err, reading.ret = some err → err ≠ 0 → length ≤ c.payloadBuf.length →
    ∃ pre q, reading.requests = pre ++ [q] ∧ Request.Fails q err
  productive : reading.requests.countP Request.productive ≤ length
  /-- A payload is reported in the case of 0, and the client disconnects after any other result. -/
  handled : ∀ config, mqttEvtHandler config stream answers c (.publish length) =
    (reading.client,
      match reading.ret with
      | none => []
      | some err => if err = 0 then [.received (chunk stream c.position length)]
        else [.disconnected])

section payload

variable (stream : Nat → UInt8) (c : Client) (length : Nat) (answers : List Answer)

/-- A payload that does not fit is not read at all. -/
theorem publishGetPayload_tooLong (long : length > c.payloadBuf.length) :
    publishGetPayload stream length answers c = ⟨some (-emsgsize), c, []⟩ :=
  if_pos long

theorem publishGetPayload_fits (fits : length ≤ c.payloadBuf.length) :
    publishGetPayload stream length answers c = readLoop stream length 0 answers c :=
  if_neg (Nat.not_lt.mpr fits)

/-- What is handled follows from what was read. -/
theorem mqttEvtHandler_publish {reading : Reading}
    (read : publishGetPayload stream length answers c = reading)
    (nonpos : ∀ err, reading.ret = some err → err ≤ 0)
    (payload : reading.ret = some 0 →
      reading.client.payloadBuf.take length = chunk stream c.position length)
    (config : MqttConfig) :
    mqttEvtHandler config stream answers c (.publish length) =
      (reading.client,
        match reading.ret with
        | none => []
        | some err => if err = 0 then [.received (chunk stream c.position length)]
          else [.disconnected]) := by
  simp only [mqttEvtHandler, read]
  cases returned : reading.ret with
  | none => rfl
  | some err =>
    dsimp only
    by_cases zero : err = 0
    · subst zero
      rw [if_pos (Int.le_refl 0), if_pos rfl, payload returned]
    · have negative : ¬err ≥ 0 := by
        have := nonpos err returned
        omega
      rw [if_neg negative, if_neg zero]

/-- `publish_get_payload` returns 0 exactly when it has read the announced number of bytes, which then
stand in the buffer in the order of the stream. -/
theorem payload_exact :
    PayloadExact stream c length answers (publishGetPayload stream length answers c) := by
  by_cases fits : length ≤ c.payloadBuf.length
  · have filled := readLoop_filled stream answers 0 c fits
    have reads := readLoop_reads stream length answers 0 c
    have answered := readLoop_answers stream length answers 0 c
    have read := publishGetPayload_fits stream c length answers fits
    rw [read]
    generalize readLoop stream length 0 answers c = reading at filled reads answered read
    have bytes := reads.bytes (Nat.zero_le length)
    rw [Nat.zero_add] at bytes
    have payload (zero : reading.ret = some 0) :
        reading.client.payloadBuf.take length = chunk stream c.position length := by
      have written := filled.payload
      rwa [Nat.zero_add, bytes.2.mp zero, List.take_zero, List.nil_append] at written
    exact {
      answered
      zero_iff := bytes.2.trans (and_iff_right fits).symm
      payload
      position := filled.position
      asked := by
        intro pre q post split
        obtain ⟨offset, asked, inside, most⟩ := reads.request (Nat.zero_le length) split
        rw [Nat.zero_add] at offset
        exact ⟨offset, by rw [asked, offset], by rwa [← offset], most⟩
      frame := ⟨filled.frame, filled.length⟩
      tooLong := fun long => absurd long (Nat.not_lt.mpr fits)
      error := by
        intro pre q post split negative other
        exact reads.verdict split (by rw [Request.verdict, if_pos negative, if_pos other])
      broken := by
        intro pre q post split nothing
        apply reads.verdict split
        obtain zero | ⟨again, unreadable⟩ := nothing
        · simp [Request.verdict, zero]
        · simp [Request.verdict, again, unreadable, eagain]
      failed := fun err returned nonzero _ => reads.failed returned nonzero
      productive := Nat.le_trans reads.productive bytes.1
      handled := mqttEvtHandler_publish stream c length answers read (fun _ => reads.nonpos) payload }
  · have long : length > c.payloadBuf.length := Nat.not_le.mp fits
    have read := publishGetPayload_tooLong stream c length answers long
    rw [read]
    have failed : some (-emsgsize) ≠ some (0 : Int) := by decide
    exact {
      answered := .returned _ answers
      zero_iff := iff_of_false failed (fun exactly => fits exactly.1)
      payload := fun zero => absurd zero failed
      position := rfl
      asked := by simp
      frame := ⟨rfl, rfl⟩
      tooLong := fun _ => rfl
      error := by simp
      broken := by simp
      failed := fun _ _ _ short => absurd short fits
      productive := Nat.zero_le length
      handled := by
        refine mqttEvtHandler_publish stream c length answers read ?_ (fun zero => absurd zero failed)
        rintro err returned
        cases returned
        decide }

end payload

end DtApp.Mqtt
