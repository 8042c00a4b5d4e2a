import Mathlib.Algebra.Order.BigOperators.Group.List
import Mathlib.Algebra.Order.Group.Nat
import DtApp.Coap.Reference

/-!
# What a post encodes

`coap_endpoint_post_async` hands the lengths of the path segments and of the payload to
encoders that take 16 bits. A length that does not fit is cut to its low 16 bits, and so is
what is encoded.
-/
namespace DtApp.Coap

/-! ## What is asked for and what is encoded -/

/-- No path is a path without segments. -/
def PostArgs.segments (args : PostArgs) : List (List UInt8) := args.path.getD []

/-- The payload that was asked for: none behind a null pointer or for a length that is not positive. -/
def PostArgs.given (args : PostArgs) : List UInt8 := (args.payload.getD []).take args.payloadLen.toNat

/-- There are as many bytes behind the pointer as the length says. -/
def PostArgs.Readable (args : PostArgs) : Prop :=
  ∀ bytes, args.payload = some bytes → args.payloadLen ≤ bytes.length

def postHeader (env : Env) : Header := ⟨.con, coapMethodPost, env.nextId, env.nextToken.val⟩

def pathOptions (segments : List (List UInt8)) : List CoapOption :=
  segments.map fun segment => ⟨coapOptionUriPath, segment⟩

/-- The message that was asked for. -/
def postMessage (env : Env) (args : PostArgs) : Rfc7252.Message :=
  ⟨1, postHeader env, pathOptions args.segments, args.given⟩

/-- What is left when a length is passed on as `u16_t`. -/
def wrapped (bytes : List UInt8) : List UInt8 := bytes.take (bytes.length % 2 ^ 16)

/-- The marker and the payload as they are encoded. -/
def wrappedPayload (payload : List UInt8) : List UInt8 :=
  if payload = [] then [] else Rfc7252.payloadMarker :: wrapped payload

/-- The bytes that are encoded. -/
def postBytes (env : Env) (args : PostArgs) : List UInt8 :=
  Rfc7252.encodeHeader 1 (postHeader env) ++
    (Rfc7252.encodeOptions 0 (pathOptions (args.segments.map wrapped)) ++ wrappedPayload args.given)

/-! ## The encoders in a row -/

/-- Nothing more is written. -/
theorem CoapPacket.Holds.done {p : CoapPacket} {room : Nat} {before : List UInt8}
    (holds : p.Holds room before) : Writes room before [] (0, p) := by
  refine ⟨iff_of_true (Int.le_refl 0) holds.fits, fun _ => ?_⟩
  rw [List.append_nil]
  exact holds

/-- One encoder after another, the second one only when the first one did not fail. -/
theorem Writes.append {room : Nat} {before new more : List UInt8} {first second : Int × CoapPacket}
    (writes : Writes room before new first) (next : 0 ≤ first.1 → Writes room (before ++ new) more second) :
    Writes room before (new ++ more) (if first.1 < 0 then first else second) := by
  by_cases failed : first.1 < 0
  · rw [if_pos failed]
    have full : ¬before.length + new.length ≤ room := fun fits =>
      absurd (writes.fits.mpr fits) (Int.not_le.mpr failed)
    refine ⟨iff_of_false (Int.not_le.mpr failed) ?_, fun fine => absurd fine (Int.not_le.mpr failed)⟩
    rw [List.length_append]
    omega
  · rw [if_neg failed]
    have both := next (Int.not_lt.mp failed)
    refine ⟨?_, fun fine => ?_⟩
    · rw [both.fits, List.length_append, List.length_append, Nat.add_assoc]
    · rw [← List.append_assoc]
      exact both.holds fine

theorem wrapped_length (bytes : List UInt8) : (wrapped bytes).length = bytes.length % 2 ^ 16 := by
  rw [wrapped, List.length_take, Nat.min_eq_left (Nat.mod_le _ _)]

theorem wrapped_short (bytes : List UInt8) : (wrapped bytes).length < 2 ^ 16 := by
  rw [wrapped_length]
  exact Nat.mod_lt _ (by decide)

/-- A length that fits 16 bits is passed on as it is. -/
theorem wrapped_eq {bytes : List UInt8} (short : bytes.length < 2 ^ 16) : wrapped bytes = bytes := by
  rw [wrapped, Nat.mod_eq_of_lt short, List.take_length]

theorem take_payload_length {bytes : List UInt8} {payloadLen : Int} (readable : payloadLen ≤ bytes.length) :
    (bytes.take payloadLen.toNat).length = payloadLen.toNat := by
  rw [List.length_take, Nat.min_eq_left (by omega)]

theorem PostArgs.given_length {args : PostArgs} (readable : args.Readable) {bytes : List UInt8}
    (payload : args.payload = some bytes) : args.given.length = args.payloadLen.toNat := by
  rw [given, payload, Option.getD_some, take_payload_length (readable bytes payload)]

/-- The code cuts the length of the payload, not the payload, which comes to the same. -/
theorem wrapped_take {bytes : List UInt8} {payloadLen : Int} (readable : payloadLen ≤ bytes.length)
    (present : payloadLen > 0) :
    wrapped (bytes.take payloadLen.toNat) = bytes.take (payloadLen % 2 ^ 16).toNat := by
  have length := take_payload_length readable
  have less : payloadLen.toNat % 2 ^ 16 = (payloadLen % 2 ^ 16).toNat := by omega
  have most : (payloadLen % 2 ^ 16).toNat ≤ payloadLen.toNat := by omega
  rw [wrapped, length, less, List.take_take, Nat.min_eq_left most]

section

variable {z : Zephyr} (encodes : z.EncodesBytes)

include encodes

theorem appendPath_writes (room : Nat) (segments : List (List UInt8)) (packet : CoapPacket)
    (before : List UInt8) (holds : packet.Holds room before) (ordered : packet.delta ≤ coapOptionUriPath) :
    Writes room before (Rfc7252.encodeOptions packet.delta (pathOptions (segments.map wrapped)))
      (appendPath z packet segments) := by
  induction segments generalizing packet before with
  | nil => exact holds.done
  | cons segment rest ih =>
    obtain ⟨written, number⟩ := encodes.option packet room before coapOptionUriPath (wrapped segment) holds
      ordered (by decide) (wrapped_short segment)
    apply written.append
    intro fine
    have next := ih _ _ (written.holds fine) (Nat.le_of_eq (number fine))
    rwa [number fine] at next

theorem appendPayload_writes (room : Nat) (packet : CoapPacket) (before : List UInt8)
    (holds : packet.Holds room before) (payload : Option (List UInt8)) (payloadLen : Int)
    (readable : ∀ bytes, payload = some bytes → payloadLen ≤ bytes.length) :
    Writes room before (wrappedPayload ((payload.getD []).take payloadLen.toNat))
      (appendPayload z packet payload payloadLen) := by
  cases payload with
  | none =>
    rw [Option.getD_none, List.take_nil, wrappedPayload, if_pos rfl]
    exact holds.done
  | some bytes =>
    rw [Option.getD_some]
    have length := take_payload_length (readable bytes rfl)
    by_cases present : payloadLen > 0
    · have nonempty : bytes.take payloadLen.toNat ≠ [] := List.ne_nil_of_length_pos (by omega)
      have cut := wrapped_take (readable bytes rfl) present
      rw [wrappedPayload, if_neg nonempty, ← List.singleton_append, cut]
      simp only [appendPayload, if_pos present]
      have marked := encodes.marker packet room before holds
      apply marked.append
      intro fine
      rw [← cut]
      exact encodes.payload _ room _ _ (marked.holds fine) (wrapped_short _)
    · have empty : bytes.take payloadLen.toNat = [] := List.eq_nil_of_length_eq_zero (by omega)
      rw [wrappedPayload, if_pos empty, appendPayload, if_neg present]
      exact holds.done

theorem encodePost_writes (env : Env) (call : Nat) (args : PostArgs) (readable : args.Readable) :
    Writes maxCoapMsgLen [] (postBytes env args) (encodePost z env call args) := by
  obtain ⟨init, number⟩ := encodes.init ⟨some call, []⟩ maxCoapMsgLen .con env.nextToken.val coapMethodPost
    env.nextId (Nat.le_of_eq env.nextToken.property)
  apply init.append
  intro started
  have zero := number started
  have path := appendPath_writes encodes maxCoapMsgLen args.segments _ _ (init.holds started) (by omega)
  rw [zero] at path
  exact path.append fun extended =>
    appendPayload_writes encodes maxCoapMsgLen _ _ (path.holds extended) args.payload args.payloadLen
      readable

end

/-! ## Sizes -/

/-- The size of a Uri-Path option with a value of the given length. -/
def uriPathSize (length : Nat) : Nat := 1 + (Rfc7252.encodeExtended length).2.length + length

/-- The size of the request when lengths are passed on by the function: header and token, path, and
marker with payload. -/
def postSize (pass : Nat → Nat) (args : PostArgs) : Nat :=
  12 + (args.segments.map fun segment => uriPathSize (pass segment.length)).sum +
    if args.given = [] then 0 else 1 + pass args.given.length

theorem pathOptions_size (segments : List (List UInt8)) (number : Nat) (low : number ≤ coapOptionUriPath) :
    (Rfc7252.encodeOptions number (pathOptions segments)).length =
      (segments.map fun segment => uriPathSize segment.length).sum := by
  induction segments generalizing number with
  | nil => rfl
  | cons segment rest ih =>
    -- the difference of the numbers fits a nibble
    have small : coapOptionUriPath - number < 13 := Nat.lt_of_le_of_lt (Nat.sub_le _ _) (by decide)
    have bare : (Rfc7252.encodeExtended (coapOptionUriPath - number)).2 = [] := by
      rw [Rfc7252.encodeExtended, if_pos small]
    have tail := ih coapOptionUriPath (Nat.le_refl _)
    simp only [pathOptions, List.map_cons, Rfc7252.encodeOptions, List.length_append, List.sum_cons,
      Rfc7252.encodeOption, List.length_cons, bare, List.length_nil, uriPathSize] at tail ⊢
    omega

theorem postHeader_size (env : Env) : (Rfc7252.encodeHeader 1 (postHeader env)).length = 12 := by
  rw [Rfc7252.encodeHeader_length, postHeader, env.nextToken.property]

theorem postMessage_size (env : Env) (args : PostArgs) :
    (Rfc7252.encode (postMessage env args)).length = postSize id args := by
  have path := pathOptions_size args.segments 0 (Nat.zero_le _)
  have payload := Rfc7252.encodePayload_length args.given
  simp only [Rfc7252.encode, postMessage, List.length_append, postHeader_size, path, payload]
  rfl

theorem wrappedPayload_size (payload : List UInt8) :
    (wrappedPayload payload).length = if payload = [] then 0 else 1 + payload.length % 2 ^ 16 := by
  unfold wrappedPayload
  split
  · rfl
  · rw [List.length_cons, wrapped_length, Nat.add_comm]

theorem postBytes_size (env : Env) (args : PostArgs) :
    (postBytes env args).length = postSize (· % 2 ^ 16) args := by
  have path := pathOptions_size (args.segments.map wrapped) 0 (Nat.zero_le _)
  rw [List.map_map] at path
  simp only [postBytes, List.length_append, postHeader_size, path, wrappedPayload_size, postSize,
    Function.comp_def, wrapped_length, Nat.add_assoc]

/-! ## Lengths that fit 16 bits -/

/-- Every length is passed on as it is. -/
structure ShortLengths (args : PostArgs) : Prop where
  path : ∀ segment ∈ args.segments, segment.length < 2 ^ 16
  payload : args.given.length < 2 ^ 16

theorem pathOptions_wrapped (segments : List (List UInt8))
    (short : ∀ segment ∈ segments, segment.length < 2 ^ 16) : segments.map wrapped = segments := by
  have same : segments.map wrapped = segments.map id :=
    List.map_congr_left fun segment member => wrapped_eq (short segment member)
  rw [same, List.map_id]

theorem ShortLengths.bytes {args : PostArgs} (short : ShortLengths args) (env : Env) :
    postBytes env args = Rfc7252.encode (postMessage env args) := by
  rw [postBytes, pathOptions_wrapped _ short.path, wrappedPayload, wrapped_eq short.payload,
    Rfc7252.encode, List.append_assoc]
  rfl

theorem pathOptions_encodable (segments : List (List UInt8)) (number : Nat)
    (low : number ≤ coapOptionUriPath) (short : ∀ segment ∈ segments, segment.length < 2 ^ 16) :
    Rfc7252.Encodable number (pathOptions segments) := by
  induction segments generalizing number with
  | nil => trivial
  | cons segment rest ih =>
    obtain ⟨first, others⟩ := List.forall_mem_cons.mp short
    refine ⟨low, ?_, Nat.lt_of_lt_of_le first (by decide), ih _ (Nat.le_refl _) others⟩
    exact Nat.lt_of_le_of_lt (Nat.sub_le _ _) (show 11 < Rfc7252.extendedLimit by decide)

theorem ShortLengths.decodes {args : PostArgs} (short : ShortLengths args) (env : Env) :
    Rfc7252.decode (Rfc7252.encode (postMessage env args)) = some (postMessage env args) := by
  have token := env.nextToken.property
  refine Rfc7252.decode_encode _ (show 1 < 4 by decide) (Nat.le_of_eq token) ?_
  exact pathOptions_encodable _ 0 (Nat.zero_le _) short.path

/-- A length of more than 16 bits is more than a message can hold. -/
theorem postSize_long {args : PostArgs} (long : ¬ShortLengths args) :
    maxCoapMsgLen < postSize id args := by
  have small : maxCoapMsgLen < 2 ^ 16 := by decide
  by_contra fits
  refine long ⟨fun segment member => ?_, ?_⟩
  · have counted : uriPathSize segment.length ≤
        (args.segments.map fun segment => uriPathSize segment.length).sum :=
      List.le_sum_of_mem (List.mem_map_of_mem member)
    simp only [postSize, uriPathSize, id_eq] at fits counted
    omega
  · simp only [postSize, id_eq] at fits
    by_cases empty : args.given = []
    · rw [empty]
      decide
    · rw [if_neg empty] at fits
      omega

/-! ## Posting -/

section

variable {z : Zephyr} (encodes : z.EncodesBytes) (env : Env) (call : Nat) (args : PostArgs)
  (buffer : env.calloc 0 = true) (item : env.calloc 1 = true) (readable : args.Readable)

include encodes buffer item readable

/-- A post succeeds exactly when what is left of the lengths fits. -/
theorem post_accepted_iff :
    (coapEndpointPostAsync z env call args).1 = 0 ↔ postSize (· % 2 ^ 16) args ≤ maxCoapMsgLen := by
  have writes := (encodePost_writes encodes env call args readable).fits
  rw [List.length_nil, Nat.zero_add, postBytes_size] at writes
  rw [← writes]
  simp only [coapEndpointPostAsync, buffer, item, Bool.not_true, Bool.false_eq_true, if_false]
  by_cases failed : (encodePost z env call args).1 < 0
  · rw [if_pos failed]
    exact iff_of_false (Int.ne_of_lt failed) (Int.not_le.mpr failed)
  · rw [if_neg failed]
    exact iff_of_true rfl (Int.not_lt.mp failed)

theorem post_packet (accepted : (coapEndpointPostAsync z env call args).1 = 0) :
    ∃ packet, (coapEndpointPostAsync z env call args).2.1 = some (txItem call args packet) ∧
      packet.wire = postBytes env args := by
  have holds := (encodePost_writes encodes env call args readable).holds
  simp only [coapEndpointPostAsync, buffer, item, Bool.not_true, Bool.false_eq_true, if_false] at accepted ⊢
  by_cases failed : (encodePost z env call args).1 < 0
  · rw [if_pos failed] at accepted
    exact absurd accepted (Int.ne_of_lt failed)
  · rw [if_neg failed]
    exact ⟨_, rfl, (holds (Int.not_lt.mp failed)).wire⟩

end

/-- The message that was asked for is queued when it fits, and nothing is when it does not. -/
structure EncodesExactly (z : Zephyr) (env : Env) (call : Nat) (args : PostArgs) : Prop where
  accepted : (coapEndpointPostAsync z env call args).1 = 0 ↔
    (Rfc7252.encode (postMessage env args)).length ≤ maxCoapMsgLen
  queued : (coapEndpointPostAsync z env call args).1 = 0 →
    ∃ packet, (coapEndpointPostAsync z env call args).2.1 = some (txItem call args packet) ∧
      Rfc7252.decode packet.wire = some (postMessage env args)

/-- A post encodes what it was asked to exactly when no length needs more than 16 bits, or what
is left of the lengths does not fit either. -/
theorem encodesExactly_iff {z : Zephyr} (encodes : z.EncodesBytes) (env : Env) (call : Nat)
    (args : PostArgs) (buffer : env.calloc 0 = true) (item : env.calloc 1 = true)
    (readable : args.Readable) :
    EncodesExactly z env call args ↔
      ShortLengths args ∨ maxCoapMsgLen < postSize (· % 2 ^ 16) args := by
  have accepted := post_accepted_iff encodes env call args buffer item readable
  have full := postMessage_size env args
  constructor
  · intro encoding
    by_cases short : ShortLengths args
    · exact .inl short
    · -- the message does not fit, so the post has to fail
      right
      have long := postSize_long short
      by_contra fits
      have claimed := encoding.accepted.mp (accepted.mpr (Nat.not_lt.mp fits))
      omega
  · intro harmless
    by_cases short : ShortLengths args
    · have same := short.bytes env
      have size := postBytes_size env args
      rw [same] at size
      refine ⟨by rw [accepted, size], fun posted => ?_⟩
      obtain ⟨packet, queued, wire⟩ := post_packet encodes env call args buffer item readable posted
      refine ⟨packet, queued, ?_⟩
      rw [wire, same]
      exact short.decodes env
    · have long := postSize_long short
      have cut := harmless.resolve_left short
      refine ⟨iff_of_false ?_ (by omega), fun posted => ?_⟩
      · rw [accepted]
        omega
      · rw [accepted] at posted
        omega

/-- A post of so many zero bytes, without a path. -/
def zerosPost (count : Nat) : PostArgs :=
  coapEndpointPostArgs 0 serverAddr none (some (List.replicate count 0)) count

theorem zerosPost_readable (count : Nat) : (zerosPost count).Readable := by
  intro bytes payload
  cases payload
  simp [zerosPost, coapEndpointPostArgs]

theorem zerosPost_size (pass : Nat → Nat) (count : Nat) (positive : 0 < count) :
    postSize pass (zerosPost count) = 13 + pass count := by
  have length : (zerosPost count).given.length = count :=
    PostArgs.given_length (zerosPost_readable count) rfl
  have nonempty : (zerosPost count).given ≠ [] := List.ne_nil_of_length_pos (by omega)
  rw [postSize, if_neg nonempty, length, PostArgs.segments]
  simp only [zerosPost, coapEndpointPostArgs, Option.getD_none, List.map_nil, List.sum_nil]
  omega

/-- One byte is sent of a payload of 65537 bytes. -/
theorem long_payload_cut :
    (zerosPost 65537).Readable ∧ ¬EncodesExactly rfcZephyr (calmEnv 1 0) 0 (zerosPost 65537) := by
  have readable := zerosPost_readable 65537
  refine ⟨readable, fun encoding => ?_⟩
  have cut : postSize (· % 2 ^ 16) (zerosPost 65537) ≤ maxCoapMsgLen := by
    rw [zerosPost_size _ _ (by decide)]
    decide
  have accepted :=
    (post_accepted_iff rfcZephyr_encodesBytes (calmEnv 1 0) 0 (zerosPost 65537) rfl rfl readable).mpr cut
  have claimed := encoding.accepted.mp accepted
  rw [postMessage_size, zerosPost_size _ _ (by decide)] at claimed
  exact absurd claimed (by decide)

theorem encodesExactly_iff_zeros :
    EncodesExactly rfcZephyr (calmEnv 1 0) 0 (zerosPost 65537) ↔
      ShortLengths (zerosPost 65537) ∨ maxCoapMsgLen < postSize (· % 2 ^ 16) (zerosPost 65537) :=
  encodesExactly_iff rfcZephyr_encodesBytes (calmEnv 1 0) 0 (zerosPost 65537) rfl rfl
    (zerosPost_readable 65537)

end DtApp.Coap
