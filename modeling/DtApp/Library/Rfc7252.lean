import Mathlib.Data.List.GetD

/-!
# The CoAP message format

A message is a four byte header, a token of at most eight bytes, a sequence of options
and, behind a marker byte, a payload that is not empty. An option is written as the
difference of its number to the previous one and the length of its value; both stand in
one nibble each, extended by one or two bytes when they do not fit. The version field is
read but not judged here.
-/
namespace Rfc7252

inductive MessageType where
  | con
  | nonCon
  | ack
  | reset
  deriving DecidableEq, Repr

def MessageType.bits : MessageType → Nat
  | .con => 0
  | .nonCon => 1
  | .ack => 2
  | .reset => 3

def MessageType.ofBits : Nat → MessageType
  | 0 => .con
  | 1 => .nonCon
  | 2 => .ack
  | _ => .reset

@[simp] theorem MessageType.ofBits_bits (t : MessageType) : ofBits t.bits = t := by
  cases t <;> rfl

theorem MessageType.bits_lt (t : MessageType) : t.bits < 4 := by
  cases t <;> decide

/-- What a receiver needs to match a message with an exchange. -/
structure Header where
  type : MessageType
  code : UInt8
  id : UInt16
  token : List UInt8
  deriving DecidableEq

structure MessageOption where
  number : Nat
  value : List UInt8
  deriving DecidableEq

structure Message where
  version : Nat
  header : Header
  options : List MessageOption
  payload : List UInt8
  deriving DecidableEq

/-! ## The header -/

def byteAt (bs : List UInt8) (i : Nat) : Nat := (bs.getD i 0).toNat

def tokenLength (bs : List UInt8) : Nat := byteAt bs 0 % 16

def version (bs : List UInt8) : Nat := byteAt bs 0 / 64

def header (bs : List UInt8) : Header where
  type := .ofBits (byteAt bs 0 / 16 % 4)
  code := bs.getD 1 0
  id := .ofNat (byteAt bs 2 * 256 + byteAt bs 3)
  token := (bs.drop 4).take (tokenLength bs)

def encodeHeader (version : Nat) (h : Header) : List UInt8 :=
  [.ofNat (version * 64 + h.type.bits * 16 + h.token.length), h.code,
    .ofNat (h.id.toNat / 256), .ofNat (h.id.toNat % 256)] ++ h.token

@[simp] theorem encodeHeader_length (version : Nat) (h : Header) :
    (encodeHeader version h).length = 4 + h.token.length := by
  simp only [encodeHeader, List.length_append, List.length_cons, List.length_nil]

theorem byteAt_append (bs tail : List UInt8) (i : Nat) (bound : i < bs.length) :
    byteAt (bs ++ tail) i = byteAt bs i := by
  rw [byteAt, byteAt, List.getD_append _ _ _ _ bound]

/-- Bytes behind the token do not change the header. -/
theorem header_append (bs tail : List UInt8) (fits : 4 + tokenLength bs ≤ bs.length) :
    header (bs ++ tail) = header bs := by
  have same : tokenLength (bs ++ tail) = tokenLength bs := by
    simp only [tokenLength, byteAt_append bs tail 0 (by omega)]
  simp only [header, same, byteAt_append bs tail 0 (by omega), byteAt_append bs tail 2 (by omega),
    byteAt_append bs tail 3 (by omega), List.getD_append bs tail 0 1 (by omega)]
  rw [List.drop_append_of_le_length (by omega), List.take_append_of_le_length]
  rw [List.length_drop]
  omega

theorem tokenLength_encodeHeader (version : Nat) (h : Header) (tail : List UInt8)
    (short : h.token.length ≤ 8) :
    tokenLength (encodeHeader version h ++ tail) = h.token.length := by
  have bound := h.type.bits_lt
  simp only [tokenLength, byteAt, encodeHeader, List.cons_append, List.getD_cons_zero,
    UInt8.toNat_ofNat']
  omega

/-- The header of an encoded message is the one that was encoded. -/
theorem header_encodeHeader (version : Nat) (h : Header) (tail : List UInt8)
    (short : h.token.length ≤ 8) :
    header (encodeHeader version h ++ tail) = h := by
  have bound := h.type.bits_lt
  have idBound := h.id.toNat_lt
  have type : byteAt (encodeHeader version h ++ tail) 0 / 16 % 4 = h.type.bits := by
    simp only [byteAt, encodeHeader, List.cons_append, List.getD_cons_zero, UInt8.toNat_ofNat']
    omega
  have id : byteAt (encodeHeader version h ++ tail) 2 * 256 +
      byteAt (encodeHeader version h ++ tail) 3 = h.id.toNat := by
    simp only [byteAt, encodeHeader, List.cons_append, List.getD_cons_succ, List.getD_cons_zero,
      UInt8.toNat_ofNat']
    omega
  have token : ((encodeHeader version h ++ tail).drop 4).take h.token.length = h.token := by
    simp [encodeHeader]
  rw [header, type, id, tokenLength_encodeHeader version h tail short, token]
  simp [encodeHeader]

/-! ## Options and payload -/

/-- The number a nibble stands for, and the bytes behind its extension. -/
def decodeExtended (nibble : Nat) (bs : List UInt8) : Option (Nat × List UInt8) :=
  if nibble < 13 then some (nibble, bs)
  else if nibble = 13 then
    match bs with
    | a :: rest => some (a.toNat + 13, rest)
    | [] => none
  else if nibble = 14 then
    match bs with
    | a :: b :: rest => some (a.toNat * 256 + b.toNat + 269, rest)
    | _ => none
  else none

/-- One option after the given option number, and the bytes behind it. -/
def decodeOption (number : Nat) : List UInt8 → Option (MessageOption × List UInt8)
  | [] => none
  | head :: bs => do
    let (delta, bs) ← decodeExtended (head.toNat / 16) bs
    let (length, bs) ← decodeExtended (head.toNat % 16) bs
    if length ≤ bs.length then some (⟨number + delta, bs.take length⟩, bs.drop length) else none

/-- A nibble and the bytes of its extension. -/
def encodeExtended (n : Nat) : Nat × List UInt8 :=
  if n < 13 then (n, [])
  else if n < 269 then (13, [.ofNat (n - 13)])
  else (14, [.ofNat ((n - 269) / 256), .ofNat ((n - 269) % 256)])

/-- An option behind one with the given number. -/
def encodeOption (number : Nat) (o : MessageOption) : List UInt8 :=
  let delta := encodeExtended (o.number - number)
  let length := encodeExtended o.value.length
  .ofNat (delta.1 * 16 + length.1) :: delta.2 ++ length.2 ++ o.value

def payloadMarker : UInt8 := 0xff

/-- The options and the payload that a sequence of bytes stands for. -/
inductive Body : Nat → List UInt8 → List MessageOption → List UInt8 → Prop
  | done (number : Nat) : Body number [] [] []
  | payload (number : Nat) (bs : List UInt8) : bs ≠ [] → Body number (payloadMarker :: bs) [] bs
  | option {number : Nat} {bs rest : List UInt8} {o : MessageOption} {os : List MessageOption}
      {payload : List UInt8} : decodeOption number bs = some (o, rest) →
      Body o.number rest os payload → Body number bs (o :: os) payload

/-- Every option takes at least one byte, so as many rounds as there are bytes suffice. -/
def decodeBody : Nat → Nat → List UInt8 → Option (List MessageOption × List UInt8)
  | _, _, [] => some ([], [])
  | 0, _, _ :: _ => none
  | fuel + 1, number, head :: bs =>
    if head = payloadMarker then
      if bs = [] then none else some ([], bs)
    else
      match decodeOption number (head :: bs) with
      | none => none
      | some (o, rest) => (decodeBody fuel o.number rest).map fun r => (o :: r.1, r.2)

theorem decodeExtended_length (nibble n : Nat) (bs rest : List UInt8)
    (decoded : decodeExtended nibble bs = some (n, rest)) : rest.length ≤ bs.length := by
  unfold decodeExtended at decoded
  split at decoded
  · cases decoded
    exact Nat.le_refl _
  · split at decoded
    · split at decoded <;> cases decoded
      simp
    · split at decoded
      · split at decoded <;> cases decoded
        simp only [List.length_cons]
        omega
      · cases decoded

theorem decodeExtended_append (nibble n : Nat) (bs rest tail : List UInt8)
    (decoded : decodeExtended nibble bs = some (n, rest)) :
    decodeExtended nibble (bs ++ tail) = some (n, rest ++ tail) := by
  unfold decodeExtended at decoded ⊢
  split at decoded
  · next small =>
    cases decoded
    rw [if_pos small]
  · next large =>
    rw [if_neg large]
    split at decoded
    · next one =>
      rw [if_pos one]
      split at decoded <;> cases decoded
      rfl
    · next notOne =>
      rw [if_neg notOne]
      split at decoded
      · next two =>
        rw [if_pos two]
        split at decoded <;> cases decoded
        rfl
      · cases decoded

/-- What a successful option decoding consists of. -/
theorem decodeOption_eq_some (number : Nat) (bs rest : List UInt8) (o : MessageOption)
    (decoded : decodeOption number bs = some (o, rest)) :
    ∃ head tail delta afterDelta length afterLength, bs = head :: tail ∧
      decodeExtended (head.toNat / 16) tail = some (delta, afterDelta) ∧
      decodeExtended (head.toNat % 16) afterDelta = some (length, afterLength) ∧
      length ≤ afterLength.length ∧ o = ⟨number + delta, afterLength.take length⟩ ∧
      rest = afterLength.drop length := by
  cases bs with
  | nil => cases decoded
  | cons head tail =>
    simp only [decodeOption, Option.bind_eq_bind, Option.bind_eq_some_iff] at decoded
    obtain ⟨⟨delta, afterDelta⟩, first, ⟨length, afterLength⟩, second, last⟩ := decoded
    split at last
    · next fits =>
      cases last
      exact ⟨head, tail, delta, afterDelta, length, afterLength, rfl, first, second, fits, rfl, rfl⟩
    · cases last

theorem decodeOption_length (number : Nat) (bs rest : List UInt8) (o : MessageOption)
    (decoded : decodeOption number bs = some (o, rest)) : rest.length < bs.length := by
  obtain ⟨head, tail, delta, afterDelta, length, afterLength, rfl, first, second, fits, rfl, rfl⟩ :=
    decodeOption_eq_some number bs rest o decoded
  have one := decodeExtended_length _ _ _ _ first
  have two := decodeExtended_length _ _ _ _ second
  simp only [List.length_drop, List.length_cons]
  omega

theorem decodeOption_append (number : Nat) (bs rest tail : List UInt8) (o : MessageOption)
    (decoded : decodeOption number bs = some (o, rest)) :
    decodeOption number (bs ++ tail) = some (o, rest ++ tail) := by
  obtain ⟨head, bytes, delta, afterDelta, length, afterLength, rfl, first, second, fits, rfl, rfl⟩ :=
    decodeOption_eq_some number bs rest o decoded
  have one := decodeExtended_append _ _ _ _ tail first
  have two := decodeExtended_append _ _ _ _ tail second
  simp only [List.cons_append, decodeOption, Option.bind_eq_bind, one, two, Option.bind_some]
  rw [if_pos (by rw [List.length_append]; omega), List.take_append_of_le_length fits,
    List.drop_append_of_le_length fits]

/-- The marker is not the head of an option. -/
theorem decodeOption_marker (number : Nat) (bs : List UInt8) :
    decodeOption number (payloadMarker :: bs) = none := by
  simp [decodeOption, payloadMarker, decodeExtended]

theorem decodeOption_zero (number : Nat) (bs : List UInt8) :
    decodeOption number (0 :: bs) = some (⟨number, []⟩, bs) := by
  simp [decodeOption, decodeExtended]

theorem decodeBody_iff (fuel number : Nat) (bs : List UInt8) (enough : bs.length ≤ fuel)
    (os : List MessageOption) (payload : List UInt8) :
    decodeBody fuel number bs = some (os, payload) ↔ Body number bs os payload := by
  -- the fuel is the number of bytes, and every option takes one
  induction fuel generalizing number bs os payload with
  | zero =>
    cases bs with
    | cons head bs => simp at enough
    | nil =>
      constructor
      · intro decoded
        cases decoded
        exact .done number
      · intro body
        cases body with
        | done => rfl
        | option decoded => cases decoded
  | succ fuel ih =>
    cases bs with
    | nil =>
      constructor
      · intro decoded
        cases decoded
        exact .done number
      · intro body
        cases body with
        | done => rfl
        | option decoded => cases decoded
    | cons head bs =>
      simp only [decodeBody]
      by_cases marker : head = payloadMarker
      · subst marker
        rw [if_pos rfl]
        constructor
        · intro decoded
          split at decoded
          · cases decoded
          · next nonempty =>
            cases decoded
            exact .payload number _ nonempty
        · intro body
          cases body with
          | payload _ _ nonempty => rw [if_neg nonempty]
          | option decoded => rw [decodeOption_marker] at decoded; cases decoded
      · rw [if_neg marker]
        cases decoded : decodeOption number (head :: bs) with
        | none =>
          constructor
          · intro absurd
            cases absurd
          · intro body
            cases body with
            | payload => exact absurd rfl marker
            | option first => rw [decoded] at first; cases first
        | some pair =>
          obtain ⟨o, rest⟩ := pair
          have shorter := decodeOption_length _ _ _ _ decoded
          have bound : rest.length ≤ fuel := by
            simp only [List.length_cons] at enough shorter
            omega
          simp only [Option.map_eq_some_iff, Prod.exists, Prod.mk.injEq]
          constructor
          · rintro ⟨tail, p, below, rfl, rfl⟩
            exact .option decoded ((ih _ _ bound _ _).mp below)
          · intro body
            cases body with
            | payload => exact absurd rfl marker
            | option first below =>
              rw [decoded] at first
              cases first
              exact ⟨_, _, (ih _ _ bound _ _).mpr below, rfl, rfl⟩

/-- Zero bytes read as options without a value. -/
theorem body_zeros (number k : Nat) :
    Body number (List.replicate k 0) (List.replicate k ⟨number, []⟩) [] := by
  induction k with
  | zero => exact .done number
  | succ k ih => exact .option (decodeOption_zero number _) ih

/-- Trailing zero bytes never make a message malformed, and they always show: as further
options, or at the end of the payload. -/
theorem body_pad (number k : Nat) (bs : List UInt8) (os : List MessageOption)
    (payload : List UInt8) (body : Body number bs os payload) :
    ∃ os' payload', Body number (bs ++ List.replicate k 0) os' payload' ∧
      os'.length + payload'.length = os.length + payload.length + k := by
  -- the padding goes behind whatever ends the body
  induction body with
  | done number => exact ⟨_, _, body_zeros number k, by simp⟩
  | payload number bs nonempty =>
    refine ⟨_, _, .payload number _ (by simp [nonempty]), ?_⟩
    simp
  | option decoded _ ih =>
    obtain ⟨os', payload', below, size⟩ := ih
    refine ⟨_, _, .option (decodeOption_append _ _ _ _ _ decoded) below, ?_⟩
    simp only [List.length_cons]
    omega

/-- The number that an option behind these is reckoned from. -/
def lastNumber : Nat → List MessageOption → Nat
  | number, [] => number
  | _, o :: os => lastNumber o.number os

/-- Zero bytes behind a payload lengthen it. -/
theorem body_pad_payload (number k : Nat) (bs : List UInt8) (os : List MessageOption)
    (payload : List UInt8) (body : Body number bs os payload) (nonempty : payload ≠ []) :
    Body number (bs ++ List.replicate k 0) os (payload ++ List.replicate k 0) := by
  induction body with
  | done number => exact absurd rfl nonempty
  | payload number bs _ => exact .payload number _ (by simp [nonempty])
  | option decoded _ ih => exact .option (decodeOption_append _ _ _ _ _ decoded) (ih nonempty)

/-- Zero bytes behind the last option are more options with its number. -/
theorem body_pad_options (number k : Nat) (bs : List UInt8) (os : List MessageOption)
    (payload : List UInt8) (body : Body number bs os payload) (empty : payload = []) :
    Body number (bs ++ List.replicate k 0) (os ++ List.replicate k ⟨lastNumber number os, []⟩) [] := by
  induction body with
  | done number => exact body_zeros number k
  | payload number bs nonempty => exact absurd empty nonempty
  | option decoded _ ih => exact .option (decodeOption_append _ _ _ _ _ decoded) (ih empty)

/-! ## Messages -/

/-- The message with zero bytes behind it. -/
def Message.padded (m : Message) (k : Nat) : Message :=
  if m.payload = [] then
    { m with options := m.options ++ List.replicate k ⟨lastNumber 0 m.options, []⟩ }
  else { m with payload := m.payload ++ List.replicate k 0 }

theorem Message.padded_body (m : Message) (k : Nat) (bs : List UInt8)
    (body : Body 0 bs m.options m.payload) :
    Body 0 (bs ++ List.replicate k 0) (m.padded k).options (m.padded k).payload := by
  unfold padded
  split
  · next empty =>
    dsimp only
    rw [empty]
    exact body_pad_options 0 k bs _ _ body empty
  · next nonempty => exact body_pad_payload 0 k bs _ _ body nonempty

@[simp] theorem Message.padded_version (m : Message) (k : Nat) : (m.padded k).version = m.version := by
  unfold padded
  split <;> rfl

@[simp] theorem Message.padded_header (m : Message) (k : Nat) : (m.padded k).header = m.header := by
  unfold padded
  split <;> rfl

def decode (bs : List UInt8) : Option Message :=
  if 4 + tokenLength bs ≤ bs.length ∧ tokenLength bs ≤ 8 then
    (decodeBody bs.length 0 (bs.drop (4 + tokenLength bs))).map fun body =>
      ⟨version bs, header bs, body.1, body.2⟩
  else none

theorem decode_eq_some_iff (bs : List UInt8) (m : Message) :
    decode bs = some m ↔ 4 + tokenLength bs ≤ bs.length ∧ tokenLength bs ≤ 8 ∧
      m.version = version bs ∧ m.header = header bs ∧
      Body 0 (bs.drop (4 + tokenLength bs)) m.options m.payload := by
  unfold decode
  split
  · next fits =>
    simp only [Option.map_eq_some_iff, Prod.exists]
    constructor
    · rintro ⟨os, payload, decoded, rfl⟩
      exact ⟨fits.1, fits.2, rfl, rfl, (decodeBody_iff _ _ _ (by simp) _ _).mp decoded⟩
    · rintro ⟨_, _, ver, head, body⟩
      refine ⟨m.options, m.payload, (decodeBody_iff _ _ _ (by simp) _ _).mpr body, ?_⟩
      rw [← ver, ← head]
  · next short =>
    constructor
    · intro absurd
      cases absurd
    · rintro ⟨long, token, _⟩
      exact absurd ⟨long, token⟩ short

/-- A well-formed message stays well formed behind zero bytes, but is another message. -/
theorem decode_pad (bs : List UInt8) (m : Message) (k : Nat) (decoded : decode bs = some m) :
    ∃ m', decode (bs ++ List.replicate k 0) = some m' ∧ m'.header = m.header ∧
      m'.options.length + m'.payload.length = m.options.length + m.payload.length + k := by
  obtain ⟨fits, token, ver, head, body⟩ := (decode_eq_some_iff bs m).mp decoded
  obtain ⟨os, payload, padded, size⟩ := body_pad 0 k _ _ _ body
  have sameLength : tokenLength (bs ++ List.replicate k 0) = tokenLength bs := by
    simp only [tokenLength, byteAt_append bs _ 0 (by omega)]
  refine ⟨⟨version (bs ++ List.replicate k 0), m.header, os, payload⟩, ?_, rfl, size⟩
  rw [decode_eq_some_iff, sameLength, List.length_append, header_append _ _ fits]
  refine ⟨by omega, token, rfl, head, ?_⟩
  rw [List.drop_append_of_le_length fits]
  exact padded

theorem version_append (bs tail : List UInt8) (nonempty : 0 < bs.length) :
    version (bs ++ tail) = version bs := by
  rw [version, version, byteAt_append bs tail 0 nonempty]

/-- What zero bytes behind a message make of it. -/
theorem decode_padded (bs : List UInt8) (m : Message) (k : Nat) (decoded : decode bs = some m) :
    decode (bs ++ List.replicate k 0) = some (m.padded k) := by
  obtain ⟨fits, token, ver, head, body⟩ := (decode_eq_some_iff bs m).mp decoded
  have sameLength : tokenLength (bs ++ List.replicate k 0) = tokenLength bs := by
    simp only [tokenLength, byteAt_append bs _ 0 (by omega)]
  rw [decode_eq_some_iff, sameLength, List.length_append, header_append _ _ fits,
    version_append _ _ (by omega), List.drop_append_of_le_length fits, Message.padded_version,
    Message.padded_header]
  exact ⟨by omega, token, ver, head, m.padded_body k _ body⟩

/-! ## Encoding -/

/-- An extended nibble stands for less: 269 and two bytes. -/
def extendedLimit : Nat := 269 + 65536

def encodeOptions : Nat → List MessageOption → List UInt8
  | _, [] => []
  | number, o :: os => encodeOption number o ++ encodeOptions o.number os

/-- Without a payload there is no marker. -/
def encodePayload (payload : List UInt8) : List UInt8 :=
  if payload = [] then [] else payloadMarker :: payload

theorem encodePayload_length (payload : List UInt8) :
    (encodePayload payload).length = if payload = [] then 0 else 1 + payload.length := by
  unfold encodePayload
  split
  · rfl
  · rw [List.length_cons, Nat.add_comm]

def encode (m : Message) : List UInt8 :=
  encodeHeader m.version m.header ++ encodeOptions 0 m.options ++ encodePayload m.payload

/-- The options can be written behind an option of the given number: in order, with differences and
lengths that an extended nibble can stand for. -/
def Encodable : Nat → List MessageOption → Prop
  | _, [] => True
  | number, o :: os => number ≤ o.number ∧ o.number - number < extendedLimit ∧
      o.value.length < extendedLimit ∧ Encodable o.number os

/-- The nibble 15 is reserved, so an option never starts like the marker. -/
theorem encodeExtended_nibble (n : Nat) : (encodeExtended n).1 < 15 := by
  unfold encodeExtended
  split
  · next small => exact Nat.lt_trans small (by decide)
  · split <;> simp

theorem decodeExtended_encodeExtended (n : Nat) (rest : List UInt8) (bound : n < extendedLimit) :
    decodeExtended (encodeExtended n).1 ((encodeExtended n).2 ++ rest) = some (n, rest) := by
  unfold extendedLimit at bound
  unfold encodeExtended
  split
  · next small => simp [decodeExtended, small]
  · split
    · next one =>
      simp only [decodeExtended, List.cons_append, List.nil_append, Nat.lt_irrefl, if_false, if_true]
      rw [UInt8.toNat_ofNat']
      simp only [Option.some.injEq, Prod.mk.injEq, and_true]
      omega
    · next two =>
      simp only [decodeExtended, List.cons_append, List.nil_append, Nat.reduceLT, Nat.reduceEqDiff,
        if_false, if_true]
      rw [UInt8.toNat_ofNat', UInt8.toNat_ofNat']
      simp only [Option.some.injEq, Prod.mk.injEq, and_true]
      omega

theorem decodeOption_encodeOption (number : Nat) (o : MessageOption) (rest : List UInt8)
    (ordered : number ≤ o.number) (delta : o.number - number < extendedLimit)
    (length : o.value.length < extendedLimit) :
    decodeOption number (encodeOption number o ++ rest) = some (o, rest) := by
  have first := decodeExtended_encodeExtended (o.number - number)
    ((encodeExtended o.value.length).2 ++ o.value ++ rest) delta
  have second := decodeExtended_encodeExtended o.value.length (o.value ++ rest) length
  have deltaNibble := encodeExtended_nibble (o.number - number)
  have lengthNibble := encodeExtended_nibble o.value.length
  have head : (UInt8.ofNat ((encodeExtended (o.number - number)).1 * 16 +
      (encodeExtended o.value.length).1)).toNat =
      (encodeExtended (o.number - number)).1 * 16 + (encodeExtended o.value.length).1 := by
    rw [UInt8.toNat_ofNat']
    omega
  have high : ((encodeExtended (o.number - number)).1 * 16 + (encodeExtended o.value.length).1) / 16 =
      (encodeExtended (o.number - number)).1 := by omega
  have low : ((encodeExtended (o.number - number)).1 * 16 + (encodeExtended o.value.length).1) % 16 =
      (encodeExtended o.value.length).1 := by omega
  simp only [encodeOption, List.cons_append, List.append_assoc, decodeOption, head, high, low,
    Option.bind_eq_bind] at first ⊢
  rw [first, Option.bind_some]
  simp only [second, Option.bind_some]
  simp [Nat.add_sub_cancel' ordered]

/-- Options that can be written are read back, up to the marker or the end. -/
theorem body_encode (number : Nat) (os : List MessageOption) (payload : List UInt8)
    (encodable : Encodable number os) :
    Body number (encodeOptions number os ++ encodePayload payload) os payload := by
  induction os generalizing number with
  | nil =>
    rw [encodeOptions, List.nil_append, encodePayload]
    split
    · next empty =>
      rw [empty]
      exact .done number
    · next nonempty => exact .payload number payload nonempty
  | cons o os ih =>
    obtain ⟨ordered, delta, length, rest⟩ := encodable
    rw [encodeOptions, List.append_assoc]
    exact .option (decodeOption_encodeOption number o _ ordered delta length) (ih o.number rest)

theorem version_encodeHeader (version : Nat) (h : Header) (tail : List UInt8) (low : version < 4)
    (short : h.token.length ≤ 8) : Rfc7252.version (encodeHeader version h ++ tail) = version := by
  have bound := h.type.bits_lt
  simp only [Rfc7252.version, byteAt, encodeHeader, List.cons_append, List.getD_cons_zero,
    UInt8.toNat_ofNat']
  omega

/-- An encoded message decodes to itself. -/
theorem decode_encode (m : Message) (version : m.version < 4) (token : m.header.token.length ≤ 8)
    (options : Encodable 0 m.options) : decode (encode m) = some m := by
  rw [decode_eq_some_iff, encode, List.append_assoc, tokenLength_encodeHeader _ _ _ token,
    header_encodeHeader _ _ _ token, version_encodeHeader _ _ _ version token]
  refine ⟨?_, token, rfl, rfl, ?_⟩
  · rw [List.length_append, encodeHeader_length]
    omega
  · rw [← encodeHeader_length m.version, List.drop_left]
    exact body_encode 0 m.options m.payload options

end Rfc7252
