import DtApp.Coap.Steps

/-!
# A library by RFC 7252

The laws about the library are not empty: here is an executable one that meets them. It
encodes and parses by `Rfc7252`, reads undefined codes as the empty code and refuses what
does not fit its buffer. With it an endpoint can be run.
-/
namespace DtApp.Coap

def coapMethods : List UInt8 := [0x01, 0x02, 0x03, 0x04]

def coapResponseCodes : List UInt8 :=
  [0x40, 0x41, 0x42, 0x43, 0x44, 0x45, 0x5f, 0x80, 0x81, 0x82, 0x83, 0x84, 0x85, 0x86, 0x88, 0x8c,
    0x8d, 0x8f, 0xa0, 0xa1, 0xa2, 0xa3, 0xa4, 0xa5]

def definedCode (code : UInt8) : Bool :=
  code == coapCodeEmpty || coapMethods.contains code || coapResponseCodes.contains code

/-- Put bytes behind those of the packet, if they fit. -/
def CoapPacket.write (p : CoapPacket) (bytes : List UInt8) : Int × CoapPacket :=
  if p.offset + bytes.length ≤ p.maxLen then
    (0, { p with
      data := p.data.map fun buffer => { buffer with bytes := buffer.bytes.take p.offset ++ bytes }
      offset := p.offset + bytes.length })
  else (-einval, p)

def uriPath (options : List CoapOption) : List (List UInt8) :=
  (options.filter fun o => o.number == coapOptionUriPath).map Rfc7252.MessageOption.value

def rfcZephyr : Zephyr where
  coapHeaderGetType p := (Rfc7252.header p.bytes).type
  -- a code without a name in the enumerations is read as the empty one
  coapHeaderGetCode p :=
    let code := (Rfc7252.header p.bytes).code
    if definedCode code then code else coapCodeEmpty
  coapHeaderGetId p := (Rfc7252.header p.bytes).id
  coapHeaderGetToken p := (Rfc7252.header p.bytes).token.take 8
  coapPacketInit buffer maxLen ver type token code id :=
    CoapPacket.write ⟨some buffer, 0, maxLen, 0⟩ (Rfc7252.encodeHeader ver ⟨type, code, id, token⟩)
  coapPacketAppendOption p code value :=
    -- options come in the order of their numbers
    if code < p.delta then (-einval, p)
    else
      let written := p.write (Rfc7252.encodeOption p.delta ⟨code, value⟩)
      (written.1, { written.2 with delta := code })
  coapPacketAppendPayloadMarker p := p.write [Rfc7252.payloadMarker]
  coapPacketAppendPayload p payload := p.write payload
  coapPacketParse data len optNum :=
    match Rfc7252.decode (data.take len) with
    | some m => (0, ⟨some ⟨none, data⟩, len, len, 0⟩, m.options.take optNum)
    | none => (-einval, .null, [])
  coapPacketGetPayload p := (p.message.map Rfc7252.Message.payload).getD []
  coapHandleRequest p resources options :=
    match resources.find? fun resource => resource.path == uriPath options with
    | none => .result (-enoent)
    | some resource =>
      if (Rfc7252.header p.bytes).code = coapMethodPost then
        match resource.post with
        | some m => .method m
        | none => .result (-eperm)
      else .result (-eperm)
  definedCode := definedCode

theorem einval_fails : ¬0 ≤ -einval := by decide

theorem CoapPacket.write_fits (p : CoapPacket) (bytes : List UInt8) (fine : 0 ≤ (p.write bytes).1) :
    p.offset + bytes.length ≤ p.maxLen := by
  unfold write at fine
  split at fine
  · assumption
  · exact absurd fine einval_fails

@[simp] theorem CoapPacket.write_owner (p : CoapPacket) (bytes : List UInt8) :
    (p.write bytes).2.owner = p.owner := by
  unfold write
  split
  · cases stored : p.data <;> simp [owner, stored]
  · rfl

/-- A packet whose storage starts with the encoded header and is filled up to the offset. -/
structure Starts (h : Header) (owner : Option Nat) (p : CoapPacket) : Prop where
  token : h.token.length ≤ 8
  code : definedCode h.code = true
  owned : p.owner = owner
  full : p.bytes.length = p.offset
  prefixed : ∃ rest, p.bytes = Rfc7252.encodeHeader 1 h ++ rest

theorem Starts.write {h : Header} {owner : Option Nat} {p : CoapPacket} (starts : Starts h owner p)
    (bytes : List UInt8) (fine : 0 ≤ (p.write bytes).1) : Starts h owner (p.write bytes).2 := by
  obtain ⟨rest, eq⟩ := starts.prefixed
  have fits := p.write_fits bytes fine
  have full := starts.full
  have owned := starts.owned
  cases stored : p.data with
  | none => simp [CoapPacket.bytes, stored, Rfc7252.encodeHeader] at eq
  | some buffer =>
    simp only [CoapPacket.bytes, CoapPacket.owner, stored, Option.map_some, Option.getD_some,
      Option.bind_some] at full eq owned
    simp only [CoapPacket.write, if_pos fits]
    refine ⟨starts.token, starts.code, ?_, ?_, rest ++ bytes, ?_⟩
    · simpa [CoapPacket.owner, stored] using owned
    · simp [CoapPacket.bytes, stored, full]
    · simp only [CoapPacket.bytes, stored, Option.map_some, Option.getD_some, ← full,
        List.take_length, eq, List.append_assoc]

/-- Everything the encoders build starts with its header. -/
theorem rfcZephyr_built (h : Header) (owner : Option Nat) (p : CoapPacket)
    (built : rfcZephyr.Built h owner p) : Starts h owner p := by
  -- the header is written first, and the encoders only append
  induction built with
  | init buffer maxLen owned short defined fine =>
    have fits := CoapPacket.write_fits _ _ fine
    simp only [rfcZephyr, CoapPacket.write, if_pos fits]
    exact ⟨short, defined, owned, by simp [CoapPacket.bytes], [], by simp [CoapPacket.bytes]⟩
  | option p code value _ fine ih =>
    simp only [rfcZephyr] at fine ⊢
    split at fine
    · exact absurd fine einval_fails
    · next ordered =>
      rw [if_neg ordered]
      have written := ih.write _ fine
      exact ⟨written.token, written.code, written.owned, written.full, written.prefixed⟩
  | marker p _ fine ih => exact ih.write _ fine
  | payload p payload _ fine ih => exact ih.write _ fine

/-- The accessors read the header at the start of the storage. -/
theorem rfcZephyr_header (h : Header) (rest : List UInt8) (p : CoapPacket)
    (short : h.token.length ≤ 8) (defined : definedCode h.code = true)
    (eq : p.bytes = Rfc7252.encodeHeader 1 h ++ rest) : rfcZephyr.header p = h := by
  have read := Rfc7252.header_encodeHeader 1 h rest short
  simp only [Zephyr.header, rfcZephyr, eq, read, if_pos defined, List.take_of_length_le short]

theorem rfcZephyr_encodes : rfcZephyr.Encodes where
  token p := by
    simp only [rfcZephyr, List.length_take]
    omega
  codes := by decide +kernel
  header h owner p built := by
    have starts := rfcZephyr_built h owner p built
    obtain ⟨rest, eq⟩ := starts.prefixed
    exact ⟨rfcZephyr_header h rest p starts.token starts.code eq, starts.owned⟩
  fits buffer maxLen type token code id room _ := by
    simp only [rfcZephyr, CoapPacket.write, Rfc7252.encodeHeader_length]
    rw [if_pos (by omega)]

theorem rfcZephyr_keepsStorage : rfcZephyr.KeepsStorage where
  init buffer maxLen _ _ _ _ _ := CoapPacket.write_owner ⟨some buffer, 0, maxLen, 0⟩ _
  marker p _ := p.write_owner _
  payload p payload _ := p.write_owner payload

@[simp] theorem CoapPacket.write_delta (p : CoapPacket) (bytes : List UInt8) :
    (p.write bytes).2.delta = p.delta := by
  unfold write
  split <;> rfl

theorem CoapPacket.Holds.write {p : CoapPacket} {room : Nat} {before : List UInt8}
    (holds : p.Holds room before) (new : List UInt8) : Writes room before new (p.write new) := by
  have bound : p.offset + new.length ≤ p.maxLen ↔ before.length + new.length ≤ room := by
    rw [holds.offset, holds.maxLen]
  by_cases fits : p.offset + new.length ≤ p.maxLen
  · cases stored : p.data with
    | none => exact absurd stored holds.stored
    | some buffer =>
      have wire := holds.wire
      have length := holds.offset
      simp only [CoapPacket.wire, stored] at wire
      simp only [CoapPacket.write, if_pos fits, stored, Option.map_some]
      refine ⟨iff_of_true (Int.le_refl 0) (bound.mp fits), fun _ => ⟨by simp, holds.maxLen, ?_, ?_, ?_⟩⟩
      · rw [List.length_append, length]
      · have all : p.offset + new.length = (before ++ new).length := by rw [List.length_append, length]
        simp only [CoapPacket.wire, wire, all, List.take_length]
      · rw [List.length_append]
        exact bound.mp fits
  · rw [CoapPacket.write, if_neg fits]
    refine ⟨iff_of_false einval_fails fun room => fits (bound.mpr room), fun fine => ?_⟩
    exact absurd fine einval_fails

theorem rfcZephyr_encodesBytes : rfcZephyr.EncodesBytes where
  init buffer room type token code id _ := by
    have empty : CoapPacket.Holds ⟨some buffer, 0, room, 0⟩ room [] :=
      ⟨by simp, rfl, rfl, by simp [CoapPacket.wire], Nat.zero_le _⟩
    exact ⟨empty.write _, fun _ => CoapPacket.write_delta _ _⟩
  option p room before code value holds ordered _ _ := by
    have written := holds.write (Rfc7252.encodeOption p.delta ⟨code, value⟩)
    simp only [rfcZephyr, if_neg (Nat.not_lt.mpr ordered)]
    refine ⟨⟨written.fits, fun fine => ?_⟩, fun _ => trivial⟩
    -- the field that is set plays no role for the bytes
    have after := written.holds fine
    exact ⟨after.stored, after.maxLen, after.offset, after.wire, after.fits⟩
  marker p room before holds := holds.write _
  payload p room before payload holds _ := holds.write payload

theorem rfcZephyr_nullReadsZero : rfcZephyr.NullReadsZero := by
  have nothing : ∀ p : CoapPacket, p.data = none → p.bytes = [] := by
    intro p null
    rw [CoapPacket.bytes, null]
    rfl
  constructor <;> intro p null <;> simp only [rfcZephyr, nothing p null] <;> decide

theorem rfcZephyr_parsesBack : rfcZephyr.ParsesBack := by
  rintro h owner p built _ ⟨tail, len, optNum, fine, rfl⟩
  have starts := rfcZephyr_built h owner p built
  obtain ⟨rest, eq⟩ := starts.prefixed
  have wire : p.wire = p.bytes := by
    cases stored : p.data with
    | none => simp [CoapPacket.wire, CoapPacket.bytes, stored]
    | some buffer =>
      have full := starts.full
      simp only [CoapPacket.bytes, stored, Option.map_some, Option.getD_some] at full
      simp [CoapPacket.wire, CoapPacket.bytes, stored, ← full]
  -- the parser keeps the bytes it was given, so the accessors read the header off them
  cases decoded : Rfc7252.decode ((p.wire ++ tail).take len) with
  | none =>
    simp only [rfcZephyr, decoded] at fine
    exact absurd fine einval_fails
  | some m =>
    apply rfcZephyr_header h (rest ++ tail) _ starts.token starts.code
    simp only [rfcZephyr, decoded]
    rw [← List.append_assoc, ← eq, ← wire]
    rfl

/-- The reference parser judges nothing but the form. -/
theorem rfcZephyr_interprets : rfcZephyr.Interprets fun _ => true where
  accepts data len optNum := by
    simp only [WellFormed, and_true]
    cases decoded : Rfc7252.decode (data.take len) with
    | none =>
      simp only [rfcZephyr, decoded]
      exact iff_of_false einval_fails (by simp)
    | some m => simp [rfcZephyr, decoded]
  message data len optNum fine := by
    cases decoded : Rfc7252.decode (data.take len) with
    | none =>
      simp only [rfcZephyr, decoded] at fine
      exact absurd fine einval_fails
    | some m => simp [rfcZephyr, CoapPacket.message, CoapPacket.bytes, decoded]
  options data len optNum m _ decoded := by simp only [rfcZephyr, decoded]
  payload p m stands := by simp [rfcZephyr, stands]

theorem rfcZephyr_dispatches : rfcZephyr.Dispatches where
  method p resources options m handled := by
    simp only [rfcZephyr] at handled
    split at handled
    · cases handled
    · next resource found =>
      split at handled
      · split at handled <;> cases handled
        exact ⟨resource, List.mem_of_find?_eq_some found, by assumption⟩
      · cases handled
  result p resources options err _ handled := by
    simp only [rfcZephyr] at handled
    split at handled
    · cases handled
      decide
    · split at handled
      · split at handled <;> cases handled
        decide
      · cases handled
        decide

/-! ## An endpoint to run -/

/-- Memory and the network are there, and the clock shows the given uptime. -/
def calmEnv (id : UInt16) (uptime : Nat) : Env where
  calloc _ := true
  rand := 0
  uptime := uptime
  sendto p _ := p.offset
  nextToken := ⟨[.ofNat (id.toNat / 256), .ofNat (id.toNat % 256), 0, 0, 0, 0, 0, 0], rfl⟩
  nextId := id
  staleErr := 0

/-- An application with no handlers of its own. -/
def plainApp : App where
  responseHandler _ _ _ _ := []
  method _ _ _ := ([], 0)

def serverAddr : SockAddr := ⟨[192, 0, 2, 1], 4⟩

def clientAddr : SockAddr := ⟨[192, 0, 2, 2], 4⟩

/-- The resource table of `main.c`. -/
def mainResources : List CoapResource := [⟨[[109, 101, 115, 115, 97, 103, 101]], some .messagePost⟩]

/-- An endpoint on the reference library with the resources of `main.c`. -/
def sampleEndpoint : Machine EndpointState Event Output := endpoint rfcZephyr plainApp 3 mainResources

/-- A call of `coap_endpoint_post` to the server. -/
def samplePost (call : Nat) : Event :=
  .post (calmEnv (.ofNat (call + 1)) 0) (coapEndpointPostArgs call serverAddr none (some [104, 105]) 2)

/-- A response to the first request, with the payload `a`. -/
def answerDatagram : List UInt8 := [0x68, 0x41, 0, 1, 0, 1, 0, 0, 0, 0, 0, 0, 0xff, 0x61]

/-- The item that `recv_thread` queues for a datagram, if it queues one. -/
def received (datagram : List UInt8) (addr : SockAddr) : PacketRxDataItem :=
  match recvThread rfcZephyr true (some (datagram, addr)) with
  | .queued rx => rx
  | _ => ⟨.null, [], addr⟩

theorem received_addr (datagram : List UInt8) (addr : SockAddr) :
    (received datagram addr).addr = addr := by
  simp only [received, recvThread, Bool.not_true, Bool.false_eq_true, if_false]
  split
  · next rx queued =>
    split at queued <;> cases queued
    rfl
  · rfl

theorem received_parsed (datagram : List UInt8) (addr : SockAddr)
    (fits : datagram.length ≤ maxCoapMsgLen)
    (fine : 0 ≤ (rfcZephyr.coapPacketParse (rxData datagram) maxCoapMsgLen maxCoapOptions).1) :
    rfcZephyr.Parsed datagram (received datagram addr).packet := by
  have queued := (recvThread_eq_queued rfcZephyr datagram addr _).mpr ⟨fine, rfl⟩
  rw [received, queued]
  exact recvThread_parsed rfcZephyr datagram addr fits _ queued

/-- The header of an accepted datagram is read off the item. -/
theorem received_header (h : Header) (rest : List UInt8) (addr : SockAddr)
    (token : h.token.length ≤ 8) (defined : definedCode h.code = true)
    (fits : (Rfc7252.encodeHeader 1 h ++ rest).length ≤ maxCoapMsgLen)
    (fine : 0 ≤ (rfcZephyr.coapPacketParse (rxData (Rfc7252.encodeHeader 1 h ++ rest)) maxCoapMsgLen
      maxCoapOptions).1) :
    rfcZephyr.header (received (Rfc7252.encodeHeader 1 h ++ rest) addr).packet = h := by
  have queued := (recvThread_eq_queued rfcZephyr _ addr _).mpr ⟨fine, rfl⟩
  rw [received, queued]
  cases decoded : Rfc7252.decode
      ((rxData (Rfc7252.encodeHeader 1 h ++ rest)).take maxCoapMsgLen) with
  | none =>
    simp only [rfcZephyr, decoded] at fine
    exact absurd fine einval_fails
  | some m =>
    apply rfcZephyr_header h _ _ token defined
    simp only [rfcZephyr, decoded]
    rw [rxData_eq _ fits, List.append_assoc]
    rfl

/-- An encoded message is accepted with the zeros that stand behind it. -/
theorem encode_accepted (m : Rfc7252.Message) (version : m.version < 4)
    (token : m.header.token.length ≤ 8) (options : Rfc7252.Encodable 0 m.options)
    (fits : (Rfc7252.encode m).length ≤ maxCoapMsgLen) :
    0 ≤ (rfcZephyr.coapPacketParse (rxData (Rfc7252.encode m)) maxCoapMsgLen maxCoapOptions).1 := by
  have decoded := Rfc7252.decode_encode m version token options
  obtain ⟨m', padded, _⟩ :=
    Rfc7252.decode_pad _ m (maxCoapMsgLen - (Rfc7252.encode m).length) decoded
  rw [← rxData_eq _ fits] at padded
  have whole : (rxData (Rfc7252.encode m)).take maxCoapMsgLen = rxData (Rfc7252.encode m) := by
    apply List.take_of_length_le
    rw [rxData_eq _ fits, List.length_append, List.length_replicate]
    omega
  simp only [rfcZephyr, whole, padded]
  exact Int.le_refl 0

/-- A message that was sent without options or payload. -/
def sampleRx (h : Header) (addr : SockAddr) : PacketRxDataItem :=
  received (Rfc7252.encodeHeader 1 h) addr

theorem encodeHeader_accepted (h : Header) (token : h.token.length ≤ 8) :
    0 ≤ (rfcZephyr.coapPacketParse (rxData (Rfc7252.encodeHeader 1 h)) maxCoapMsgLen
      maxCoapOptions).1 := by
  have alone : Rfc7252.encode ⟨1, h, [], []⟩ = Rfc7252.encodeHeader 1 h := by
    simp [Rfc7252.encode, Rfc7252.encodeOptions, Rfc7252.encodePayload]
  have accepted := encode_accepted ⟨1, h, [], []⟩ (show 1 < 4 by decide) token trivial
  rw [alone, Rfc7252.encodeHeader_length] at accepted
  exact accepted (Nat.le_trans (Nat.add_le_add_left token 4) (by decide))

theorem sampleRx_addr (h : Header) (addr : SockAddr) : (sampleRx h addr).addr = addr :=
  received_addr _ addr

theorem sampleRx_header (h : Header) (addr : SockAddr) (token : h.token.length ≤ 8)
    (defined : definedCode h.code = true) : rfcZephyr.header (sampleRx h addr).packet = h := by
  have accepted := encodeHeader_accepted h token
  rw [← List.append_nil (Rfc7252.encodeHeader 1 h)] at accepted
  rw [sampleRx, ← List.append_nil (Rfc7252.encodeHeader 1 h)]
  apply received_header h [] addr token defined _ accepted
  rw [List.append_nil, Rfc7252.encodeHeader_length]
  exact Nat.le_trans (Nat.add_le_add_left token 4) (by decide)

/-- A POST that names no resource of the table. -/
def strayRequest (type : CoapType) : PacketRxDataItem :=
  sampleRx ⟨type, coapMethodPost, 9, [7]⟩ clientAddr

theorem strayRequest_header (type : CoapType) :
    rfcZephyr.header (strayRequest type).packet = ⟨type, coapMethodPost, 9, [7]⟩ :=
  sampleRx_header _ _ (show 1 ≤ 8 by decide) (show definedCode coapMethodPost = true by decide)

def messageDatagram (type : CoapType) : List UInt8 :=
  Rfc7252.encodeHeader 1 ⟨type, coapMethodPost, 9, [7]⟩ ++
    Rfc7252.encodeOption 0 ⟨coapOptionUriPath, [109, 101, 115, 115, 97, 103, 101]⟩ ++
    [Rfc7252.payloadMarker, 97]

/-- A POST of one byte to `message`. -/
def messageRequest (type : CoapType) : PacketRxDataItem := received (messageDatagram type) clientAddr

theorem messageDatagram_accepted (type : CoapType) :
    0 ≤ (rfcZephyr.coapPacketParse (rxData (messageDatagram type)) maxCoapMsgLen maxCoapOptions).1 :=
  encode_accepted ⟨1, ⟨type, coapMethodPost, 9, [7]⟩,
    [⟨coapOptionUriPath, [109, 101, 115, 115, 97, 103, 101]⟩], [97]⟩ (show 1 < 4 by decide)
    (show 1 ≤ 8 by decide) ⟨by decide, by decide, by decide, trivial⟩ (show 15 ≤ 1472 by decide)

theorem messageRequest_header (type : CoapType) :
    rfcZephyr.header (messageRequest type).packet = ⟨type, coapMethodPost, 9, [7]⟩ := by
  have accepted := messageDatagram_accepted type
  rw [messageDatagram, List.append_assoc] at accepted
  rw [messageRequest, messageDatagram, List.append_assoc]
  exact received_header _ _ _ (show 1 ≤ 8 by decide) (show definedCode coapMethodPost = true by decide)
    (show 15 ≤ 1472 by decide) accepted

def sampleRun (es : List Event) : EndpointConfig := sampleEndpoint.run sampleEndpoint.start es

theorem sampleRun_reachable (es : List Event) : sampleEndpoint.Reachable anyEvent (sampleRun es) :=
  Machine.reachable_run es (Machine.admits_true es _)

/-- Two requests to the server are in flight, with ids 1 and 2. -/
def twoInflight : EndpointConfig :=
  sampleRun [samplePost 0, .transmit (calmEnv 1 5), samplePost 1, .transmit (calmEnv 2 6)]

end DtApp.Coap
