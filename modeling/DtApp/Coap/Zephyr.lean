import Mathlib.Data.Int.ModEq
import DtApp.Library.Rfc7252

/-!
# The kernel and the CoAP library

The Zephyr calls that `coap.c` and `main.c` rest on. The CoAP library is not part of the
sources: it is a parameter, and what the code relies on is stated as laws about it. What
the kernel, the clock and the random generator answer during one step is collected in
`Env`; nothing is assumed about it.
-/
namespace DtApp.Coap

/-! ## Constants -/

def eperm : Int := 1
def enoent : Int := 2
def eagain : Int := 11
def enomem : Int := 12
def einval : Int := 22
def ecanceled : Int := 140

def coapCodeEmpty : UInt8 := 0
def coapMethodPost : UInt8 := 0x02
def coapResponseCodeCreated : UInt8 := 0x41
def coapResponseCodeBadRequest : UInt8 := 0x80
def coapResponseCodeNotFound : UInt8 := 0x84
def coapResponseCodeNotAllowed : UInt8 := 0x85
def coapResponseCodeInternalError : UInt8 := 0xa0

def coapOptionUriPath : Nat := 11

/-- Timeouts are `s32_t` milliseconds. -/
def kSeconds (s : Int) : Int := 1000 * s
def kForever : Int := -1

/-- Conversion to `s32_t`. -/
def s32 (x : Int) : Int := (x + 2 ^ 31) % 2 ^ 32 - 2 ^ 31

/-! ## Packets and addresses -/

abbrev CoapType := Rfc7252.MessageType
abbrev CoapOption := Rfc7252.MessageOption
abbrev Header := Rfc7252.Header

/-- Storage for a message. `owner` names the `coap_endpoint_post_async` call that allocated
it on the heap; it is `none` for a stack array and for the bytes of a receive item. -/
structure Buffer where
  owner : Option Nat
  bytes : List UInt8
  deriving DecidableEq

def stackBuffer : Buffer := ⟨none, []⟩

/-- `struct coap_packet`. The program uses `data` and `offset`; the other fields are the
library's bookkeeping. -/
structure CoapPacket where
  data : Option Buffer
  offset : Nat
  maxLen : Nat
  delta : Nat
  deriving DecidableEq

def CoapPacket.null : CoapPacket := ⟨none, 0, 0, 0⟩

/-- The bytes that `sendto(sock, data, offset, …)` reads. -/
def CoapPacket.wire (p : CoapPacket) : List UInt8 :=
  match p.data with
  | some buffer => buffer.bytes.take p.offset
  | none => []

/-- The heap allocation that `k_free(packet.data)` releases. -/
def CoapPacket.owner (p : CoapPacket) : Option Nat := p.data.bind Buffer.owner

/-- The bytes of a packet; there are none behind a null pointer. -/
def CoapPacket.bytes (p : CoapPacket) : List UInt8 := (p.data.map Buffer.bytes).getD []

/-- The message that the first `maxLen` bytes of a packet stand for. -/
def CoapPacket.message (p : CoapPacket) : Option Rfc7252.Message :=
  Rfc7252.decode (p.bytes.take p.maxLen)

/-- A `struct sockaddr` with its `socklen_t`. -/
structure SockAddr where
  addr : List UInt8
  addrLen : Nat
  deriving DecidableEq

/-- What an address comparison looks at: the length and that many bytes. -/
def SockAddr.peer (a : SockAddr) : Nat × List UInt8 := (a.addrLen, a.addr.take a.addrLen)

def SockAddr.equal (a b : SockAddr) : Bool :=
  a.addrLen == b.addrLen && a.addr.take b.addrLen == b.addr.take b.addrLen

theorem SockAddr.equal_iff (a b : SockAddr) : a.equal b = true ↔ a.peer = b.peer := by
  simp only [equal, peer, Bool.and_eq_true, beq_iff_eq, Prod.mk.injEq]
  constructor
  · rintro ⟨length, bytes⟩
    exact ⟨length, by rw [length]; exact bytes⟩
  · rintro ⟨length, bytes⟩
    exact ⟨length, by rw [← bytes, length]⟩

def SockAddr.zero : SockAddr := ⟨[], 0⟩

/-! ## Handlers and resources -/

/-- `coap_response_handler`: the handler of `coap_endpoint_post`, or one of the application. -/
inductive ResponseHandler where
  | postHandler
  | other (f : Nat)
  deriving DecidableEq

/-- The object behind `void *response_handler_data`. For `post_handler` it is the
`post_handler_data` in the stack frame of a call: the fields that are set once are kept
here, the writes to `ret` and `sem` are outputs. -/
structure HandlerData where
  frame : Nat
  addr : SockAddr
  deriving DecidableEq

inductive CoapMethod where
  | messagePost
  | other (f : Nat)
  deriving DecidableEq

/-- `struct coap_resource`; only the POST method is ever set. -/
structure CoapResource where
  path : List (List UInt8)
  post : Option CoapMethod
  deriving DecidableEq

/-- What `coap_handle_request` comes to: a call of a resource's method, whose result it
returns, or a result of its own. -/
inductive Dispatch where
  | method (m : CoapMethod)
  | result (err : Int)
  deriving DecidableEq

/-! ## The library -/

/-- The functions of `net/coap.h` that the program calls. An encoder returns its error code
and the packet it leaves behind. -/
structure Zephyr where
  coapHeaderGetType : CoapPacket → CoapType
  coapHeaderGetCode : CoapPacket → UInt8
  coapHeaderGetId : CoapPacket → UInt16
  coapHeaderGetToken : CoapPacket → List UInt8
  coapPacketInit : Buffer → (maxLen ver : Nat) → CoapType → (token : List UInt8) →
    (code : UInt8) → (id : UInt16) → Int × CoapPacket
  coapPacketAppendOption : CoapPacket → (code : Nat) → (value : List UInt8) → Int × CoapPacket
  coapPacketAppendPayloadMarker : CoapPacket → Int × CoapPacket
  coapPacketAppendPayload : CoapPacket → (payload : List UInt8) → Int × CoapPacket
  coapPacketParse : (data : List UInt8) → (len optNum : Nat) → Int × CoapPacket × List CoapOption
  coapPacketGetPayload : CoapPacket → List UInt8
  coapHandleRequest : CoapPacket → List CoapResource → List CoapOption → Dispatch
  /-- The codes of `enum coap_method` and `enum coap_response_code`. -/
  definedCode : UInt8 → Bool

def Zephyr.header (z : Zephyr) (p : CoapPacket) : Header :=
  ⟨z.coapHeaderGetType p, z.coapHeaderGetCode p, z.coapHeaderGetId p, z.coapHeaderGetToken p⟩

/-- A packet that the encoders built without an error, with the given header, in storage of
the given owner. -/
inductive Zephyr.Built (z : Zephyr) (h : Header) (owner : Option Nat) : CoapPacket → Prop
  | init (buffer : Buffer) (maxLen : Nat) : buffer.owner = owner → h.token.length ≤ 8 →
      z.definedCode h.code = true →
      0 ≤ (z.coapPacketInit buffer maxLen 1 h.type h.token h.code h.id).1 →
      Built z h owner (z.coapPacketInit buffer maxLen 1 h.type h.token h.code h.id).2
  | option (p : CoapPacket) (code : Nat) (value : List UInt8) : Built z h owner p →
      0 ≤ (z.coapPacketAppendOption p code value).1 →
      Built z h owner (z.coapPacketAppendOption p code value).2
  | marker (p : CoapPacket) : Built z h owner p →
      0 ≤ (z.coapPacketAppendPayloadMarker p).1 →
      Built z h owner (z.coapPacketAppendPayloadMarker p).2
  | payload (p : CoapPacket) (payload : List UInt8) : Built z h owner p →
      0 ≤ (z.coapPacketAppendPayload p payload).1 →
      Built z h owner (z.coapPacketAppendPayload p payload).2

/-- The codes that the program puts into messages. -/
def usedCodes : List UInt8 :=
  [coapCodeEmpty, coapMethodPost, coapResponseCodeCreated, coapResponseCodeBadRequest,
    coapResponseCodeNotFound, coapResponseCodeNotAllowed, coapResponseCodeInternalError]

/-- What the program relies on when it encodes: the accessors read back what was encoded, a
token fits the eight bytes that it is read to, the encoders work in the given storage, and
a header that fits is encoded. -/
structure Zephyr.Encodes (z : Zephyr) : Prop where
  token : ∀ p, (z.coapHeaderGetToken p).length ≤ 8
  codes : ∀ code ∈ usedCodes, z.definedCode code = true
  header : ∀ h owner p, z.Built h owner p → z.header p = h ∧ p.owner = owner
  fits : ∀ buffer maxLen type token code id, 4 + token.length ≤ maxLen → token.length ≤ 8 →
    0 ≤ (z.coapPacketInit buffer maxLen 1 type token code id).1

/-- Whatever is encoded, the encoders work in the storage that they are given. -/
structure Zephyr.KeepsStorage (z : Zephyr) : Prop where
  init : ∀ buffer maxLen type token code id,
    0 ≤ (z.coapPacketInit buffer maxLen 1 type token code id).1 →
    (z.coapPacketInit buffer maxLen 1 type token code id).2.owner = buffer.owner
  marker : ∀ p, 0 ≤ (z.coapPacketAppendPayloadMarker p).1 →
    (z.coapPacketAppendPayloadMarker p).2.owner = p.owner
  payload : ∀ p payload, 0 ≤ (z.coapPacketAppendPayload p payload).1 →
    (z.coapPacketAppendPayload p payload).2.owner = p.owner

/-- The packet has storage for a number of bytes, and holds these bytes in it. -/
structure CoapPacket.Holds (p : CoapPacket) (room : Nat) (bytes : List UInt8) : Prop where
  stored : p.data ≠ none
  maxLen : p.maxLen = room
  offset : p.offset = bytes.length
  wire : p.wire = bytes
  fits : bytes.length ≤ room

/-- The result of an encoder: new bytes behind those that were there, or an error when there is
no room for them. -/
structure Writes (room : Nat) (before new : List UInt8) (result : Int × CoapPacket) : Prop where
  fits : 0 ≤ result.1 ↔ before.length + new.length ≤ room
  holds : 0 ≤ result.1 → result.2.Holds room (before ++ new)

/-- The encoders write what RFC 7252 says. Lengths of options and payloads are 16 bits wide, and
options come in the order of their numbers. -/
structure Zephyr.EncodesBytes (z : Zephyr) : Prop where
  init : ∀ buffer room type token code id, token.length ≤ 8 →
    Writes room [] (Rfc7252.encodeHeader 1 ⟨type, code, id, token⟩)
        (z.coapPacketInit buffer room 1 type token code id) ∧
      (0 ≤ (z.coapPacketInit buffer room 1 type token code id).1 →
        (z.coapPacketInit buffer room 1 type token code id).2.delta = 0)
  option : ∀ p room before code value, p.Holds room before → p.delta ≤ code → code < 2 ^ 16 →
    value.length < 2 ^ 16 →
    Writes room before (Rfc7252.encodeOption p.delta ⟨code, value⟩)
        (z.coapPacketAppendOption p code value) ∧
      (0 ≤ (z.coapPacketAppendOption p code value).1 →
        (z.coapPacketAppendOption p code value).2.delta = code)
  marker : ∀ p room before, p.Holds room before →
    Writes room before [Rfc7252.payloadMarker] (z.coapPacketAppendPayloadMarker p)
  payload : ∀ p room before payload, p.Holds room before → payload.length < 2 ^ 16 →
    Writes room before payload (z.coapPacketAppendPayload p payload)

/-- The accessors return 0 for a packet whose data pointer is NULL. -/
structure Zephyr.NullReadsZero (z : Zephyr) : Prop where
  type : ∀ p, p.data = none → z.coapHeaderGetType p = .con
  code : ∀ p, p.data = none → z.coapHeaderGetCode p = coapCodeEmpty
  id : ∀ p, p.data = none → z.coapHeaderGetId p = 0
  token : ∀ p, p.data = none → z.coapHeaderGetToken p = []

/-- The packet is what the parser makes of a datagram, with anything behind it. -/
def Zephyr.Parsed (z : Zephyr) (datagram : List UInt8) (p : CoapPacket) : Prop :=
  ∃ tail len optNum, 0 ≤ (z.coapPacketParse (datagram ++ tail) len optNum).1 ∧
    p = (z.coapPacketParse (datagram ++ tail) len optNum).2.1

/-- Parsing a datagram recovers its header. -/
def Zephyr.ParsesBack (z : Zephyr) : Prop :=
  ∀ h owner p, z.Built h owner p → ∀ p', z.Parsed p.wire p' → z.header p' = h

/-- The bytes are a message that the parser has nothing against. RFC 7252 says more about
messages than their form, such as which versions to ignore; how much of this a parser
judges is left open. -/
def WellFormed (judge : Rfc7252.Message → Bool) (bytes : List UInt8) : Prop :=
  ∃ m, Rfc7252.decode bytes = some m ∧ judge m = true

/-- The parser reads the first `len` bytes as a message. The packet refers to these bytes,
and as many options as there is room for are stored. -/
structure Zephyr.Interprets (z : Zephyr) (judge : Rfc7252.Message → Bool) : Prop where
  accepts : ∀ data len optNum, 0 ≤ (z.coapPacketParse data len optNum).1 ↔
    WellFormed judge (data.take len)
  message : ∀ data len optNum, 0 ≤ (z.coapPacketParse data len optNum).1 →
    (z.coapPacketParse data len optNum).2.1.message = Rfc7252.decode (data.take len)
  options : ∀ data len optNum m, 0 ≤ (z.coapPacketParse data len optNum).1 →
    Rfc7252.decode (data.take len) = some m →
    (z.coapPacketParse data len optNum).2.2 = m.options.take optNum
  payload : ∀ p m, p.message = some m → z.coapPacketGetPayload p = m.payload

/-! ## The surroundings of a step -/

/-- Eight bytes, as `coap_next_token` returns them. -/
abbrev Token := { bytes : List UInt8 // bytes.length = 8 }

/-- What the surroundings answer during one step. -/
structure Env where
  /-- Whether the `n`-th allocation of the step succeeds. -/
  calloc : Nat → Bool
  rand : Nat
  /-- Milliseconds since boot; `k_uptime_get_32` is this number modulo `2 ^ 32`. -/
  uptime : Nat
  /-- The result of handing a packet to the socket, negative (`-errno`) on failure. -/
  sendto : CoapPacket → SockAddr → Int
  nextToken : Token
  nextId : UInt16
  /-- What the stack holds where `receive_packet` declares its inner `err`. -/
  staleErr : Int

def Env.kUptimeGet32 (env : Env) : Int := env.uptime % 2 ^ 32

end DtApp.Coap
