import DtApp.Library.Bag
import DtApp.Coap.Zephyr

/-!
# The endpoint and its in-flight table

The data types of `coap.c` and the functions that keep the table of packets waiting for
an answer. A pointer into the table is an index below its length.
-/
namespace DtApp.Coap

def maxCoapMsgLen : Nat := 1472
def maxCoapOptions : Nat := 16

/-- A packet that has not been acknowledged, or not been responded to. -/
structure InflightPacket where
  retransmit : Bool
  packet : CoapPacket
  addr : SockAddr
  retransmissionCount : Nat
  timeout : Int
  deadline : Int
  responseHandler : ResponseHandler
  responseHandlerData : HandlerData
  -- ghost: the `coap_endpoint_post_async` call it belongs to
  call : Nat
  deriving DecidableEq

structure CoapEndpoint where
  sock : Int
  resources : List CoapResource
  inflight : Bag InflightPacket

structure PacketTxDataItem where
  packet : CoapPacket
  addr : SockAddr
  responseHandler : ResponseHandler
  responseHandlerData : HandlerData
  -- ghost: the `coap_endpoint_post_async` call that made it
  call : Nat
  deriving DecidableEq

structure PacketRxDataItem where
  packet : CoapPacket
  options : List CoapOption
  addr : SockAddr
  deriving DecidableEq

/-! ## Observations -/

/-- What is observed of a step, in the order in which it happens. -/
inductive Output where
  /-- `coap_endpoint_post_async` returned. -/
  | posted (call : Nat) (handler : ResponseHandler) (data : HandlerData) (ret : Int)
  | queued (tx : PacketTxDataItem)
  /-- `new_inflight_packet` armed an entry, having read the clock and a random number. -/
  | armed (call uptime rand : Nat)
  /-- `k_poll` timed out with this request's entry selected. -/
  | expired (call : Nat)
  | received (rx : PacketRxDataItem)
  /-- A packet handed to the socket: for a request of this endpoint, or as an answer. -/
  | sendto (request : Option Nat) (sock : Int) (packet : CoapPacket) (addr : SockAddr)
  | invoked (call : Nat) (handler : ResponseHandler) (data : HandlerData) (err : Int)
      (response : Option CoapPacket)
  | messagePost (request : CoapPacket) (payload : List UInt8) (addr : SockAddr)
  | otherMethod (f : Nat) (request : CoapPacket) (addr : SockAddr)
  | ret (frame : Nat) (value : Int)
  | semGive (frame : Nat)
  /-- A message buffer was released. -/
  | freed (call : Nat)
  /-- An access through a null pointer. -/
  | fault
  deriving DecidableEq

/-- `k_free` of a packet's data: nothing for NULL or storage that is not from the heap. -/
def kFree (packet : CoapPacket) : List Output := packet.owner.toList.map .freed

/-! ## Code classes -/

def coapCodeClassMask : UInt8 := (7 : UInt8) <<< (5 : UInt8)

def requestCode (code : UInt8) : Bool := code &&& coapCodeClassMask == 0 && code != coapCodeEmpty

def responseCode (code : UInt8) : Bool := code &&& coapCodeClassMask != 0

def isRequest (z : Zephyr) (p : CoapPacket) : Bool := requestCode (z.coapHeaderGetCode p)

def isResponse (z : Zephyr) (p : CoapPacket) : Bool := responseCode (z.coapHeaderGetCode p)

theorem type_of_header {z : Zephyr} {p : CoapPacket} {h : Header} (header : z.header p = h) :
    z.coapHeaderGetType p = h.type := by
  rw [← header]
  rfl

theorem code_of_header {z : Zephyr} {p : CoapPacket} {h : Header} (header : z.header p = h) :
    z.coapHeaderGetCode p = h.code := by
  rw [← header]
  rfl

theorem token_of_header {z : Zephyr} {p : CoapPacket} {h : Header} (header : z.header p = h) :
    z.coapHeaderGetToken p = h.token := by
  rw [← header]
  rfl

theorem isRequest_of_header {z : Zephyr} {p : CoapPacket} {h : Header} (header : z.header p = h) :
    isRequest z p = requestCode h.code := by
  rw [isRequest, code_of_header header]

theorem isResponse_of_header {z : Zephyr} {p : CoapPacket} {h : Header} (header : z.header p = h) :
    isResponse z p = responseCode h.code := by
  rw [isResponse, code_of_header header]

@[simp] theorem requestCode_post : requestCode coapMethodPost = true := by decide

theorem responseCode_of_request (code : UInt8) (request : requestCode code = true) :
    responseCode code = false := by
  simp only [requestCode, Bool.and_eq_true, beq_iff_eq] at request
  simp [responseCode, request.1]

theorem isRequest_of_isResponse (z : Zephyr) (p : CoapPacket) (response : isResponse z p = true) :
    isRequest z p = false := by
  -- the class bits are zero in the one case and not in the other
  by_contra request
  have contradiction := responseCode_of_request _ (Bool.not_eq_false _ ▸ request)
  rw [isResponse, contradiction] at response
  cases response

/-- A code is empty, a request's or a response's. -/
theorem empty_of_neither (code : UInt8) (noRequest : requestCode code = false)
    (noResponse : responseCode code = false) : code = coapCodeEmpty := by
  simp only [responseCode, bne_eq_false_iff_eq] at noResponse
  simpa [requestCode, noResponse] using noRequest

/-- What `coap_handle_request` comes to for a request: it calls the method of a resource of
the table, or calls none and fails. -/
structure Zephyr.Dispatches (z : Zephyr) : Prop where
  method : ∀ p resources options m, z.coapHandleRequest p resources options = .method m →
    ∃ resource ∈ resources, resource.post = some m
  result : ∀ p resources options err, isRequest z p = true →
    z.coapHandleRequest p resources options = .result err → err ≠ 0

/-! ## The table -/

variable (z : Zephyr) (env : Env)

/-- The cell that `k_calloc` zeroed, filled from the item. Only a confirmable packet is
stored with its address and armed. -/
def fillInflight (tx : PacketTxDataItem) : InflightPacket :=
  -- every field that is not set below is zero
  let inflight : InflightPacket :=
    { retransmit := false, packet := .null, addr := .zero, retransmissionCount := 0, timeout := 0,
      deadline := 0, responseHandler := tx.responseHandler,
      responseHandlerData := tx.responseHandlerData, call := tx.call }
  if z.coapHeaderGetType tx.packet = .con then
    -- between ten and eleven seconds
    let timeout := kSeconds 10 + env.rand % kSeconds 1
    { inflight with
      retransmit := true, packet := tx.packet, addr := tx.addr, retransmissionCount := 0
      timeout := timeout, deadline := s32 (env.kUptimeGet32 + timeout) }
  else inflight

/-- The table with the new entry and the pointer to it, or NULL when the allocation of the
longer table fails. -/
def newInflightPacket (ep : CoapEndpoint) (tx : PacketTxDataItem) :
    Option ((grown : CoapEndpoint) × Fin grown.inflight.len) :=
  if env.calloc 0 then
    -- the entries keep their places in the longer table
    let inflight := fillInflight z env tx
    some ⟨{ ep with inflight := ep.inflight.push inflight }, ep.inflight.last inflight⟩
  else none

def freeInflightPacket (ep : CoapEndpoint) (i : Fin ep.inflight.len) : CoapEndpoint × List Output :=
  ({ ep with inflight := ep.inflight.swapRemove i }, kFree (ep.inflight.get i).packet)

/-- Whether the entry replaces the candidate found so far. -/
def sooner (ep : CoapEndpoint) (next : Option (Fin ep.inflight.len)) (i : Fin ep.inflight.len) :
    Bool :=
  (ep.inflight.get i).retransmit &&
    match next with
    | none => true
    -- signed comparison, also for deadlines on both sides of a wrap-around
    | some n => (ep.inflight.get i).deadline < (ep.inflight.get n).deadline

def nextRetransmission (ep : CoapEndpoint) : Option (Fin ep.inflight.len) :=
  -- the first of several entries with the same deadline wins
  (List.finRange ep.inflight.len).foldl
    (fun next i => if sooner ep next i then some i else next) none

/-- A matching address and a matching id or token. -/
def matchesInflight (rx : PacketRxDataItem) (inflight : InflightPacket) : Bool :=
  let idsEqual := z.coapHeaderGetId inflight.packet == z.coapHeaderGetId rx.packet
  -- two empty tokens are equal too
  let tokensEqual := z.coapHeaderGetToken inflight.packet == z.coapHeaderGetToken rx.packet
  inflight.addr.equal rx.addr && (idsEqual || tokensEqual)

def getInflightPacket (ep : CoapEndpoint) (rx : PacketRxDataItem) : Option (Fin ep.inflight.len) :=
  ep.inflight.find? (matchesInflight z rx)

theorem matchesInflight_iff (rx : PacketRxDataItem) (inflight : InflightPacket) :
    matchesInflight z rx inflight = true ↔ inflight.addr.peer = rx.addr.peer ∧
      (z.coapHeaderGetId inflight.packet = z.coapHeaderGetId rx.packet ∨
        z.coapHeaderGetToken inflight.packet = z.coapHeaderGetToken rx.packet) := by
  simp [matchesInflight, SockAddr.equal_iff]

/-- The candidate is what to wait for among the given entries: the earliest of the armed ones, by
the stored numbers. -/
def Earliest (ep : CoapEndpoint) (next : Option (Fin ep.inflight.len)) (is : List (Fin ep.inflight.len)) :
    Prop :=
  match next with
  | none => ∀ i ∈ is, (ep.inflight.get i).retransmit = false
  | some n => (ep.inflight.get n).retransmit = true ∧ ∀ i ∈ is, (ep.inflight.get i).retransmit = true →
      (ep.inflight.get n).deadline ≤ (ep.inflight.get i).deadline

/-- One more entry is looked at. -/
theorem Earliest.look {ep : CoapEndpoint} {next : Option (Fin ep.inflight.len)}
    {is : List (Fin ep.inflight.len)} (earliest : Earliest ep next is) (i : Fin ep.inflight.len) :
    Earliest ep (if sooner ep next i then some i else next) (is ++ [i]) := by
  by_cases better : sooner ep next i = true
  · rw [if_pos better]
    simp only [sooner, Bool.and_eq_true] at better
    refine ⟨better.1, fun j member armed => ?_⟩
    rcases List.mem_append.mp member with old | new
    · cases next with
      | none =>
        rw [earliest j old] at armed
        cases armed
      | some n =>
        -- earlier than the candidate, hence than all before
        have less := of_decide_eq_true better.2
        exact Int.le_trans (Int.le_of_lt less) (earliest.2 j old armed)
    · rw [List.mem_singleton.mp new]
  · rw [if_neg better]
    simp only [sooner, Bool.and_eq_true, not_and] at better
    cases next with
    | none =>
      intro j member
      rcases List.mem_append.mp member with old | new
      · exact earliest j old
      · rw [List.mem_singleton.mp new]
        by_contra armed
        exact better (by simpa using armed) rfl
    | some n =>
      refine ⟨earliest.1, fun j member armed => ?_⟩
      rcases List.mem_append.mp member with old | new
      · exact earliest.2 j old armed
      · rw [List.mem_singleton.mp new] at armed ⊢
        have later := better armed
        simpa using later

theorem nextRetransmission_earliest (ep : CoapEndpoint) :
    Earliest ep (nextRetransmission ep) (List.finRange ep.inflight.len) := by
  -- the scan keeps what holds of the entries looked at so far
  have scan : ∀ (is seen : List (Fin ep.inflight.len)) (next : Option (Fin ep.inflight.len)),
      Earliest ep next seen →
      Earliest ep (is.foldl (fun next i => if sooner ep next i then some i else next) next)
        (seen ++ is) := by
    intro is
    induction is with
    | nil =>
      intro seen next earliest
      rw [List.append_nil]
      exact earliest
    | cons i is ih =>
      intro seen next earliest
      have rest := ih (seen ++ [i]) _ (earliest.look i)
      rwa [List.append_assoc, List.singleton_append] at rest
  exact scan _ [] none fun _ member => absurd member List.not_mem_nil

/-- Only an armed entry is selected for retransmission. -/
theorem nextRetransmission_retransmit (ep : CoapEndpoint) (i : Fin ep.inflight.len)
    (selected : nextRetransmission ep = some i) : (ep.inflight.get i).retransmit = true := by
  have earliest := nextRetransmission_earliest ep
  rw [selected] at earliest
  exact earliest.1

/-- An entry is selected exactly when one is armed. -/
theorem nextRetransmission_eq_none_iff (ep : CoapEndpoint) :
    nextRetransmission ep = none ↔ ∀ e ∈ ep.inflight.items, e.retransmit = false := by
  have earliest := nextRetransmission_earliest ep
  constructor
  · intro unselected e member
    rw [unselected] at earliest
    obtain ⟨i, rfl⟩ := (ep.inflight.mem_items_iff e).mp member
    exact earliest i (List.mem_finRange i)
  · intro unarmed
    cases selected : nextRetransmission ep with
    | none => rfl
    | some i =>
      have armed := nextRetransmission_retransmit ep i selected
      rw [unarmed _ (ep.inflight.get_mem i)] at armed
      cases armed

end DtApp.Coap
