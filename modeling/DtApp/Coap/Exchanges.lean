import Mathlib.Data.Multiset.AddSub
import DtApp.Coap.Matching
import DtApp.Coap.Sends

/-!
# What a received packet does to the exchanges in flight

`receive_packet` sees the table through one search. A packet that is no request is about the
first entry that it matches: what is put out and what is left of the entry depend on this
entry alone. Two packets from different peers are about different entries.
-/
namespace DtApp.Coap

/-! ## The matched entry -/

section

variable (z : Zephyr) (app : App) (env : Env)

/-- What is left of the entry that a packet was matched with. -/
def leftover (rx : PacketRxDataItem) (e : InflightPacket) : Option InflightPacket :=
  if z.coapHeaderGetType rx.packet = .reset then none
  else if isResponse z rx.packet then none
  else if isRequest z e.packet then some { e with retransmit := false }
  else if isResponse z e.packet then none
  else some e

/-- What is put out for a packet that was matched with the entry. -/
def reaction (ep : CoapEndpoint) (rx : PacketRxDataItem) (e : InflightPacket) : List Output :=
  let completed := invokeHandler z app env ep e.call e.responseHandler e.responseHandlerData
  if z.coapHeaderGetType rx.packet = .reset then completed (-ecanceled) none ++ kFree e.packet
  else if isResponse z rx.packet then completed 0 (some rx.packet) ++ kFree e.packet
  else if isRequest z e.packet then []
  else if isResponse z e.packet then kFree e.packet
  else rejectPacket z env ep rx

theorem receivePacket_request (ep : CoapEndpoint) (rx : PacketRxDataItem)
    (request : isRequest z rx.packet = true) :
    receivePacket z app env ep rx = (ep, receiveRequest z app env ep rx) := by
  rw [receivePacket, if_pos request]

theorem receivePacket_matched (ep : CoapEndpoint) (rx : PacketRxDataItem)
    (noRequest : isRequest z rx.packet = false) (i : Fin ep.inflight.len)
    (found : getInflightPacket z ep rx = some i) :
    (receivePacket z app env ep rx).2 = reaction z app env ep rx (ep.inflight.get i) ∧
      (receivePacket z app env ep rx).1.inflight.items.Perm
        ((leftover z rx (ep.inflight.get i)).toList ++ ep.inflight.others i) := by
  have removed := ep.inflight.swapRemove_perm i
  simp only [receivePacket, noRequest, found, reaction, leftover, Bool.false_eq_true, if_false]
  -- the tests come in the same order
  by_cases reset : z.coapHeaderGetType rx.packet = .reset
  · simp only [reset, if_true]
    exact ⟨rfl, removed⟩
  · by_cases response : isResponse z rx.packet = true
    · simp only [reset, response, if_true, if_false]
      exact ⟨rfl, removed⟩
    · by_cases ours : isRequest z (ep.inflight.get i).packet = true
      · simp only [reset, response, ours, if_true, if_false]
        exact ⟨rfl, ep.inflight.set_perm i _⟩
      · by_cases answer : isResponse z (ep.inflight.get i).packet = true
        · simp only [reset, response, ours, answer, if_true, if_false]
          exact ⟨rfl, removed⟩
        · simp only [reset, response, ours, answer, if_false]
          exact ⟨rfl, (ep.inflight.items_perm i).symm⟩

/-- What a packet did to the matched entry and around it. -/
structure TouchesOnly (ep : CoapEndpoint) (rx : PacketRxDataItem) (i : Fin ep.inflight.len) : Prop where
  addr : SameAddr rx (ep.inflight.get i)
  matched : SameId z rx (ep.inflight.get i) ∨ SameToken z rx (ep.inflight.get i)
  -- the entry is removed, or changed and still its request's; the others stay
  table : ∃ left : Option InflightPacket, (∀ e ∈ left, e.call = (ep.inflight.get i).call) ∧
    (receivePacket z app env ep rx).1.inflight.items.Perm (left.toList ++ ep.inflight.others i)
  others : ∀ j ≠ i, (receivePacket z app env ep rx).1.inflight.items.count (ep.inflight.get j) = 1
  calls : handlerCalls (receivePacket z app env ep rx).2 = [] ∨ ∃ err response,
    handlerCalls (receivePacket z app env ep rx).2 = [((ep.inflight.get i).call,
      (ep.inflight.get i).responseHandler, (ep.inflight.get i).responseHandlerData, err, response)]

/-- Nothing in the table changes, and no handler of a request is called. -/
def Untouched (ep : CoapEndpoint) (rx : PacketRxDataItem) : Prop :=
  (receivePacket z app env ep rx).1 = ep ∧ handlerCalls (receivePacket z app env ep rx).2 = []

theorem untouched_request (ep : CoapEndpoint) (rx : PacketRxDataItem)
    (request : isRequest z rx.packet = true) : Untouched z app env ep rx := by
  rw [Untouched, receivePacket_request z app env ep rx request]
  exact ⟨rfl, (receiveRequest_quiet z app env ep rx).handlerCalls⟩

theorem untouched_unmatched (ep : CoapEndpoint) (rx : PacketRxDataItem)
    (noRequest : isRequest z rx.packet = false) (found : getInflightPacket z ep rx = none) :
    Untouched z app env ep rx := by
  rw [Untouched, receivePacket_unmatched z app env ep rx noRequest found]
  exact ⟨rfl, (rejectPacket_quiet z env ep rx).handlerCalls⟩

/-- A handler that is called for a matched packet is the entry's. -/
theorem reaction_calls (ep : CoapEndpoint) (rx : PacketRxDataItem) (e : InflightPacket) :
    handlerCalls (reaction z app env ep rx e) = [] ∨ ∃ err response,
      handlerCalls (reaction z app env ep rx e) =
        [(e.call, e.responseHandler, e.responseHandlerData, err, response)] := by
  simp only [reaction]
  split
  · exact .inr ⟨_, _, invokeHandler_calls z app env ep _ _ _ _ _ _⟩
  · split
    · exact .inr ⟨_, _, invokeHandler_calls z app env ep _ _ _ _ _ _⟩
    · split
      · exact .inl rfl
      · split
        · exact .inl (handlerCalls_kFree _)
        · exact .inl (rejectPacket_quiet z env ep rx).handlerCalls

/-- An entry that stays is its request's, and other packets are matched with it as before. -/
theorem leftover_same (rx : PacketRxDataItem) (e e' : InflightPacket) (left : leftover z rx e = some e') :
    e'.call = e.call ∧ ∀ q, matchesInflight z q e' = matchesInflight z q e := by
  simp only [leftover] at left
  split at left
  · cases left
  · split at left
    · cases left
    · split at left
      · cases left
        exact ⟨rfl, fun _ => rfl⟩
      · split at left <;> cases left
        exact ⟨rfl, fun _ => rfl⟩

end

variable {z : Zephyr} {app : App} {sock : Int} {resources : List CoapResource} {c : EndpointConfig}

/-- A received packet touches at most one exchange, and that is one with its sender. -/
theorem receive_touches_one (laws : z.Encodes) (reach : (endpoint z app sock resources).Reachable anyEvent c)
    (env : Env) (rx : PacketRxDataItem) :
    (isRequest z rx.packet = true → Untouched z app env c.state.ep rx) ∧
    (isRequest z rx.packet = false → Untouched z app env c.state.ep rx ∨
      ∃ i, TouchesOnly z app env c.state.ep rx i) ∧
    ((∀ e ∈ c.state.ep.inflight.items, ¬SameAddr rx e) → Untouched z app env c.state.ep rx) := by
  have request := untouched_request z app env c.state.ep rx
  refine ⟨request, ?_, ?_⟩
  · intro noRequest
    cases found : getInflightPacket z c.state.ep rx with
    | none => exact .inl (untouched_unmatched z app env c.state.ep rx noRequest found)
    | some i =>
      obtain ⟨⟨addr, same⟩, _⟩ := (getInflightPacket_eq_some_iff z _ rx i).mp found
      obtain ⟨outs, table⟩ := receivePacket_matched z app env c.state.ep rx noRequest i found
      refine .inr ⟨i, addr, same.symm, ⟨_, fun e left => (leftover_same z rx _ e left).1, table⟩, ?_, ?_⟩
      · intro j different
        have next := reach.next (e := .receive env rx) trivial
        -- the entry is there, and no entry is there twice
        have present : c.state.ep.inflight.get j ∈
            (receivePacket z app env c.state.ep rx).1.inflight.items :=
          table.mem_iff.mpr (List.mem_append_right _ (c.state.ep.inflight.get_mem_others different))
        exact Nat.le_antisymm (entry_count_le_one laws next _) (List.count_pos_iff.mpr present)
      · rw [outs]
        exact reaction_calls z app env c.state.ep rx _
  · intro stranger
    by_cases isReq : isRequest z rx.packet = true
    · exact request isReq
    · apply untouched_unmatched z app env c.state.ep rx (by simpa using isReq)
      -- whatever is found is at the packet's source
      rw [getInflightPacket, Bag.find?_none]
      intro e member
      by_contra found
      rw [Bool.not_eq_false, matchesInflight_iff] at found
      exact stranger e member found.1

theorem receive_touches_one_separate :
    Untouched rfcZephyr plainApp (calmEnv 3 9) twoInflight.state.ep separateResponse ∨
      ∃ i, TouchesOnly rfcZephyr plainApp (calmEnv 3 9) twoInflight.state.ep separateResponse i :=
  (receive_touches_one rfcZephyr_encodes (sampleRun_reachable _) (calmEnv 3 9) separateResponse).2.1
    (isRequest_of_isResponse _ _ separateResponse_isResponse)

/-! ## Packets from two peers -/

section

variable (z : Zephyr) (app : App) (envP envQ : Env) (ep : CoapEndpoint) (p q : PacketRxDataItem)

/-- Two packets are processed one after the other, each with what its surroundings answer. -/
def receiveBoth : CoapEndpoint × List Output :=
  let first := receivePacket z app envP ep p
  let second := receivePacket z app envQ first.1 q
  (second.1, first.2 ++ second.2)

/-- The datagrams that go to a peer. -/
def datagramsTo (peer : Nat × List UInt8) (outs : List Output) : List (CoapPacket × SockAddr) :=
  (sends outs).filter fun sent => sent.2.peer = peer

/-- The order of the two packets cannot be told from the handler calls, from what the peers
are sent or from the entries that are left. -/
structure Commutes : Prop where
  calls : (handlerCalls (receiveBoth z app envP envQ ep p q).2).Perm
    (handlerCalls (receiveBoth z app envQ envP ep q p).2)
  datagrams : ∀ peer, (datagramsTo peer (receiveBoth z app envP envQ ep p q).2).Perm
    (datagramsTo peer (receiveBoth z app envQ envP ep q p).2)
  table : (receiveBoth z app envP envQ ep p q).1.inflight.items.Perm
    (receiveBoth z app envQ envP ep q p).1.inflight.items

/-- The first packet removes an entry, and the entry that is moved into its place gets in front of
the one that the second packet was matched with, and matches the second packet too. -/
def Reorders : Prop :=
  isRequest z p.packet = false ∧ ∃ i, getInflightPacket z ep p = some i ∧
    leftover z p (ep.inflight.get i) = none ∧ ep.inflight.Overtakes (matchesInflight z q) i

instance : Decidable (Reorders z ep p q) := inferInstanceAs (Decidable (_ ∧ _))

end

section

variable (z : Zephyr) (app : App) (env : Env)

/-- The entry that a packet is about. -/
def claimed (ep : CoapEndpoint) (rx : PacketRxDataItem) : Option InflightPacket :=
  if isRequest z rx.packet then none else ep.inflight.items.find? (matchesInflight z rx)

/-- The table after a packet about the entry. -/
def settle (rx : PacketRxDataItem) (claim : Option InflightPacket) (table : Multiset InflightPacket) :
    Multiset InflightPacket :=
  match claim with
  | none => table
  | some e => table.erase e + (leftover z rx e).toList

theorem receivePacket_ep (ep : CoapEndpoint) (rx : PacketRxDataItem) :
    (receivePacket z app env ep rx).1 =
      { ep with inflight := (receivePacket z app env ep rx).1.inflight } := by
  have cases := receivePacket_cases z app env ep rx
  generalize (receivePacket z app env ep rx).1 = ep' at cases
  generalize (receivePacket z app env ep rx).2 = outs at cases
  cases cases <;> rfl

theorem receivePacket_settles (ep : CoapEndpoint) (rx : PacketRxDataItem) :
    ((receivePacket z app env ep rx).1.inflight.items : Multiset InflightPacket) =
      settle z rx (claimed z ep rx) ep.inflight.items := by
  by_cases request : isRequest z rx.packet = true
  · simp only [receivePacket_request z app env ep rx request, claimed, request, if_true, settle]
  · have noRequest : isRequest z rx.packet = false := by simpa using request
    simp only [claimed, noRequest, Bool.false_eq_true, if_false, ← Bag.find?_get]
    cases found : ep.inflight.find? (matchesInflight z rx) with
    | none => rw [receivePacket_unmatched z app env ep rx noRequest found, Option.map_none, settle]
    | some i =>
      have table := (receivePacket_matched z app env ep rx noRequest i found).2
      rw [Multiset.coe_eq_coe.mpr table, Option.map_some, settle, table_eq_cons ep i,
        Multiset.erase_cons_head, ← Multiset.coe_add, Multiset.add_comm]

/-- What is put out depends on the matched entry, and on nothing else in the table. -/
theorem receivePacket_congr (ep : CoapEndpoint) (table : Bag InflightPacket) (rx : PacketRxDataItem)
    (claims : claimed z { ep with inflight := table } rx = claimed z ep rx) :
    (receivePacket z app env { ep with inflight := table } rx).2 = (receivePacket z app env ep rx).2 := by
  by_cases request : isRequest z rx.packet = true
  · rw [receivePacket_request z app env _ rx request, receivePacket_request z app env _ rx request]
    rfl
  · have noRequest : isRequest z rx.packet = false := by simpa using request
    simp only [claimed, noRequest, Bool.false_eq_true, if_false, ← Bag.find?_get] at claims
    cases found : ep.inflight.find? (matchesInflight z rx) with
    | none =>
      rw [found, Option.map_none, Option.map_eq_none_iff] at claims
      rw [receivePacket_unmatched z app env ep rx noRequest found,
        receivePacket_unmatched z app env { ep with inflight := table } rx noRequest claims]
      rfl
    | some i =>
      rw [found, Option.map_some, Option.map_eq_some_iff] at claims
      obtain ⟨i', found', same⟩ := claims
      rw [(receivePacket_matched z app env ep rx noRequest i found).1,
        (receivePacket_matched z app env { ep with inflight := table } rx noRequest i' found').1]
      simp only [same]
      rfl

/-- A packet from another peer that does not reorder the table leaves the match of a packet. -/
theorem claimed_receivePacket (ep : CoapEndpoint) (p q : PacketRxDataItem)
    (different : p.addr.peer ≠ q.addr.peer) (ordered : ¬Reorders z ep p q) :
    claimed z (receivePacket z app env ep p).1 q = claimed z ep q := by
  -- what matches the one does not match the other
  have other : ∀ i, getInflightPacket z ep p = some i →
      matchesInflight z q (ep.inflight.get i) = false := by
    intro i found
    by_contra both
    rw [Bool.not_eq_false, matchesInflight_iff] at both
    have addr := ((getInflightPacket_eq_some_iff z ep p i).mp found).1.1
    exact different (addr.symm.trans both.1)
  have removed : ∀ i, isRequest z p.packet = false → getInflightPacket z ep p = some i →
      leftover z p (ep.inflight.get i) = none →
      (ep.inflight.swapRemove i).items.find? (matchesInflight z q) =
        ep.inflight.items.find? (matchesInflight z q) := by
    intro i noRequest found gone
    apply ep.inflight.find?_swapRemove _ i (other i found)
    exact fun overtakes => ordered ⟨noRequest, i, found, gone, overtakes⟩
  simp only [claimed]
  have cases := receivePacket_cases z app env ep p
  generalize (receivePacket z app env ep p).1 = ep' at cases
  generalize (receivePacket z app env ep p).2 = outs at cases
  cases cases with
  | request | unclaimed | unmatched => rfl
  | canceled i noRequest found reset =>
    have gone : leftover z p (ep.inflight.get i) = none := by simp [leftover, reset]
    simp only [completeInflight, freeInflightPacket, removed i noRequest found gone]
  | completed i response found notReset =>
    have noRequest := isRequest_of_isResponse z p.packet response
    have gone : leftover z p (ep.inflight.get i) = none := by simp [leftover, response]
    simp only [completeInflight, freeInflightPacket, removed i noRequest found gone]
  | acknowledged i empty found =>
    have kept := ep.inflight.find?_set (matchesInflight z q) i
      { ep.inflight.get i with retransmit := false } (other i found) (other i found)
    simp only [kept]
  | answered i empty found notReset answer =>
    have noRequest : isRequest z p.packet = false := by
      rw [isRequest, empty]
      decide
    have gone : leftover z p (ep.inflight.get i) = none := by
      have notOurs := isRequest_of_isResponse z _ answer
      simp [leftover, notOurs, answer]
    simp only [freeInflightPacket, removed i noRequest found gone]

/-- Settling two different entries of the table commutes. -/
theorem settle_comm (p q : PacketRxDataItem) (claimP claimQ : Option InflightPacket)
    (table : Multiset InflightPacket) (inP : ∀ e ∈ claimP, e ∈ table) (inQ : ∀ e ∈ claimQ, e ∈ table)
    (different : ∀ e ∈ claimP, ∀ f ∈ claimQ, e ≠ f) :
    settle z q claimQ (settle z p claimP table) = settle z p claimP (settle z q claimQ table) := by
  cases claimP with
  | none => rfl
  | some e =>
    cases claimQ with
    | none => rfl
    | some f =>
      have apart : e ≠ f := different e rfl f rfl
      have left : f ∈ table.erase e := (Multiset.mem_erase_of_ne (Ne.symm apart)).mpr (inQ f rfl)
      have right : e ∈ table.erase f := (Multiset.mem_erase_of_ne apart).mpr (inP e rfl)
      simp only [settle]
      rw [Multiset.erase_add_left_pos _ left, Multiset.erase_add_left_pos _ right,
        Multiset.erase_comm, Multiset.add_assoc, Multiset.add_assoc,
        Multiset.add_comm ((leftover z p e).toList : Multiset InflightPacket)]

theorem claimed_mem (ep : CoapEndpoint) (rx : PacketRxDataItem) (e : InflightPacket)
    (claim : e ∈ claimed z ep rx) : e ∈ ep.inflight.items ∧ SameAddr rx e := by
  simp only [claimed] at claim
  split at claim
  · cases claim
  · have matched := List.find?_some claim
    rw [matchesInflight_iff] at matched
    exact ⟨List.mem_of_find?_eq_some claim, matched.1⟩

end

def postTo (addr : SockAddr) (call : Nat) : Event :=
  .post (calmEnv (.ofNat (call + 1)) 0) (coapEndpointPostArgs call addr none (some [104, 105]) 2)

/-- A request to the client and then two to the server are in flight, with ids 1, 2 and 3. -/
def threeInflight : EndpointConfig :=
  sampleRun [postTo clientAddr 0, .transmit (calmEnv 1 5), postTo serverAddr 1, .transmit (calmEnv 2 6),
    postTo serverAddr 2, .transmit (calmEnv 3 7)]

/-- The client's response to the first request. -/
def clientResponse : PacketRxDataItem :=
  sampleRx ⟨.ack, coapResponseCodeCreated, 1, [0, 1, 0, 0, 0, 0, 0, 0]⟩ clientAddr

/-- The server's separate response to the third request, with the id of the second. -/
def serverResponse : PacketRxDataItem :=
  sampleRx ⟨.nonCon, coapResponseCodeCreated, 2, [0, 3, 0, 0, 0, 0, 0, 0]⟩ serverAddr

theorem responses_peers : clientResponse.addr.peer ≠ serverResponse.addr.peer := by
  rw [clientResponse, serverResponse, sampleRx_addr, sampleRx_addr]
  decide

end DtApp.Coap
