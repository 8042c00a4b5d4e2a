import DtApp.Coap.Reference

/-!
# Receiving datagrams

`recv_thread` passes the size of its buffer to the parser where the length of the datagram
belongs, so a shorter datagram is read with the zeros behind it.
-/
namespace DtApp.Coap

theorem rxData_take (datagram : List UInt8) (fits : datagram.length ≤ maxCoapMsgLen) :
    (rxData datagram).take maxCoapMsgLen = rxData datagram := by
  apply List.take_of_length_le
  simp only [rxData_eq datagram fits, List.length_append, List.length_replicate]
  omega

/-- The item is queued if the datagram is a message, and then it holds the options and the
payload of this message. -/
structure ReceivesExactly (z : Zephyr) (judge : Rfc7252.Message → Bool) (datagram : List UInt8)
    (addr : SockAddr) : Prop where
  queued : (∃ rx, recvThread z true (some (datagram, addr)) = .queued rx) ↔ WellFormed judge datagram
  packet : ∀ rx, recvThread z true (some (datagram, addr)) = .queued rx →
    ∃ m m', Rfc7252.decode datagram = some m ∧ rx.packet.message = some m' ∧
      m'.options = m.options ∧ m'.payload = m.payload ∧
      rx.options = m.options.take maxCoapOptions ∧ z.coapPacketGetPayload rx.packet = m.payload

section

variable {z : Zephyr} {judge : Rfc7252.Message → Bool} (interprets : z.Interprets judge)

include interprets

/-- What is queued is the datagram filled up with zeros. -/
theorem queued_iff (datagram : List UInt8) (addr : SockAddr)
    (fits : datagram.length ≤ maxCoapMsgLen) :
    (∃ rx, recvThread z true (some (datagram, addr)) = .queued rx) ↔
      WellFormed judge (rxData datagram) := by
  simp only [recvThread_eq_queued, interprets.accepts, rxData_take datagram fits]
  exact ⟨fun ⟨_, parsed, _⟩ => parsed, fun parsed => ⟨_, parsed, rfl⟩⟩

theorem queued_message (datagram : List UInt8) (addr : SockAddr)
    (fits : datagram.length ≤ maxCoapMsgLen) (rx : PacketRxDataItem)
    (queued : recvThread z true (some (datagram, addr)) = .queued rx) :
    rx.packet.message = Rfc7252.decode (rxData datagram) ∧
      ∀ m, Rfc7252.decode (rxData datagram) = some m → rx.options = m.options.take maxCoapOptions := by
  obtain ⟨fine, rfl⟩ := (recvThread_eq_queued z datagram addr rx).mp queued
  have message := interprets.message _ _ _ fine
  have options := fun m => interprets.options _ _ _ m fine
  rw [rxData_take datagram fits] at message options
  exact ⟨message, options⟩

/-- Zeros behind a shorter datagram are never overlooked by the parser. -/
theorem padding_shows (datagram : List UInt8) (addr : SockAddr)
    (fits : datagram.length ≤ maxCoapMsgLen) (receives : ReceivesExactly z judge datagram addr)
    (padded : WellFormed judge (rxData datagram)) : datagram.length = maxCoapMsgLen := by
  obtain ⟨rx, queued⟩ := (queued_iff interprets datagram addr fits).mpr padded
  obtain ⟨m, m', decoded, stands, options, payload, _⟩ := receives.packet rx queued
  obtain ⟨m'', decoded', _, size⟩ :=
    Rfc7252.decode_pad datagram m (maxCoapMsgLen - datagram.length) decoded
  have message := (queued_message interprets datagram addr fits rx queued).1
  rw [rxData_eq datagram fits, decoded'] at message
  have same : m'' = m' := Option.some.inj (message.symm.trans stands)
  rw [same, options, payload] at size
  omega

/-- A datagram is received as what it is exactly when it fills the buffer, or neither it nor
its zero-filled buffer is a message. -/
theorem receivesExactly_iff (datagram : List UInt8) (addr : SockAddr)
    (fits : datagram.length ≤ maxCoapMsgLen) :
    ReceivesExactly z judge datagram addr ↔
      datagram.length = maxCoapMsgLen ∨
        (¬WellFormed judge datagram ∧ ¬WellFormed judge (rxData datagram)) := by
  have put := queued_iff interprets datagram addr fits
  constructor
  · -- if the padded datagram is a message, the padding shows in it unless there is none
    intro receives
    by_cases padded : WellFormed judge (rxData datagram)
    · exact .inl (padding_shows interprets datagram addr fits receives padded)
    · refine .inr ⟨fun formed => padded ?_, padded⟩
      exact put.mp (receives.queued.mpr formed)
  · rintro (full | ⟨malformed, padded⟩)
    · -- nothing was padded
      have same : rxData datagram = datagram := by
        rw [rxData_eq datagram fits, full]
        simp
      rw [same] at put
      refine ⟨put, fun rx queued => ?_⟩
      obtain ⟨m, decoded, _⟩ := put.mp ⟨rx, queued⟩
      obtain ⟨message, options⟩ := queued_message interprets datagram addr fits rx queued
      rw [same] at message options
      rw [decoded] at message
      exact ⟨m, m, decoded, message, rfl, rfl, options m decoded, interprets.payload _ m message⟩
    · refine ⟨iff_of_false (fun queued => padded (put.mp queued)) malformed, fun rx queued => ?_⟩
      exact absurd (put.mp ⟨rx, queued⟩) padded

end

/-- A POST with the one byte payload `a`. -/
def shortDatagram : List UInt8 := [0x40, 0x02, 0x00, 0x01, 0xff, 0x61]

theorem short_datagram_padded :
    Rfc7252.decode shortDatagram =
        some ⟨1, ⟨.con, coapMethodPost, 1, []⟩, [], [0x61]⟩ ∧
      ¬ReceivesExactly rfcZephyr (fun _ => true) shortDatagram clientAddr := by
  have decoded : Rfc7252.decode shortDatagram =
      some ⟨1, ⟨.con, coapMethodPost, 1, []⟩, [], [0x61]⟩ := by decide +kernel
  refine ⟨decoded, fun receives => ?_⟩
  have fits : shortDatagram.length ≤ maxCoapMsgLen := by decide
  obtain ⟨m, padded, _⟩ := Rfc7252.decode_pad _ _ (maxCoapMsgLen - shortDatagram.length) decoded
  rw [← rxData_eq shortDatagram fits] at padded
  have full := padding_shows rfcZephyr_interprets shortDatagram clientAddr fits receives
    ⟨m, padded, rfl⟩
  exact absurd full (by decide)

theorem receivesExactly_iff_short :
    ReceivesExactly rfcZephyr (fun _ => true) shortDatagram clientAddr ↔
      shortDatagram.length = maxCoapMsgLen ∨
        (¬WellFormed (fun _ => true) shortDatagram ∧
          ¬WellFormed (fun _ => true) (rxData shortDatagram)) :=
  receivesExactly_iff rfcZephyr_interprets shortDatagram clientAddr (by decide)

end DtApp.Coap
