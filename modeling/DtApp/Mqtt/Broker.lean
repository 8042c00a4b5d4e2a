import DtApp.Mqtt.Client

/-!
# The address of the broker

`broker_init` walks through the results of `getaddrinfo`, but the walk ends after the first result,
also when that is not an IPv4 address. The constants of the sockets are parameters.
-/
namespace DtApp.Mqtt

structure Sockets where
  afInet : UInt16
  /-- `sizeof(struct sockaddr_in)`. -/
  sockaddrInSize : Nat
  htons : UInt16 → UInt16

/-- A result of `getaddrinfo`; `sAddr` is what the bytes of `ai_addr` give as an IPv4 address. -/
structure AddrInfo where
  aiAddrlen : Nat
  sAddr : UInt32
  deriving DecidableEq

/-- The storage of `broker`, with the fields of an IPv4 address. -/
structure SockaddrStorage where
  sinFamily : UInt16
  sinPort : UInt16
  sAddr : UInt32
  rest : List UInt8
  deriving DecidableEq

variable (sockets : Sockets) (config : MqttConfig)

def isIpv4 (addr : AddrInfo) : Bool := decide (addr.aiAddrlen = sockets.sockaddrInSize)

/-- What is assigned to `broker4` for an IPv4 address. -/
def SockaddrStorage.assign (broker : SockaddrStorage) (addr : AddrInfo) : SockaddrStorage :=
  { broker with
    sAddr := addr.sAddr, sinFamily := sockets.afInet, sinPort := sockets.htons config.brokerPort }

/-- The loop of `broker_init`. -/
def brokerLoop : List AddrInfo → SockaddrStorage → SockaddrStorage
  | [], broker => broker
  | addr :: _, broker =>
    if isIpv4 sockets addr then broker.assign sockets config addr
    -- the `break` behind the step to `ai_next` ends the loop here too
    else broker

inductive BrokerOutput where
  /-- `freeaddrinfo`, with the list it is given. -/
  | freed (result : List AddrInfo)
  deriving DecidableEq

def brokerInit (getaddrinfo : Except Int (List AddrInfo)) (broker : SockaddrStorage) :
    SockaddrStorage × List BrokerOutput :=
  match getaddrinfo with
  | .error _ => (broker, [])
  | .ok result => (brokerLoop sockets config result broker, [.freed result])

/-! ## The first IPv4 address -/

/-- The structure holds the address. -/
def Holds (broker : SockaddrStorage) (addr : AddrInfo) : Prop :=
  broker.sAddr = addr.sAddr ∧ broker.sinFamily = sockets.afInet ∧
    broker.sinPort = sockets.htons config.brokerPort

/-- `broker_init` selects the first IPv4 address of the results. -/
structure SelectsFirst (result : List AddrInfo) (broker : SockaddrStorage) : Prop where
  found : ∀ addr, result.find? (isIpv4 sockets) = some addr →
    Holds sockets config (brokerInit sockets config (.ok result) broker).1 addr
  none : (∀ addr ∈ result, isIpv4 sockets addr = false) →
    (brokerInit sockets config (.ok result) broker).1 = broker
  /-- The results are released once, and nothing else is. -/
  freed : (brokerInit sockets config (.ok result) broker).2 = [.freed result]

variable {sockets config} {result : List AddrInfo} {broker : SockaddrStorage}

theorem assign_holds (addr : AddrInfo) : Holds sockets config (broker.assign sockets config addr) addr :=
  ⟨rfl, rfl, rfl⟩

/-- A foreign first result ends the search. -/
theorem brokerLoop_foreign {first : AddrInfo} (rest : List AddrInfo)
    (foreign : isIpv4 sockets first = false) :
    brokerLoop sockets config (first :: rest) broker = broker := by
  simp [brokerLoop, foreign]

theorem brokerLoop_ipv4 {first : AddrInfo} (rest : List AddrInfo)
    (ipv4 : isIpv4 sockets first = true) :
    brokerLoop sockets config (first :: rest) broker = broker.assign sockets config first :=
  if_pos ipv4

variable (sockets config result broker)

/-- The search is right exactly when an IPv4 address comes first, or there is none, or the structure
holds the first one already. -/
theorem selectsFirst_iff : SelectsFirst sockets config result broker ↔
    (∃ first, result.head? = some first ∧ isIpv4 sockets first = true) ∨
    (∀ addr ∈ result, isIpv4 sockets addr = false) ∨
    ∃ addr, result.find? (isIpv4 sockets) = some addr ∧ Holds sockets config broker addr := by
  cases result with
  | nil => exact iff_of_true ⟨by simp, fun _ => rfl, rfl⟩ (.inr (.inl (by simp)))
  | cons first rest =>
    cases kind : isIpv4 sockets first with
    | true =>
      -- the first result is the one that is looked for
      refine iff_of_true ⟨?_, ?_, rfl⟩ (.inl ⟨first, rfl, kind⟩)
      · intro addr found
        rw [List.find?_cons_of_pos kind, Option.some.injEq] at found
        subst found
        simp only [brokerInit, brokerLoop_ipv4 rest kind]
        exact assign_holds first
      · intro foreign
        have missed := foreign first List.mem_cons_self
        rw [kind] at missed
        cases missed
    | false =>
      have same : (brokerInit sockets config (.ok (first :: rest)) broker).1 = broker :=
        brokerLoop_foreign rest kind
      constructor
      · intro selects
        cases search : (first :: rest).find? (isIpv4 sockets) with
        | none => exact .inr (.inl (by simpa using List.find?_eq_none.mp search))
        | some addr =>
          have holds := selects.found addr search
          rw [same] at holds
          exact .inr (.inr ⟨addr, rfl, holds⟩)
      · intro cond
        refine ⟨fun addr found => ?_, fun _ => same, rfl⟩
        rw [same]
        rcases cond with ⟨_, head, ipv4⟩ | foreign | ⟨_, found', holds⟩
        · cases head
          rw [kind] at ipv4
          cases ipv4
        · have missed := foreign addr (List.mem_of_find?_eq_some found)
          rw [List.find?_some found] at missed
          cases missed
        · rw [found] at found'
          cases found'
          exact holds

def sampleSockets : Sockets where
  afInet := 1
  sockaddrInSize := 8
  htons port := port <<< 8 ||| port >>> 8

/-- The IPv4 address behind an IPv6 address is not found. -/
theorem second_not_selected : ¬SelectsFirst sampleSockets ⟨"up", "down", 1883⟩
    [⟨24, 0⟩, ⟨8, 0x0100007f⟩] ⟨0, 0, 0, []⟩ := by
  intro selects
  have holds := selects.found ⟨8, 0x0100007f⟩ (by decide)
  exact absurd holds.1 (by decide)

end DtApp.Mqtt
