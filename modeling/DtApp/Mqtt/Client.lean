import Mathlib.Data.Int.ModEq
import DtApp.Library.Machine
import DtApp.Library.Overwrite

/-!
# The MQTT module

`mqtt_module.c`: publishing, subscribing, and the event handler with the reading of a payload. What
the MQTT library answers is part of the events.
-/
namespace DtApp.Mqtt

open Overwrite

def eio : Int := 5
def eagain : Int := 11
def emsgsize : Int := 122

/-- The settings of `Kconfig` that the functions use. -/
structure MqttConfig where
  pubTopic : String
  subTopic : String
  brokerPort : UInt16

/-! ## Publishing and subscribing -/

inductive MqttQos where
  | atMostOnce
  | atLeastOnce
  | exactlyOnce
  deriving DecidableEq

structure PublishParam where
  qos : MqttQos
  topic : String
  payload : List UInt8
  messageId : UInt16
  dupFlag : Bool
  retainFlag : Bool
  deriving DecidableEq

structure SubscriptionList where
  topic : String
  qos : MqttQos
  messageId : UInt16
  deriving DecidableEq

variable (config : MqttConfig)

/-- What is passed to `mqtt_publish`. The field for the identifier has 16 bits. -/
def dataPublish (rand : UInt32) (qos : MqttQos) (data : List UInt8) : PublishParam :=
  { qos, topic := config.pubTopic, payload := data, messageId := rand.toUInt16, dupFlag := false
    retainFlag := false }

def mqttDataPublish (rand : UInt32) (data : List UInt8) : PublishParam :=
  dataPublish config rand .atLeastOnce data

def subscribe : SubscriptionList :=
  { topic := config.subTopic, qos := .atLeastOnce, messageId := 1234 }

/-! ## Reading a payload -/

/-- What `mqtt_read_publish_payload` returns when it is asked for `n` bytes: an error, 0, or how
many of the next bytes it wrote. -/
inductive ReadResult (n : Nat) where
  | error (err : Int) (negative : err < 0)
  | closed
  | bytes (count : Nat) (positive : 0 < count) (fits : count ≤ n)

def ReadResult.ret {n : Nat} : ReadResult n → Int
  | error err _ => err
  | closed => 0
  | bytes count _ _ => count

/-- The answers of the library and of `poll` to one round of the reading loop. -/
structure Answer where
  read : (n : Nat) → ReadResult n
  poll : Int
  /-- `poll` set `POLLIN` in `fds.revents`. -/
  pollin : Bool

/-- The test after `poll`. -/
def Answer.readable (answer : Answer) : Bool := decide (answer.poll > 0) && answer.pollin

structure Client where
  connected : Bool
  payloadBuf : List UInt8
  /-- How much of the stream of payload bytes the library has handed out. -/
  position : Nat
  deriving DecidableEq

/-- A call of `mqtt_read_publish_payload`: where it may write, how many bytes, what it returned, and
whether there was something to read after it. -/
structure Request where
  offset : Nat
  asked : Nat
  ret : Int
  readable : Bool
  deriving DecidableEq

/-- How the reading went. There is no result while the library has not answered. -/
structure Reading where
  ret : Option Int
  client : Client
  requests : List Request

/-- Bytes of the stream. -/
def chunk (stream : Nat → UInt8) (position count : Nat) : List UInt8 :=
  (List.range' position count).map stream

/-- The client after the library wrote the next bytes of the stream. -/
def Client.write (c : Client) (stream : Nat → UInt8) (buf count : Nat) : Client :=
  { c with
    payloadBuf := overwrite c.payloadBuf buf (chunk stream c.position count)
    position := c.position + count }

def Reading.after (reading : Reading) (request : Request) : Reading :=
  { reading with requests := request :: reading.requests }

/-- The loop of `publish_get_payload`. The pointers `buf` and `end` are offsets in the buffer. -/
def readLoop (stream : Nat → UInt8) (end_ : Nat) : (buf : Nat) → List Answer → Client → Reading
  | buf, [], c => ⟨if buf < end_ then none else some 0, c, []⟩
  | buf, answer :: answers, c =>
    if buf < end_ then
      let result := answer.read (end_ - buf)
      let request := ⟨buf, end_ - buf, result.ret, answer.readable⟩
      match result with
      | .error err _ =>
        if err ≠ -eagain then ⟨some err, c, [request]⟩
        -- nothing was read: the same bytes are asked for again
        else if answer.readable then (readLoop stream end_ buf answers c).after request
        else ⟨some (-eio), c, [request]⟩
      | .closed => ⟨some (-eio), c, [request]⟩
      | .bytes count _ _ =>
        (readLoop stream end_ (buf + count) answers (c.write stream buf count)).after request
    else ⟨some 0, c, []⟩

def publishGetPayload (stream : Nat → UInt8) (length : Nat) (answers : List Answer) (c : Client) :
    Reading :=
  if length > c.payloadBuf.length then ⟨some (-emsgsize), c, []⟩
  else readLoop stream length 0 answers c

/-! ## Events -/

inductive MqttEvt where
  | connack (result : Int)
  | disconnect (result : Int)
  | publish (payloadLen : Nat)
  | puback (result : Int) (messageId : UInt16)
  | suback (result : Int) (messageId : UInt16)
  | other
  deriving DecidableEq

inductive Output where
  | published (param : PublishParam)
  | subscribed (list : SubscriptionList)
  /-- A payload was reported as received. -/
  | received (payload : List UInt8)
  | disconnected
  | pubacked (messageId : UInt16)
  | subacked (messageId : UInt16)
  deriving DecidableEq

/-- The event handler. An acknowledgement is only logged. -/
def mqttEvtHandler (stream : Nat → UInt8) (answers : List Answer) (c : Client) :
    MqttEvt → Client × List Output
  | .connack result =>
    if result ≠ 0 then (c, []) else ({ c with connected := true }, [.subscribed (subscribe config)])
  | .disconnect _ => ({ c with connected := false }, [])
  | .publish payloadLen =>
    let reading := publishGetPayload stream payloadLen answers c
    match reading.ret with
    | none => (reading.client, [])
    | some err =>
      if err ≥ 0 then (reading.client, [.received (reading.client.payloadBuf.take payloadLen)])
      else (reading.client, [.disconnected])
  | .puback result messageId => (c, if result ≠ 0 then [] else [.pubacked messageId])
  | .suback result messageId => (c, if result ≠ 0 then [] else [.subacked messageId])
  | .other => (c, [])

inductive Event where
  /-- A call of `mqtt_data_publish`; `sys_rand32_get` gives `rand`. -/
  | dataPublish (rand : UInt32) (data : List UInt8)
  /-- The library reports an event, and answers as given while it is handled. -/
  | evt (evt : MqttEvt) (answers : List Answer)

def step (stream : Nat → UInt8) (c : Client) : Event → Client × List Output
  | .dataPublish rand data => (c, [.published (mqttDataPublish config rand data)])
  | .evt evt answers => mqttEvtHandler config stream answers c evt

/-- The module from the start of its thread on, with a payload buffer of the given size. -/
def mqttModule (stream : Nat → UInt8) (bufferSize : Nat) : Machine Client Event Output where
  init := ⟨false, List.replicate bufferSize 0, 0⟩
  step := step config stream

abbrev MqttRun := Machine.Config Client Output

end DtApp.Mqtt
