import DtApp.Library.History
import DtApp.Mqtt.Client

/-!
# Packet identifiers

The identifier of a publish is what is left of a random number in 16 bits. Nothing is remembered of
the messages that wait for an acknowledgement, so the identifiers are valid in the runs whose random
numbers happen to be.
-/
namespace DtApp.Mqtt

open History

/-! ## Identifiers in use -/

def Output.Publishes (id : UInt16) (o : Output) : Prop :=
  ∃ param, o = .published param ∧ param.messageId = id

def Output.Subscribes (id : UInt16) (o : Output) : Prop :=
  ∃ list, o = .subscribed list ∧ list.messageId = id

/-- A publish with this identifier is not acknowledged yet. -/
def PublishPending (id : UInt16) (log : List Output) : Prop :=
  Pending (Output.Publishes id) (· = .pubacked id) log

def SubscribePending (id : UInt16) (log : List Output) : Prop :=
  Pending (Output.Subscribes id) (· = .subacked id) log

/-- The identifier of the publish is non-zero and not in use. -/
def ValidPublish (before : List Output) (o : Output) : Prop :=
  ∀ param, o = .published param →
    param.messageId ≠ 0 ∧ ¬PublishPending param.messageId before ∧ ¬SubscribePending param.messageId before

structure ValidIdentifiers (log : List Output) : Prop where
  published : Each ValidPublish log
  /-- Of two publishes that wait for the acknowledgement that comes, one is the other. -/
  determined : ∀ past id future, log = past ++ .pubacked id :: future →
    ∀ before param after before' param' after',
      past = before ++ .published param :: after → past = before' ++ .published param' :: after' →
      param.messageId = id → param'.messageId = id →
      .pubacked id ∉ after → .pubacked id ∉ after' → before = before'

/-! ## Random numbers -/

def Event.Draws (id : UInt16) (e : Event) : Prop :=
  ∃ rand data, e = .dataPublish rand data ∧ rand.toUInt16 = id

def Event.Pubacks (id : UInt16) (e : Event) : Prop := ∃ answers, e = .evt (.puback 0 id) answers

def Event.Connacks (e : Event) : Prop := ∃ answers, e = .evt (.connack 0) answers

def Event.Subacks (id : UInt16) (e : Event) : Prop := ∃ answers, e = .evt (.suback 0 id) answers

/-- The low half of the random number is not 0, it is not that of a number drawn before whose publish
was not acknowledged since, and it is not the identifier of a subscription that was made and not
acknowledged. -/
def GoodDraw (before : List Event) (e : Event) : Prop :=
  ∀ rand data, e = .dataPublish rand data →
    rand.toUInt16 ≠ 0 ∧
    ¬Pending (Event.Draws rand.toUInt16) (Event.Pubacks rand.toUInt16) before ∧
    (rand.toUInt16 = 1234 → ¬Pending Event.Connacks (Event.Subacks 1234) before)

variable (config : MqttConfig) (stream : Nat → UInt8) (bufferSize : Nat)

/-- What an event puts out that concerns identifiers. -/
inductive Emits : Event → List Output → Prop
  | published (rand : UInt32) (data : List UInt8) :
      Emits (.dataPublish rand data) [.published (mqttDataPublish config rand data)]
  | subscribed (answers : List Answer) : Emits (.evt (.connack 0) answers) [.subscribed (subscribe config)]
  | pubacked (id : UInt16) (answers : List Answer) : Emits (.evt (.puback 0 id) answers) [.pubacked id]
  | subacked (id : UInt16) (answers : List Answer) : Emits (.evt (.suback 0 id) answers) [.subacked id]
  | received (payloadLen : Nat) (answers : List Answer) (payload : List UInt8) :
      Emits (.evt (.publish payloadLen) answers) [.received payload]
  | disconnected (payloadLen : Nat) (answers : List Answer) :
      Emits (.evt (.publish payloadLen) answers) [.disconnected]
  | nothing (evt : MqttEvt) (answers : List Answer) : evt ≠ .connack 0 → (∀ id, evt ≠ .puback 0 id) →
      (∀ id, evt ≠ .suback 0 id) → Emits (.evt evt answers) []

theorem step_emits (c : Client) (e : Event) : Emits config e (step config stream c e).2 := by
  cases e with
  | dataPublish rand data => exact .published rand data
  | evt evt answers =>
    cases evt with
    | connack result =>
      by_cases ok : result = 0
      · subst ok
        exact .subscribed answers
      · simp only [step, mqttEvtHandler, if_pos ok]
        exact .nothing _ _ (by simpa using ok) (by simp) (by simp)
    | disconnect result => exact .nothing _ _ (by simp) (by simp) (by simp)
    | publish payloadLen =>
      simp only [step, mqttEvtHandler]
      split
      · exact .nothing _ _ (by simp) (by simp) (by simp)
      · split
        · exact .received payloadLen answers _
        · exact .disconnected payloadLen answers
    | puback result id =>
      by_cases ok : result = 0
      · subst ok
        exact .pubacked id answers
      · simp only [step, mqttEvtHandler, if_pos ok]
        exact .nothing _ _ (by simp) (by simp [ok]) (by simp)
    | suback result id =>
      by_cases ok : result = 0
      · subst ok
        exact .subacked id answers
      · simp only [step, mqttEvtHandler, if_pos ok]
        exact .nothing _ _ (by simp) (by simp) (by simp [ok])
    | other => exact .nothing _ _ (by simp) (by simp) (by simp)

variable {config}

theorem Emits.mirrors_publish {e : Event} {outs : List Output} (emits : Emits config e outs)
    (id : UInt16) :
    Mirrors (Output.Publishes id) (· = .pubacked id) (Event.Draws id) (Event.Pubacks id) e outs := by
  cases emits with
  | nothing evt answers _ pubacks _ =>
    refine .silent (by simp [Event.Draws]) ?_
    rintro ⟨answers', eq⟩
    cases eq
    exact pubacks id rfl
  | _ =>
    exact .one _ (by simp [Output.Publishes, Event.Draws, mqttDataPublish, dataPublish])
      (by simp [Event.Pubacks])

/-- Every subscription is made with the identifier 1234. -/
theorem Emits.mirrors_subscribe {e : Event} {outs : List Output} (emits : Emits config e outs) :
    Mirrors (Output.Subscribes 1234) (· = .subacked 1234) Event.Connacks (Event.Subacks 1234) e outs := by
  cases emits with
  | nothing evt answers connack _ subacks =>
    constructor
    · rintro ⟨answers', eq⟩
      cases eq
      exact connack rfl
    · rintro ⟨answers', eq⟩
      cases eq
      exact subacks 1234 rfl
  | _ =>
    exact .one _ (by simp [Output.Subscribes, Event.Connacks, subscribe]) (by simp [Event.Subacks])

theorem Emits.mirrors_other {e : Event} {outs : List Output} (emits : Emits config e outs)
    {id : UInt16} (other : id ≠ 1234) :
    Mirrors (Output.Subscribes id) (· = .subacked id) (fun _ => False) (Event.Subacks id) e outs := by
  cases emits with
  | nothing evt answers _ _ subacks =>
    refine .silent (by simp) ?_
    rintro ⟨answers', eq⟩
    cases eq
    exact subacks id rfl
  | _ => exact .one _ (by simp [Output.Subscribes, subscribe, other.symm]) (by simp [Event.Subacks])

section runs

variable (config) (es : List Event)

theorem publishPending_run (id : UInt16) :
    PublishPending id ((mqttModule config stream bufferSize).run (mqttModule config stream bufferSize).start
      es).log ↔ Pending (Event.Draws id) (Event.Pubacks id) es :=
  run_pending (fun c e => (step_emits config stream c e).mirrors_publish id) es

/-- Only the identifier 1234 can be that of a subscription. -/
theorem subscribePending_run (id : UInt16) :
    SubscribePending id ((mqttModule config stream bufferSize).run
      (mqttModule config stream bufferSize).start es).log ↔
      id = 1234 ∧ Pending Event.Connacks (Event.Subacks 1234) es := by
  by_cases fixed : id = 1234
  · subst fixed
    have run := run_pending (m := mqttModule config stream bufferSize)
      (fun c e => (step_emits config stream c e).mirrors_subscribe) es
    exact run.trans (and_iff_right rfl).symm
  · have run := run_pending (m := mqttModule config stream bufferSize)
      (fun c e => (step_emits config stream c e).mirrors_other fixed) es
    refine run.trans (iff_of_false ?_ fun subscribed => fixed subscribed.1)
    rintro ⟨_, _, _, _, opened, _⟩
    exact opened

/-- The publishes of a run are valid exactly when its random numbers are good. -/
theorem published_run : Each ValidPublish ((mqttModule config stream bufferSize).run
    (mqttModule config stream bufferSize).start es).log ↔ Each GoodDraw es := by
  refine (mqttModule config stream bufferSize).run_invariant
    (fun es c => Each ValidPublish c.log ↔ Each GoodDraw es) ?_ ?_ es
  · exact iff_of_true (each_nil _) (each_nil _)
  · intro es e same
    have publishes := publishPending_run config stream bufferSize es
    have subscribes := subscribePending_run config stream bufferSize es
    simp only [Machine.next]
    generalize (mqttModule config stream bufferSize).run (mqttModule config stream bufferSize).start es = c
      at same publishes subscribes ⊢
    have emits : Emits config e ((mqttModule config stream bufferSize).step c.state e).2 :=
      step_emits config stream c.state e
    generalize ((mqttModule config stream bufferSize).step c.state e).2 = outs at emits ⊢
    cases emits with
    | nothing => simp [same, GoodDraw]
    | published rand data =>
      simp only [each_append_singleton, same, ValidPublish, GoodDraw, mqttDataPublish, dataPublish,
        Output.published.injEq, Event.dataPublish.injEq, forall_eq', and_imp, publishes, subscribes,
        not_and]
      simp
    | _ => simp [same, ValidPublish, GoodDraw]

end runs

/-- Where every publish is valid, no two that wait have one identifier. -/
theorem ValidIdentifiers.of_published {log : List Output} (published : Each ValidPublish log) :
    ValidIdentifiers log := by
  refine ⟨published, ?_⟩
  rintro past id future rfl before param after before' param' after' split split' rfl same unacked
    unacked'
  have fresh : Each (fun earlier o => o.Publishes param.messageId →
      ¬PublishPending param.messageId earlier) past := by
    rintro earlier o later found ⟨param'', rfl, eq⟩
    rw [← eq]
    exact (published.of_append earlier _ later found param'' rfl).2.1
  exact fresh.opened_once split split' ⟨param, rfl, rfl⟩ ⟨param', rfl, same⟩
    (fun x member eq => unacked (eq ▸ member)) (fun x member eq => unacked' (eq ▸ member))

/-- In every run the packet identifiers are valid exactly when its random numbers are good. -/
theorem identifiers_valid_iff (es : List Event) :
    ValidIdentifiers ((mqttModule config stream bufferSize).run
      (mqttModule config stream bufferSize).start es).log ↔ Each GoodDraw es :=
  ⟨fun valid => (published_run config stream bufferSize es).mp valid.published,
    fun good => .of_published ((published_run config stream bufferSize es).mpr good)⟩

def sampleConfig : MqttConfig := ⟨"up", "down", 1883⟩

/-- A random number may have a low half of 0, another that of the subscription, and two may have the
same. -/
theorem identifiers_invalid :
    ¬ValidIdentifiers ((mqttModule sampleConfig (fun _ => 0) 128).run
      (mqttModule sampleConfig (fun _ => 0) 128).start [.dataPublish 0x10000 []]).log ∧
    ¬ValidIdentifiers ((mqttModule sampleConfig (fun _ => 0) 128).run
      (mqttModule sampleConfig (fun _ => 0) 128).start [.evt (.connack 0) [], .dataPublish 1234 []]).log ∧
    ¬ValidIdentifiers ((mqttModule sampleConfig (fun _ => 0) 128).run
      (mqttModule sampleConfig (fun _ => 0) 128).start
      [.dataPublish 7 [], .dataPublish 0x10007 []]).log := by
  refine ⟨fun valid => ?_, fun valid => ?_, fun valid => ?_⟩
  · exact (valid.published [] _ [] rfl _ rfl).1 (by decide)
  · apply (valid.published [.subscribed (subscribe sampleConfig)] _ [] rfl _ rfl).2.2
    exact ⟨[], _, [], rfl, ⟨_, rfl, rfl⟩, by simp⟩
  · apply (valid.published [.published (mqttDataPublish sampleConfig 7 [])] _ [] rfl _ rfl).2.1
    exact ⟨[], _, [], rfl, ⟨_, rfl, by decide⟩, by simp⟩

end DtApp.Mqtt
