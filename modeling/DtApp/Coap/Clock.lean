import DtApp.Coap.Schedule

/-!
# Choosing and computing the wait

Deadlines are words that wrap around. `next_retransmission` compares them as numbers, and
`txrx_thread` takes the difference from the clock as the timeout of `k_poll`, which has a
word of its own for no timeout.
-/
namespace DtApp.Coap

open Backoff

/-- What is left until a deadline, as `txrx_thread` computes it. -/
def remaining (e : InflightPacket) (uptime : Nat) : Int := s32 (e.deadline - uptime % 2 ^ 32)

/-- The selected entry's deadline is the least number. -/
theorem nextRetransmission_least (ep : CoapEndpoint) (i : Fin ep.inflight.len)
    (selected : nextRetransmission ep = some i) (e : InflightPacket) (member : e ∈ ep.inflight.items)
    (armed : e.retransmit = true) : (ep.inflight.get i).deadline ≤ e.deadline := by
  have earliest := nextRetransmission_earliest ep
  rw [selected] at earliest
  obtain ⟨j, rfl⟩ := (ep.inflight.mem_items_iff e).mp member
  exact earliest.2 j (List.mem_finRange j) armed

theorem pollTimeout_selected (ep : CoapEndpoint) (uptime : Nat) (i : Fin ep.inflight.len)
    (selected : nextRetransmission ep = some i) :
    pollTimeout ep uptime = remaining (ep.inflight.get i) uptime := by
  simp only [pollTimeout, selected]
  rfl

/-- Stored deadlines are words. -/
def DeadlinesFit (table : Multiset InflightPacket) : Prop :=
  ∀ e ∈ table, -2 ^ 31 ≤ e.deadline ∧ e.deadline < 2 ^ 31

variable {z : Zephyr}

theorem s32_range (x : Int) : -2 ^ 31 ≤ s32 x ∧ s32 x < 2 ^ 31 := wrap_range 31 x

theorem fillInflight_deadline (env : Env) (tx : PacketTxDataItem) :
    -2 ^ 31 ≤ (fillInflight z env tx).deadline ∧ (fillInflight z env tx).deadline < 2 ^ 31 := by
  simp only [fillInflight]
  split
  · exact s32_range _
  · exact ⟨by norm_num, by norm_num⟩

theorem Move.deadlinesFit {v v' : View} {event : Event} {outs : List Output}
    (move : Move z v event outs v') (fit : DeadlinesFit v.table) : DeadlinesFit v'.table := by
  intro e member
  cases move.remains e member with
  | kept old => exact fit e old
  | @stored env tx => exact fillInflight_deadline env tx
  | resent => exact s32_range _
  | @acknowledged env rx e old => exact fit e old

/-! ## The earliest deadline -/

/-- The word at which the remaining times start over. -/
def cut (now : Nat) : Int := s32 (now + 2 ^ 31)

/-- The armed entry with the least remaining time is selected, or none when there is none. -/
structure SelectsEarliest (ep : CoapEndpoint) (now : Nat) : Prop where
  none : nextRetransmission ep = none ↔ ∀ e ∈ ep.inflight.items, e.retransmit = false
  some : ∀ i, nextRetransmission ep = some i → (ep.inflight.get i).retransmit = true ∧
    ∀ e ∈ ep.inflight.items, e.retransmit = true →
      remaining (ep.inflight.get i) now ≤ remaining e now

/-- All armed deadlines lie on one side of the word at which the remaining times start over. -/
def OneSide (ep : CoapEndpoint) (now : Nat) : Prop :=
  (∀ e ∈ ep.inflight.items, e.retransmit = true → cut now ≤ e.deadline) ∨
    (∀ e ∈ ep.inflight.items, e.retransmit = true → e.deadline < cut now)

theorem remaining_eq (e : InflightPacket) (now : Nat) (fits : -2 ^ 31 ≤ e.deadline ∧ e.deadline < 2 ^ 31) :
    remaining e now =
      if cut now ≤ e.deadline then e.deadline - cut now - 2 ^ 31 else e.deadline - cut now + 2 ^ 31 := by
  have same : e.deadline - (now : Int) % 2 ^ 32 ≡ e.deadline - now [ZMOD 2 ^ 32] :=
    (Int.ModEq.refl _).sub (Int.mod_modEq _ _)
  have read : remaining e now = wrap 31 (e.deadline - now) := wrap_congr 31 same
  rw [read, wrap_sub 31 now e.deadline fits.1 fits.2]
  rfl

/-- The earlier of two deadlines on one side has less time left, and between two sides it is the
deadline that is greater as a number. -/
theorem remaining_le_iff (a b : InflightPacket) (now : Nat)
    (fitsA : -2 ^ 31 ≤ a.deadline ∧ a.deadline < 2 ^ 31)
    (fitsB : -2 ^ 31 ≤ b.deadline ∧ b.deadline < 2 ^ 31) :
    remaining a now ≤ remaining b now ↔
      if cut now ≤ a.deadline ↔ cut now ≤ b.deadline then a.deadline ≤ b.deadline
      else b.deadline < a.deadline := by
  rw [remaining_eq a now fitsA, remaining_eq b now fitsB]
  by_cases sideA : cut now ≤ a.deadline <;> by_cases sideB : cut now ≤ b.deadline
  · simp only [sideA, sideB, if_true]
    omega
  · simp only [sideA, sideB, if_true, if_false]
    simp only [iff_false, not_true_eq_false, if_false]
    omega
  · simp only [sideA, sideB, if_true, if_false]
    simp only [iff_true, if_false]
    omega
  · simp only [sideA, sideB, if_false]
    simp only [if_true]
    omega

section runs

variable {app : App} {sock : Int} {resources : List CoapResource}
  {ok : EndpointConfig → Event → Prop} {c : EndpointConfig}

theorem reachable_deadlinesFit (laws : z.Encodes) (reach : (endpoint z app sock resources).Reachable ok c) :
    DeadlinesFit c.state.view.table := by
  apply reachable_invariant laws (fun v _ => DeadlinesFit v.table) _ _ reach
  · exact fun _ member => absurd member (Multiset.notMem_zero _)
  · exact fun v _ _ _ _ _ move fit => move.deadlinesFit fit

/-- The earliest deadline is chosen exactly when no two armed ones lie on different sides. -/
theorem selectsEarliest_iff (laws : z.Encodes) (reach : (endpoint z app sock resources).Reachable ok c)
    (now : Nat) : SelectsEarliest c.state.ep now ↔ OneSide c.state.ep now := by
  have fit : ∀ e ∈ c.state.ep.inflight.items, -2 ^ 31 ≤ e.deadline ∧ e.deadline < 2 ^ 31 :=
    fun e member => reachable_deadlinesFit laws reach e (Multiset.mem_coe.mpr member)
  have least := nextRetransmission_least c.state.ep
  constructor
  · intro selects
    cases selected : nextRetransmission c.state.ep with
    | none =>
      -- without an armed entry there is nothing on either side
      have unarmed := selects.none.mp selected
      refine .inl fun e member armed => ?_
      rw [unarmed e member] at armed
      cases armed
    | some i =>
      have here := c.state.ep.inflight.get_mem i
      obtain ⟨_, first⟩ := selects.some i selected
      by_cases side : cut now ≤ (c.state.ep.inflight.get i).deadline
      · -- the least number lies above, so all do
        exact .inl fun e member armed => side.trans (least i selected e member armed)
      · refine .inr fun e member armed => ?_
        by_contra other
        have le := (remaining_le_iff _ e now (fit _ here) (fit e member)).mp (first e member armed)
        rw [if_neg fun same => side (same.mpr (Int.not_lt.mp other))] at le
        have number := least i selected e member armed
        omega
  · intro oneSide
    refine ⟨nextRetransmission_eq_none_iff _, fun i selected => ?_⟩
    have on := nextRetransmission_retransmit _ i selected
    have here := c.state.ep.inflight.get_mem i
    refine ⟨on, fun e member armed => ?_⟩
    rw [remaining_le_iff _ e now (fit _ here) (fit e member)]
    have same : cut now ≤ (c.state.ep.inflight.get i).deadline ↔ cut now ≤ e.deadline := by
      rcases oneSide with above | below
      · exact iff_of_true (above _ here on) (above e member armed)
      · exact iff_of_false (Int.not_le.mpr (below _ here on)) (Int.not_le.mpr (below e member armed))
    rw [if_pos same]
    exact least i selected e member armed

end runs

/-- Two requests are transmitted three seconds apart, the second one with a deadline that does
not fit a signed word. -/
def acrossWrap : EndpointConfig :=
  sampleRun [samplePost 0, .transmit (calmEnv 1 (2 ^ 31 - 12000)), samplePost 1,
    .transmit (calmEnv 2 (2 ^ 31 - 9000))]

theorem later_deadline_selected :
    sampleEndpoint.Reachable anyEvent acrossWrap ∧ ¬SelectsEarliest acrossWrap.state.ep (2 ^ 31 - 9000) := by
  refine ⟨sampleRun_reachable _, fun selects => ?_⟩
  have second : ∃ i, nextRetransmission acrossWrap.state.ep = some i ∧
      ∃ e ∈ acrossWrap.state.ep.inflight.items, e.retransmit = true ∧
        remaining e (2 ^ 31 - 9000) < remaining (acrossWrap.state.ep.inflight.get i) (2 ^ 31 - 9000) := by
    decide +kernel
  obtain ⟨i, selected, e, member, armed, less⟩ := second
  exact absurd ((selects.some i selected).2 e member armed) (Int.not_le.mpr less)

theorem selectsEarliest_iff_inflight :
    SelectsEarliest twoInflight.state.ep 7 ↔ OneSide twoInflight.state.ep 7 :=
  selectsEarliest_iff rfcZephyr_encodes (sampleRun_reachable _) 7

/-! ## The wait -/

/-- The timeout passed to `k_poll` has a limit, and is the time to a deadline that lies ahead. -/
structure WaitsForDeadline (c : EndpointConfig) (now : Nat) : Prop where
  limited : pollTimeout c.state.ep now ≠ kForever
  exact : ∀ i start rand, nextRetransmission c.state.ep = some i →
    armings (c.state.ep.inflight.get i).call c.log = [(start, rand)] →
    (now : Int) < deadlineAt start (firstTimeout rand) (c.state.ep.inflight.get i).retransmissionCount →
    pollTimeout c.state.ep now =
      deadlineAt start (firstTimeout rand) (c.state.ep.inflight.get i).retransmissionCount - now

/-- The clock has not been turned back: it shows no less than when each request was armed. -/
def ClockRuns (log : List Output) (now : Nat) : Prop :=
  ∀ call start rand, Output.armed call start rand ∈ log → start ≤ now

/-- The clock is one millisecond past the armed deadline that is least as a number, as words. -/
def JustMissed (ep : CoapEndpoint) (now : Nat) : Prop :=
  ∃ e ∈ ep.inflight.items, e.retransmit = true ∧
    (∀ e' ∈ ep.inflight.items, e'.retransmit = true → e.deadline ≤ e'.deadline) ∧
    (now : Int) ≡ e.deadline + 1 [ZMOD 2 ^ 32]

/-- A wait is unlimited by mistake exactly when the deadline was just missed. -/
theorem remaining_eq_kForever_iff (e : InflightPacket) (now : Nat) :
    remaining e now = kForever ↔ (now : Int) ≡ e.deadline + 1 [ZMOD 2 ^ 32] := by
  have word : remaining e now ≡ e.deadline - now [ZMOD 2 ^ 32] :=
    (s32_modEq _).trans ((Int.ModEq.refl _).sub (Int.mod_modEq _ _))
  constructor
  · intro forever
    rw [forever, kForever] at word
    have moved := (word.add_right (now + 1)).symm
    have left : e.deadline - now + (now + 1) = e.deadline + 1 := by omega
    have right : (-1 : Int) + (now + 1) = now := by omega
    rw [left, right] at moved
    exact moved.symm
  · intro missed
    have minus : e.deadline - now % 2 ^ 32 ≡ -1 [ZMOD 2 ^ 32] := by
      have moved := (Int.ModEq.refl e.deadline).sub ((Int.mod_modEq (now : Int) _).trans missed)
      have eq : e.deadline - (e.deadline + 1) = -1 := by omega
      rw [eq] at moved
      exact moved
    exact (wrap_congr 31 minus).trans (wrap_of_range 31 (-1) (by norm_num) (by norm_num))

section runs

variable {app : App} {sock : Int} {resources : List CoapResource}
  {ok : EndpointConfig → Event → Prop} {c : EndpointConfig}

theorem mem_armings (call start rand : Nat) (log : List Output) :
    (start, rand) ∈ armings call log ↔ Output.armed call start rand ∈ log := by
  simp only [armings, List.mem_filterMap]
  constructor
  · rintro ⟨o, member, eq⟩
    cases o with
    | armed call' start' rand' =>
      simp only [Option.ite_none_right_eq_some, Option.some.injEq, Prod.mk.injEq] at eq
      obtain ⟨rfl, rfl, rfl⟩ := eq
      exact member
    | _ => cases eq
  · intro member
    exact ⟨_, member, by simp⟩

/-- A deadline lies less than half a turn ahead of any clock that shows no less than its start. -/
theorem deadlineAt_near (start rand k : Nat) (bound : k ≤ maxRetransmissionCount) :
    deadlineAt start (firstTimeout rand) k < start + 2 ^ 31 := by
  obtain ⟨low, high⟩ := firstTimeout_range rand
  have most : (2 : Int) ^ (k + 1) ≤ 2 ^ (maxRetransmissionCount + 1) :=
    pow_le_pow_right₀ (by norm_num) (Nat.succ_le_succ bound)
  have first : firstTimeout rand * (2 ^ (k + 1) - 1) ≤
      firstTimeout rand * (2 ^ (maxRetransmissionCount + 1) - 1) :=
    mul_le_mul_of_nonneg_left (by omega) (by omega)
  simp only [deadlineAt, maxRetransmissionCount] at first ⊢
  omega

/-- While a request is armed, the loop waits for its deadline, except in the one millisecond in
which the difference reads as no timeout. -/
theorem waitsForDeadline_iff (laws : z.Encodes) (reach : (endpoint z app sock resources).Reachable ok c)
    (armed : ∃ e ∈ c.state.ep.inflight.items, e.retransmit = true) (now : Nat)
    (clock : ClockRuns c.log now) :
    WaitsForDeadline c now ↔ ¬JustMissed c.state.ep now := by
  cases selected : nextRetransmission c.state.ep with
  | none =>
    obtain ⟨e, member, on⟩ := armed
    rw [(nextRetransmission_eq_none_iff _).mp selected e member] at on
    cases on
  | some i =>
    have wait := pollTimeout_selected c.state.ep now i selected
    have forever := remaining_eq_kForever_iff (c.state.ep.inflight.get i) now
    have here := c.state.ep.inflight.get_mem i
    have flag := nextRetransmission_retransmit _ i selected
    have least := nextRetransmission_least c.state.ep i selected
    constructor
    · rintro waits ⟨e, member, on, first, missed⟩
      -- the selected entry has the same deadline
      have same : e.deadline = (c.state.ep.inflight.get i).deadline :=
        Int.le_antisymm (first _ here flag) (least e member on)
      rw [same] at missed
      exact waits.limited (wait.trans (forever.mpr missed))
    · intro fine
      refine ⟨fun unlimited => fine ⟨_, here, flag, least, forever.mp (wait.symm.trans unlimited)⟩, ?_⟩
      intro j start rand selected' once ahead
      rw [selected] at selected'
      cases selected'
      obtain ⟨start', rand', once', scheduled⟩ :=
        (reachable_timed laws reach).table _ (Multiset.mem_coe.mpr (c.state.ep.inflight.get_mem i))
      have on := scheduled flag
      obtain ⟨rfl, rfl⟩ : start = start' ∧ rand = rand' := by simpa [once] using once'
      have started : start ≤ now := by
        refine clock (c.state.ep.inflight.get i).call start rand ((mem_armings _ _ _ _).mp ?_)
        rw [once]
        exact List.mem_singleton_self _
      have near := deadlineAt_near start rand _ on.count
      rw [wait]
      apply wrap_remaining 31 on.deadline
      rw [abs_lt]
      omega

end runs

/-- A request is transmitted at uptime 5. -/
def oneInflight : EndpointConfig := sampleRun [samplePost 0, .transmit (calmEnv 1 5)]

/-- If the output arms an entry, then not after the uptime. -/
def Output.armedBy (uptime : Nat) : Output → Bool
  | .armed _ start _ => start ≤ uptime
  | _ => true

theorem oneInflight_clock : ClockRuns oneInflight.log 10006 := by
  have armed : ∀ o ∈ oneInflight.log, o.armedBy 10006 = true := by decide +kernel
  intro call start rand member
  exact of_decide_eq_true (armed _ member)

theorem missed_deadline_waits_forever :
    sampleEndpoint.Reachable anyEvent oneInflight ∧ ClockRuns oneInflight.log 10006 ∧
      (∃ e ∈ oneInflight.state.ep.inflight.items, e.retransmit = true) ∧
      ¬WaitsForDeadline oneInflight 10006 :=
  ⟨sampleRun_reachable _, oneInflight_clock, by decide +kernel, fun waits =>
    absurd waits.limited (by decide +kernel)⟩

theorem waitsForDeadline_iff_inflight :
    WaitsForDeadline oneInflight 10006 ↔ ¬JustMissed oneInflight.state.ep 10006 :=
  waitsForDeadline_iff rfcZephyr_encodes (sampleRun_reachable _) (by decide +kernel) 10006 oneInflight_clock

end DtApp.Coap
